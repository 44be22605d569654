/-
  AddonAudit.Proofs.Addon.Containment — where the files of an addon lie.

  An addon is given by a path.  If there is a manifest in the folder at the path, what is found by a
  walk through source files or by the patterns of message catalogs lies in that folder.  If there is
  none, the folder above is taken for that of the addon, and its files are found.  Files that the
  manifest names lie where it says.
-/
import AddonAudit.Proofs.Audit.Checks
import AddonAudit.Proofs.Findings
import AddonAudit.Proofs.Workspace.Inside

namespace AddonAudit

open List Groups Manifest

/-! ## §1. Texts covered by a star and a tail. -/

namespace Wildcard

/-- A star stands for the front of a text. -/
theorem accept_run {ps : List Piece} {cs : List Char} (h : accept (.run :: ps) cs) :
    ∃ a b, cs = a ++ b ∧ accept ps b := by
  induction cs with
  | nil =>
    rw [accept] at h
    exact ⟨[], [], rfl, h⟩
  | cons c cs ih =>
    rw [accept, Bool.or_eq_true] at h
    rcases h with h | h
    · exact ⟨[], c :: cs, rfl, h⟩
    · obtain ⟨a, b, rfl, hb⟩ := ih h
      exact ⟨c :: a, b, rfl, hb⟩

/-- Characters stand for themselves. -/
theorem accept_chars {s cs : List Char} (h : accept (s.map .char) cs) : cs = s := by
  induction s generalizing cs with
  | nil =>
    rw [map_nil, accept] at h
    exact isEmpty_iff.mp h
  | cons d s ih =>
    cases cs with
    | nil =>
      rw [map_cons, accept] at h
      · cases h
      · exact fun hrun => by cases hrun
    | cons c cs =>
      rw [map_cons, accept, Bool.and_eq_true] at h
      · rw [ih h.2, beq_iff_eq.mp h.1]
      · exact fun hrun => by cases hrun

end Wildcard

namespace Text

theorem cutLast?_append {c : Char} {a b : List Char} (hb : c ∉ b) :
    cutLast? c (a ++ c :: b) = some (a, b) := by
  have htail : ((a ++ c :: b).reverse.takeWhile (· != c)).reverse = b := by
    have hall : ∀ x ∈ b.reverse, (x != c) := by
      intro x hx
      rw [bne_iff_ne]
      rintro rfl
      exact hb (mem_reverse.mp hx)
    rw [reverse_append, reverse_cons, append_assoc, takeWhile_append_of_pos hall]
    simp
  unfold cutLast?
  dsimp only
  rw [htail, length_append, length_cons, if_pos (by omega)]
  rw [show a.length + (b.length + 1) - b.length - 1 = a.length by omega, take_left]

end Text

namespace Path

/-- The suffix of a name that ends with a dot and more: this, or none if there are only dots
    before. -/
theorem splitSuffix_of_dot {p : String} {stem tail : List Char} (h : (basename p).toList = stem ++
    '.' :: tail) (htail : '.' ∉ tail) : (splitSuffix p).2 = "" ∨
    (splitSuffix p).2 = String.ofList ('.' :: tail) := by
  unfold splitSuffix
  dsimp only
  rw [h, Text.cutLast?_append htail]
  dsimp only
  split
  · exact .inl rfl
  · exact .inr rfl

end Path

/-! ## §2. The files of an addon. -/

namespace Addon

open Traversal (bind_ok_iff map_ok_iff mem_of_mapM_ok)

variable {w : World} {s : Settings} {folder : String} {manifest : Datum}

/-- Whether a section of a manifest names a path. -/
def Names (manifest : Datum) (sectionName path : String) : Prop :=
  ∃ items, sectionItems manifest sectionName = .ok items ∧ .text path ∈ items

/-- Where a file of an addon comes from, with the extension that it is listed under. -/
inductive Listed (w : World) (folder : String) (manifest : Datum) : String → DataFile → Prop
  /-- A section of the manifest names it. -/
  | data {sectionName path ext : String} (h : sectionName ∈ dataSections)
      (hnames : Names manifest sectionName path) : Listed w folder manifest ext
        ⟨w.resolve (Path.join folder (Path.normalize path)), Path.normalize path, sectionName⟩
  /-- The pattern of message catalogs covers it. -/
  | catalog {pattern path : String} (h : pattern ∈ catalogPatterns)
      (hpath : path ∈ Glob.paths w (Path.join folder pattern)) :
      Listed w folder manifest (extensionOf path)
        ⟨w.resolve path, Path.normalize path, "default"⟩
  /-- A walk meets it. -/
  | source {path : String} (hpath : path ∈ sourcePaths w folder) : Listed w folder manifest ".py"
        ⟨w.resolve path, Path.relative w.cwd path folder, "python"⟩

variable {path ext : String} {f : DataFile} {found : List Named}

theorem text_of_pathText {item : Datum} (h : pathText item = .ok path) : item = .text path := by
  unfold pathText at h
  split at h
  · split at h
    · cases h
    · cases h
      rfl
  · cases h
  · cases h

theorem mem_dataFiles (h : dataFiles w s folder manifest = .ok found) (hf : (ext, f) ∈ found) :
    ∃ sectionName ∈ dataSections, ∃ path, Names manifest sectionName path ∧
    s.excludes? path = .ok false ∧
      ext = extensionOf path ∧ f = ⟨w.resolve (Path.join folder (Path.normalize path)),
      Path.normalize path, sectionName⟩ := by
  obtain ⟨sections, hsections, heq⟩ := bind_ok_iff.mp h
  obtain rfl := Except.ok.inj heq
  obtain ⟨o, ho, hsome⟩ := mem_filterMap.mp hf
  rw [show o = some (ext, f) from hsome] at ho
  obtain ⟨part, hpart, ho⟩ := mem_flatten.mp ho
  obtain ⟨sectionName, hsection, hpart'⟩ := mem_of_mapM_ok hsections hpart
  obtain ⟨items, hitems, hfiles⟩ := bind_ok_iff.mp hpart'
  obtain ⟨item, hitem, hfile⟩ := mem_of_mapM_ok hfiles ho
  obtain ⟨path, hpath, hfile⟩ := bind_ok_iff.mp hfile
  obtain ⟨excluded, hexcluded, hfile⟩ := bind_ok_iff.mp hfile
  cases excluded with
  | true => cases hfile
  | false =>
    obtain ⟨rfl, rfl⟩ := Prod.mk.inj (Option.some.inj (Except.ok.inj hfile))
    exact ⟨sectionName, hsection, path, ⟨items, hitems, text_of_pathText hpath ▸ hitem⟩, hexcluded,
      rfl, rfl⟩

/-- What is left after the paths that are left out. -/
theorem mem_kept {paths kept : List String} {g : String → String}
    (h : paths.filterM (fun p => do return !(← s.excludes? (g p))) = .ok kept)
    (hpath : path ∈ kept) :
    path ∈ paths ∧ s.excludes? (g path) = .ok false := by
  obtain ⟨hmem, hkept⟩ := ((Traversal.filterM_ok h).2 path).mp hpath
  obtain ⟨excluded, hexcluded, heq⟩ := bind_ok_iff.mp hkept
  cases excluded with
  | true => cases heq
  | false => exact ⟨hmem, hexcluded⟩

theorem mem_catalogFiles (h : catalogFiles w s folder = .ok found) (hf : (ext, f) ∈ found) :
    ∃ pattern ∈ catalogPatterns, ∃ path ∈ Glob.paths w (Path.join folder pattern),
      ext = extensionOf path ∧ f = ⟨w.resolve path, Path.normalize path, "default"⟩ := by
  obtain ⟨kept, hkept, heq⟩ := bind_ok_iff.mp h
  obtain rfl := Except.ok.inj heq
  obtain ⟨path, hpath, heq⟩ := mem_map.mp hf
  obtain ⟨rfl, rfl⟩ := Prod.mk.inj heq
  obtain ⟨pattern, hpattern, hcovers⟩ := mem_flatMap.mp (mem_kept hkept hpath).1
  exact ⟨pattern, hpattern, path, hcovers, rfl, rfl⟩

theorem mem_sourceFiles (h : sourceFiles w s folder = .ok found) (hf : (ext, f) ∈ found) :
    ∃ path ∈ sourcePaths w folder, s.excludes? (Path.relative w.cwd path folder) = .ok false ∧
      ext = ".py" ∧ f = ⟨w.resolve path, Path.relative w.cwd path folder, "python"⟩ := by
  obtain ⟨kept, hkept, heq⟩ := bind_ok_iff.mp h
  obtain rfl := Except.ok.inj heq
  obtain ⟨path, hpath, heq⟩ := mem_map.mp hf
  obtain ⟨rfl, rfl⟩ := Prod.mk.inj heq
  obtain ⟨hmem, hexcluded⟩ := mem_kept hkept hpath
  exact ⟨path, hmem, hexcluded, rfl, rfl⟩

/-- Files that are added one by one are grouped by their extensions. -/
theorem get_foldl_add (found : List Named) (ext : String) :
    get ext (found.foldl (fun groups (ext, f) => add ext f groups) []) =
    (found.filter (·.1 == ext)).map Prod.snd :=
  Groups.get_foldl_add Prod.fst Prod.snd found [] ext

theorem mem_filesOf {groups : Groups String DataFile} (h : filesOf w s folder manifest = .ok groups)
    (hf : f ∈ get ext groups) :
    (∃ found, dataFiles w s folder manifest = .ok found ∧ (ext, f) ∈ found) ∨
      (∃ found, catalogFiles w s folder = .ok found ∧ (ext, f) ∈ found) ∨
      ∃ found, sourceFiles w s folder = .ok found ∧ (ext, f) ∈ found := by
  obtain ⟨data, hdata, h⟩ := bind_ok_iff.mp h
  obtain ⟨catalogs, hcatalogs, h⟩ := bind_ok_iff.mp h
  obtain ⟨sources, hsources, heq⟩ := bind_ok_iff.mp h
  obtain rfl := Except.ok.inj heq
  rw [get_foldl_add] at hf
  obtain ⟨⟨e, g⟩, hfound, rfl⟩ := mem_map.mp hf
  obtain ⟨hmem, hkey⟩ := mem_filter.mp hfound
  cases beq_iff_eq.mp hkey
  rw [append_assoc, mem_append, mem_append] at hmem
  exact hmem.imp (⟨data, hdata, ·⟩) (.imp (⟨catalogs, hcatalogs, ·⟩) (⟨sources, hsources, ·⟩))

/-- **Every file of an addon is named by the manifest, covered by a pattern or met on a walk.** -/
theorem listed_of_filesOf {groups : Groups String DataFile}
    (h : filesOf w s folder manifest = .ok groups) (hf : f ∈ get ext groups) :
    Listed w folder manifest ext f := by
  rcases mem_filesOf h hf with ⟨found, hfound, hmem⟩ | ⟨found, hfound, hmem⟩ | ⟨found, hfound, hmem⟩
  · obtain ⟨sectionName, hsection, path, hnames, -, -, rfl⟩ := mem_dataFiles hfound hmem
    exact .data hsection hnames
  · obtain ⟨pattern, hpattern, path, hpath, rfl, rfl⟩ := mem_catalogFiles hfound hmem
    exact .catalog hpattern hpath
  · obtain ⟨path, hpath, -, rfl, rfl⟩ := mem_sourceFiles hfound hmem
    exact .source hpath

/-! ### Files that are found lie below the folder -/

/-- The two components of each pattern of message catalogs. -/
theorem catalogPatterns_eq : catalogPatterns =
    [[], ['t']].map fun last => "i18n*" ++ "/" ++
    String.ofList ('*' :: '.' :: 'p' :: 'o' :: last) := by
  decide

section

variable (hcwd : Path.isAbsolute w.cwd = true) (hroot : w.root.named = true)

include hcwd

/-- The place of a path that is put together behind a folder. -/
theorem placeOf_under {place : List String} (hplain : ∀ n ∈ place, Path.isPlain n) :
    w.placeOf (Path.under folder place) = w.placeOf folder ++ place := by
  have hnames := fun n hn => (Path.isPlain_iff.mp (hplain n hn)).1
  have hcomponents := Path.components_intercalate hnames
  rw [Path.under, World.placeOf_join hcwd folder (Path.isAbsolute_intercalate hnames), hcomponents]
  rw [hcomponents]
  exact fun hmem => (Path.isPlain_iff.mp (hplain _ hmem)).2 rfl

include hroot

/-- A source file lies at a place inside the folder, in no folder that is skipped. -/
theorem place_of_mem_sourcePaths (h : path ∈ sourcePaths w folder) :
    ∃ place, place ≠ [] ∧ (∀ n ∈ place, Path.isPlain n) ∧
    (∀ n ∈ place.dropLast, n ∉ skippedFolders) ∧
      path = Path.under folder place := by
  unfold sourcePaths at h
  split at h
  · cases h
  · rename_i e hfind
    have he := World.named_of_find hcwd hroot hfind
    rw [Entry.flatMap_walk he] at h
    obtain ⟨place, hplace, rfl⟩ := mem_map.mp h
    obtain ⟨hne, hplain, hentered⟩ := Entry.plain_of_mem_filePlaces he place hplace
    exact ⟨place, hne, hplain, fun n hn => by simpa using hentered n hn, rfl⟩

theorem below_of_mem_sourcePaths (h : path ∈ sourcePaths w folder) : w.Below folder path := by
  obtain ⟨place, hne, hplain, -, rfl⟩ := place_of_mem_sourcePaths hcwd hroot h
  exact ⟨place, hne, placeOf_under hcwd hplain⟩

/-- A catalog has no extension or that of its pattern, and lies below the folder if this has no
    wildcard in its path. -/
theorem catalog_path {pattern : String} (h : pattern ∈ catalogPatterns)
    (hpath : path ∈ Glob.paths w (Path.join folder pattern)) :
    extensionOf path ≠ ".py" ∧ (Glob.hasWildcard folder = false → w.Below folder path) := by
  rw [catalogPatterns_eq] at h
  obtain ⟨last, hlast, rfl⟩ := mem_map.mp h
  have hcases : last = [] ∨ last = ['t'] := by simpa using hlast
  have hm : Path.IsName "i18n*" := ⟨by decide, by decide, by decide⟩
  have hslash : '/' ∉ (String.ofList ('*' :: '.' :: 'p' :: 'o' :: last)).toList := by
    rcases hcases with rfl | rfl <;> decide
  have hwild : Glob.hasWildcard (String.ofList ('*' :: '.' :: 'p' :: 'o' :: last)) := by
    rcases hcases with rfl | rfl <;> decide
  obtain ⟨f, k, n, -, hn, rfl, hbelow⟩ :=
    Glob.mem_expand_join hcwd hroot hm hslash (by decide) hwild hpath
  refine ⟨?_, hbelow⟩
  -- the name ends as the pattern does
  obtain ⟨hname, -⟩ := Path.isPlain_iff.mp (Glob.isPlain_of_mem_namesIn hcwd hroot hn)
  have hcovers : Wildcard.covers (String.ofList ('*' :: '.' :: 'p' :: 'o' :: last)) n := by
    have hkept := (mem_filter.mp hn).2
    simp only [Bool.and_eq_true] at hkept
    exact hkept.1.2
  have hpieces : Wildcard.accept (.run :: ('.' :: 'p' :: 'o' :: last).map .char) n.toList := by
    rcases hcases with rfl | rfl <;> exact hcovers
  obtain ⟨stem, tail, hsplit, htail⟩ := Wildcard.accept_run hpieces
  rw [Wildcard.accept_chars htail] at hsplit
  have hdot : '.' ∉ 'p' :: 'o' :: last := by
    rcases hcases with rfl | rfl <;> decide
  have hbase : (Path.basename (Path.join (Path.join f k) n)).toList = stem ++
      '.' :: 'p' :: 'o' :: last := by
    rw [Path.basename_join _ hname, hsplit]
  unfold extensionOf
  rcases Path.splitSuffix_of_dot hbase hdot with hsuffix | hsuffix
  · rw [hsuffix]
    decide
  · rw [hsuffix]
    rcases hcases with rfl | rfl <;> decide

/-- **What is found for an addon lies below its folder**, catalogs if that has no wildcard in its
    path. -/
theorem Listed.below (h : Listed w folder manifest ext f) :
    (f.sectionName = "python" → w.Below folder f.path) ∧
      (f.sectionName = "default" → Glob.hasWildcard folder = false → w.Below folder f.path) := by
  cases h with
  | data hsection hnames =>
    have hother : ∀ sectionName ∈ dataSections, sectionName ≠ "python" ∧
        sectionName ≠ "default" := by
      decide
    exact ⟨fun heq => absurd heq (hother _ hsection).1, fun heq => absurd heq (hother _ hsection).2⟩
  | catalog hpattern hpath =>
    refine ⟨fun heq => ?_, fun _ hnone => ?_⟩
    · exact absurd (show "default" = "python" from heq) (by decide)
    · dsimp only
      exact ((catalog_path hcwd hroot hpattern hpath).2 hnone).resolve hcwd
  | source hpath =>
    refine ⟨fun _ => ?_, fun heq => ?_⟩
    · dsimp only
      exact (below_of_mem_sourcePaths hcwd hroot hpath).resolve hcwd
    · exact absurd (show "python" = "default" from heq) (by decide)

/-- A source file lies below the folder, or the manifest names it. -/
theorem Listed.below_or_names (h : Listed w folder manifest ext f) (hext : ext = ".py") :
    w.Below folder f.path ∨ ∃ sectionName ∈ dataSections, ∃ item, Names manifest sectionName item ∧
      f.path = w.resolve (Path.join folder (Path.normalize item)) := by
  cases h with
  | @data sectionName path ext hsection hnames =>
    refine .inr ⟨sectionName, hsection, path, hnames, ?_⟩
    dsimp only
  | catalog hpattern hpath => exact absurd hext (catalog_path hcwd hroot hpattern hpath).1
  | source hpath =>
    refine .inl ?_
    dsimp only
    exact (below_of_mem_sourcePaths hcwd hroot hpath).resolve hcwd

end

/-! ## §3. The folder that is searched. -/

/-- The folder in which the files of an addon are looked for: the one at its path if that has a
    manifest, and else the one above. -/
def searched (w : World) (path : String) : String :=
  if Manifest.names.any fun n => w.isFile (Path.join path n) then path else Path.dirname path

/-- The folder of an addon is the one that is searched, and has no wildcard if that has none. -/
theorem folder_searched (hcwd : Path.isAbsolute w.cwd) (path : String) :
    w.placeOf (Path.dirname (locate w path)) = w.placeOf (searched w path) ∧
      (Glob.hasWildcard (searched w path) = false →
      Glob.hasWildcard (Path.dirname (locate w path)) = false) := by
  unfold locate searched
  cases hfind : (names.map (Path.join path)).find? w.isFile with
  | none =>
    have hnone : (names.any fun n => w.isFile (Path.join path n)) = false := by
      rw [Bool.eq_false_iff]
      intro hany
      obtain ⟨n, hn, hfile⟩ := any_eq_true.mp hany
      exact find?_eq_none.mp hfind _ (mem_map_of_mem hn) hfile
    rw [hnone, if_neg Bool.false_ne_true]
    exact ⟨rfl, id⟩
  | some q =>
    obtain ⟨n, hn, rfl⟩ := mem_map.mp (mem_of_find?_eq_some hfind)
    have hany : (names.any fun n => w.isFile (Path.join path n)) :=
      any_eq_true.mpr ⟨n, hn, find?_some hfind⟩
    have hname : Path.IsName n := by
      simp only [names, mem_cons, not_mem_nil, or_false] at hn
      rcases hn with rfl | rfl
      · exact ⟨by decide, by decide, by decide⟩
      · exact ⟨by decide, by decide, by decide⟩
    rw [hany, if_pos rfl]
    refine ⟨?_, fun hnone => Glob.hasWildcard_dirname_join hnone hname⟩
    rw [World.placeOf_eq hcwd, World.placeOf_eq hcwd]
    exact congrArg Path.settle (Path.components_join_dirname_join w.cwd path hname)

theorem fromPath_of_load {c c' : Config} {release : Option String} {a : Addon}
    (h : (Addon.load c path release).verdict w = .ok (a, c')) : FromPath w c.settings path a := by
  have hbuilt : built w c path release = .ok a := by
    rw [← (leads_load w c path release).verdict_fst, h]
    rfl
  exact fromPath_of_built hbuilt

/-- **What is found lies below the folder that is searched**: every source file that a walk meets,
    and every message catalog if there is no wildcard in the path of that folder.  A source file
    whose declarations count lies below the folder too, unless the manifest names it as data. -/
theorem load_contained (hcwd : Path.isAbsolute w.cwd = true) (hroot : w.root.named = true)
    {c c' : Config} {path : String} {release : Option String} {a : Addon}
    (h : (Addon.load c path release).verdict w = .ok (a, c')) :
    (∀ ext, ∀ f ∈ Groups.get ext a.files,
      (f.sectionName = "python" → w.Below (searched w path) f.path) ∧
      (f.sectionName = "default" → Glob.hasWildcard (searched w path) = false →
        w.Below (searched w path) f.path)) ∧
    ∀ rs, a.readings w = .ok rs → ∀ r ∈ rs, w.Below (searched w path) r.1 ∨
      ∃ sectionName ∈ dataSections, ∃ item, Names a.manifest sectionName item ∧
        r.1 = w.resolve (Path.join a.folder (Path.normalize item)) := by
  have hpath := fromPath_of_load h
  obtain ⟨hplace, hwild⟩ := folder_searched hcwd path
  rw [← hpath.folder] at hplace hwild
  refine ⟨fun ext f hf => ?_, fun rs hrs r hr => ?_⟩
  · obtain ⟨hsource, hcatalog⟩ := (listed_of_filesOf hpath.files hf).below hcwd hroot
    exact ⟨fun heq => (hsource heq).of_place hplace,
      fun heq hnone => (hcatalog heq (hwild hnone)).of_place hplace⟩
  · obtain ⟨file, hfile, hread⟩ := mem_of_mapM_ok hrs hr
    obtain ⟨f, hf, rfl⟩ := List.mem_map.mp hfile
    obtain ⟨reading, -, heq⟩ := bind_ok_iff.mp hread
    obtain rfl := Except.ok.inj heq
    exact ((listed_of_filesOf hpath.files hf).below_or_names hcwd hroot rfl).imp_left
      (·.of_place hplace)

/-- An addon beside a folder that is none, with a source file in each. -/
def addonAndFolder : World where
  root := .folder [("w", .folder [
    ("m", .folder [
      ("__init__.py", .file ⟨#[]⟩),
      ("__manifest__.py", .file "\x7b\x7d".toUTF8),
      ("i18n", .folder [("de.po", .file ⟨#[]⟩)]),
      ("models", .folder [("a.py", .file "X = 1\n".toUTF8)])]),
    ("n", .folder [("b.py", .file "Y = 1\n".toUTF8)])])]

/-- Settings that leave out no path. -/
def nothingLeftOut : Config where
  settings := {
    scope := .null, baseBranch := .null, release := none, severities := defaultSeverities
    blocking := [.text "error"], disabled := [], skipLabel := [], skipHelp := [], skipDocstring :=
      []
    minDocstring := .int 10, excludes := .list [] }

/-- The catalog and the source file of the addon lie in its folder. -/
theorem load_contained_addonAndFolder :
    ∃ a c', (Addon.load nothingLeftOut "w/m" none).verdict addonAndFolder = .ok (a, c') ∧
      (Groups.get ".po" a.files).map (fun f => (f.path, f.sectionName))
        = [("/w/m/i18n/de.po", "default")] ∧
      addonAndFolder.Below "w/m" "/w/m/i18n/de.po" ∧
      ∃ rs, a.readings addonAndFolder = .ok rs ∧
        rs.map Prod.fst = ["/w/m/__init__.py", "/w/m/__manifest__.py", "/w/m/models/a.py"] ∧
        ∀ r ∈ rs, addonAndFolder.Below "w/m" r.1 ∨
          ∃ sectionName ∈ dataSections, ∃ item, Names a.manifest sectionName item ∧
            r.1 = addonAndFolder.resolve (Path.join a.folder (Path.normalize item)) := by
  obtain ⟨⟨a, c'⟩, hload, hdata⟩ :
      ∃ p, (Addon.load nothingLeftOut "w/m" none).verdict addonAndFolder = .ok p ∧
        ((Groups.get ".po" p.1.files).map (fun f => (f.path, f.sectionName)),
            ((p.1.readings addonAndFolder).toOption.map (·.map Prod.fst)))
          = ([("/w/m/i18n/de.po", "default")],
            some ["/w/m/__init__.py", "/w/m/__manifest__.py", "/w/m/models/a.py"]) :=
    Traversal.ok_of_toOption_map (by decide +kernel)
  obtain ⟨hcatalogs, hreadings⟩ := Prod.mk.inj hdata
  obtain ⟨rs, hrs, hfiles⟩ := Traversal.ok_of_toOption_map hreadings
  have hsearched : searched addonAndFolder "w/m" = "w/m" := by decide
  obtain ⟨hfound, hread⟩ :=
    load_contained (w := addonAndFolder) (by decide) (by decide) hload
  rw [hsearched] at hfound hread
  refine ⟨a, c', hload, hcatalogs, ?_, rs, hrs, hfiles, hread rs hrs⟩
  obtain ⟨f, hf, hpair⟩ : ∃ f ∈ Groups.get ".po" a.files,
      (f.path, f.sectionName) = ("/w/m/i18n/de.po", "default") :=
    List.mem_map.mp (by rw [hcatalogs]; exact List.mem_singleton.mpr rfl)
  obtain ⟨hpath, hsection⟩ := Prod.mk.inj hpair
  rw [← hpath]
  exact (hfound ".po" f hf).2 hsection (by decide)

/-- **A folder without a manifest**: the source files of the one beside it are found and read. -/
theorem load_escapes_addonAndFolder :
    ∃ a c', (Addon.load nothingLeftOut "w/n" none).verdict addonAndFolder = .ok (a, c') ∧
      (∃ f ∈ Groups.get ".py" a.files, f.sectionName = "python" ∧ f.path = "/w/m/models/a.py") ∧
      (∃ rs, a.readings addonAndFolder = .ok rs ∧ "/w/m/models/a.py" ∈ rs.map Prod.fst) ∧
      ¬ addonAndFolder.Below "w/n" "/w/m/models/a.py" := by
  obtain ⟨⟨a, c'⟩, hload, hdata⟩ :
      ∃ p, (Addon.load nothingLeftOut "w/n" none).verdict addonAndFolder = .ok p ∧
        (((Groups.get ".py" p.1.files).map (fun f => (f.sectionName, f.path))).contains
            ("python", "/w/m/models/a.py"),
            ((p.1.readings addonAndFolder).toOption.map fun rs =>
              (rs.map Prod.fst).contains "/w/m/models/a.py"))
          = (true, some true) :=
    Traversal.ok_of_toOption_map (by decide +kernel)
  obtain ⟨hfiles, hreadings⟩ := Prod.mk.inj hdata
  obtain ⟨rs, hrs, hread⟩ := Traversal.ok_of_toOption_map hreadings
  obtain ⟨f, hf, hpair⟩ := List.mem_map.mp (List.contains_iff_mem.mp hfiles)
  obtain ⟨hsection, hpath⟩ := Prod.mk.inj hpair
  refine ⟨a, c', hload, ⟨f, hf, hsection, hpath⟩, ⟨rs, hrs, List.contains_iff_mem.mp hread⟩, ?_⟩
  rintro ⟨ns, -, hplace⟩
  have hhere : addonAndFolder.placeOf "w/n" = ["w", "n"] := by decide
  have hthere : addonAndFolder.placeOf "/w/m/models/a.py" = ["w", "m", "models", "a.py"] := by
    decide
  rw [hhere, hthere] at hplace
  simp at hplace

end Addon

end AddonAudit
