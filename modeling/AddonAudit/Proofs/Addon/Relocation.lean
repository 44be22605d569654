/-
  AddonAudit.Proofs.Addon.Relocation — the files of an addon that is moved.

  What is picked from the tree of an addon is described without the place where the tree lies: the
  paths that the manifest names, the places of message catalogs and those of source files.  Put
  behind the path of the addon, this gives the files that are looked at.  Data files and source
  files are picked by what is in the tree alone.  But a catalog is left out or not by its path
  behind that of the addon, and its pattern is read behind that path, so that catalogs depend on the
  place.
-/
import AddonAudit.Proofs.Addon.Release

namespace AddonAudit

open List AddonAudit.Path Manifest World Except

/-! ## §1. What is picked. -/

namespace Addon

open Traversal (bind_ok_iff map_ok_iff mapM_map_ok filterM_congr filterM_map filterM_ok)

/-- What is picked from the tree of an addon, wherever that lies. -/
inductive Pick where
  /-- A path that a section of the manifest names. -/
  | data (sectionName path : String)
  /-- The place of a message catalog. -/
  | catalog (place : List String)
  /-- The place of a source file. -/
  | source (place : List String)
  deriving DecidableEq

namespace Pick

/-- The extension under which it is listed. -/
def extension : Pick → String
  | .data _ path => extensionOf path
  | .catalog place => extensionOf ("/".intercalate place)
  | .source _ => ".py"

/-- Its path inside the addon. -/
def inside : Pick → String
  | .data _ path => Path.normalize path
  | .catalog place => "/".intercalate place
  | .source place => "/".intercalate place

/-- The short path that is shown; that of a catalog is not short. -/
def short (folder : String) : Pick → String
  | .catalog place => Path.normalize (Path.under folder place)
  | x => x.inside

/-- The section under which it is listed. -/
def sectionName : Pick → String
  | .data sectionName _ => sectionName
  | .catalog _ => "default"
  | .source _ => "python"

/-- The file that is looked at if the addon lies in a folder. -/
def file (w : World) (folder : String) (x : Pick) : DataFile :=
  ⟨w.resolve (Path.join folder x.inside), x.short folder, x.sectionName⟩

/-- The file with its extension. -/
def named (w : World) (folder : String) (x : Pick) : Named := (x.extension, x.file w folder)

end Pick

/-- What an item of a section picks. -/
def dataPick? (s : Settings) (sectionName : String) (item : Datum) :
    Except Fault (Option Pick) := do
  let path ← pathText item
  if ← s.excludes? path then return none
  return some (.data sectionName path)

/-- What a manifest picks. -/
def dataPicks (s : Settings) (manifest : Datum) : Except Fault (List Pick) := do
  let found ← dataSections.mapM fun sectionName => do
    (← sectionItems manifest sectionName).mapM (dataPick? s sectionName)
  return found.flatten.filterMap id

/-- The components of the patterns of message catalogs. -/
def catalogParts : List (String × String) := [("i18n*", "*.po"), ("i18n*", "*.pot")]

/-- The places of the message catalogs in a tree. -/
def catalogPlaces (e : Entry) : List (List String) :=
  catalogParts.flatMap fun c => (e.covered c.1 true).flatMap fun k =>
    (((e.member? k).getD .empty).covered c.2 false).map fun x => [k, x]

/-- The message catalogs that are picked: those whose path behind that of the addon is not left
    out. -/
def catalogPicks (s : Settings) (folder : String) (e : Entry) : Except Fault (List Pick) := do
  let kept ← (catalogPlaces e).filterM fun place => do return !(← s.excludes?
    (Path.under folder place))
  return kept.map .catalog

/-- The places of the source files in a tree. -/
def sourcePlaces (e : Entry) : List (List String) :=
  e.filePlaces (fun n => !skippedFolders.contains n) (Text.endsWith · ".py")

/-- The source files that are picked: those whose path inside the addon is not left out. -/
def sourcePicks (s : Settings) (e : Entry) : Except Fault (List Pick) := do
  let kept ← (sourcePlaces e).filterM fun place => do return !(← s.excludes?
    ("/".intercalate place))
  return kept.map .source

variable {w : World} {s : Settings} {folder : String} {e : Entry}

/-! ### Picks behind a path -/

theorem dataFile?_eq (w : World) (s : Settings) (folder sectionName : String) (item : Datum) :
    dataFile? w s folder sectionName item = (dataPick? s sectionName item).map
    (Option.map (Pick.named w folder)) := by
  unfold dataFile? dataPick?
  cases pathText item with
  | error f => rfl
  | ok path =>
    show ((s.excludes? path).bind _ : Except Fault (Option Named)) =
      ((s.excludes? path).bind _).map _
    cases s.excludes? path with
    | error f => rfl
    | ok excluded => cases excluded <;> rfl

/-- **What a manifest names does not depend on the place of the addon.** -/
theorem dataFiles_eq (w : World) (s : Settings) (folder : String) (manifest : Datum) :
    dataFiles w s folder manifest = (dataPicks s manifest).map (map (Pick.named w folder)) := by
  have hsection : ∀ sectionName, (sectionItems manifest sectionName >>= fun items =>
        items.mapM (dataFile? w s folder sectionName))
      = (sectionItems manifest sectionName >>= fun items =>
        items.mapM (dataPick? s sectionName)).map
          (map (Option.map (Pick.named w folder))) := by
    intro sectionName
    cases sectionItems manifest sectionName with
    | error f => rfl
    | ok items =>
      show items.mapM (dataFile? w s folder sectionName) =
        (items.mapM (dataPick? s sectionName)).map _
      rw [funext (dataFile?_eq w s folder sectionName), mapM_map_ok]
  unfold dataFiles dataPicks
  rw [funext hsection, mapM_map_ok]
  cases dataSections.mapM fun sectionName =>
      sectionItems manifest sectionName >>= fun items => items.mapM (dataPick? s sectionName) with
  | error f => rfl
  | ok found =>
    show ok _ = ok _
    rw [← map_flatten, filterMap_map, map_filterMap]
    rfl

/-- **What a walk finds does not depend on the place of the addon.** -/
theorem sourceFiles_eq (hcwd : isAbsolute w.cwd) (h : w.find folder = .ok e) (he : e.named)
    (s : Settings) :
    sourceFiles w s folder = (sourcePicks s e).map (map (Pick.named w folder)) := by
  have hpaths : sourcePaths w folder = (sourcePlaces e).map (under folder) := by
    unfold sourcePaths
    rw [h]
    exact Entry.flatMap_walk he folder
  have hshort : ∀ place ∈ sourcePlaces e,
      relative w.cwd (under folder place) folder = "/".intercalate place := by
    intro place hplace
    obtain ⟨hne, hplain, -⟩ := Entry.plain_of_mem_filePlaces he place hplace
    exact relative_under hcwd folder (fun n hn => isPlain_iff.mp (hplain n hn)) hne
  unfold sourceFiles sourcePicks
  dsimp only
  rw [hpaths, filterM_map,
    filterM_congr (g := fun place => do return !(← s.excludes? ("/".intercalate place)))
    fun place hplace => by rw [hshort place hplace]]
  cases hkept : (sourcePlaces e).filterM fun place => do return !(← s.excludes?
    ("/".intercalate place)) with
  | error f => rfl
  | ok kept =>
    show ok _ = ok _
    rw [map_map, map_map]
    refine congrArg _ (map_congr_left fun place hplace => ?_)
    have hmem := ((filterM_ok hkept).2 place).mp hplace
    show (".py", (⟨_, relative w.cwd (under folder place) folder, _⟩ : DataFile)) = _
    rw [hshort place hmem.1]
    rfl

theorem catalogParts_wild : ∀ c ∈ catalogParts, isPlain c.1 ∧ isPlain c.2 ∧
    Glob.hasWildcard c.1 ∧ Glob.hasWildcard c.2 := by decide

theorem catalogPatterns_parts : catalogPatterns = catalogParts.map fun c => c.1 ++ "/" ++ c.2 := by
  decide

/-- A catalog lies in a folder of the addon. -/
theorem mem_catalogPlaces (he : e.named) {place : List String} (h : place ∈ catalogPlaces e) :
    ∃ k x, place = [k, x] ∧ IsName k ∧ IsName x := by
  obtain ⟨c, -, h⟩ := mem_flatMap.mp h
  obtain ⟨k, hk, h⟩ := mem_flatMap.mp h
  obtain ⟨x, hx, rfl⟩ := mem_map.mp h
  have hplain := Entry.isPlain_of_mem_members he (mem_filter.mp hk).1
  refine ⟨k, x, rfl, (isPlain_iff.mp hplain).1, ?_⟩
  cases hm : e.member? k with
  | none =>
    rw [hm] at hx
    cases hx
  | some m =>
    rw [hm] at hx
    have hx := Entry.isPlain_of_mem_members (Entry.named_member? he hm) (mem_filter.mp hx).1
    exact (isPlain_iff.mp hx).1

/-- The extension is that of the name. -/
theorem extensionOf_eq {p q : String} (h : basename p = basename q) :
    extensionOf p = extensionOf q := by
  unfold extensionOf splitSuffix
  dsimp only
  rw [h]
  cases Text.cutLast? '.' (basename q).toList with
  | none => rfl
  | some cut =>
    obtain ⟨stem, ext⟩ := cut
    dsimp only
    split <;> rfl

/-- **How catalogs depend on the place of the addon**, if there is no wildcard in its path. -/
theorem catalogFiles_eq (h : w.find folder = .ok e) (he : e.named) (hbare : bare folder = folder)
    (hplain : Glob.hasWildcard folder = false) (s : Settings) :
    catalogFiles w s folder = (catalogPicks s folder e).map (map (Pick.named w folder)) := by
  -- the patterns find the same places wherever the folder is
  have hpaths : (catalogPatterns.flatMap fun p => Glob.paths w (join folder p))
      = (catalogPlaces e).map (under folder) := by
    rw [catalogPatterns_parts, flatMap_map]
    unfold catalogPlaces
    rw [map_flatMap]
    refine flatMap_congr fun c hc => ?_
    obtain ⟨hm, hn, hwildm, hwildn⟩ := catalogParts_wild c hc
    rw [Glob.paths_join h he hbare hplain (isPlain_iff.mp hm).1 (isPlain_iff.mp hn).1 hwildm hwildn]
    simp only [map_flatMap, map_map, Function.comp_def]
  unfold catalogFiles catalogPicks
  dsimp only
  rw [hpaths, filterM_map]
  cases hkept : (catalogPlaces e).filterM fun place => do return !(← s.excludes?
    (under folder place)) with
  | error f => rfl
  | ok kept =>
    show ok _ = ok _
    rw [map_map, map_map]
    refine congrArg _ (map_congr_left fun place hplace => ?_)
    have hmem := ((filterM_ok hkept).2 place).mp hplace
    obtain ⟨k, x, rfl, hk, hx⟩ := mem_catalogPlaces he hmem.1
    have hname : basename (under folder [k, x]) = basename ("/".intercalate [k, x]) := by
      unfold under
      rw [String.intercalate_cons_cons, String.intercalate_singleton, basename_slash _ hx.no_slash,
        basename_join_slash folder hk hx]
    show (extensionOf (under folder [k, x]), _) = _
    rw [extensionOf_eq hname]
    rfl

/-! ## §2. The manifest in a tree. -/

/-- Whether a tree has a file of a name. -/
def holdsFile (e : Entry) (n : String) : Bool := (e.member? n).any Entry.isFile

/-- What the bytes of a manifest hold. -/
def manifestOf (bytes : ByteArray) : Except Fault Datum := do
  Source.readLiteral (String.ofList (Text.unifyNewlines (← World.decode bytes)))

/-- The manifest in a tree; one that cannot be read, or is not in a package, is empty. -/
def manifestIn (e : Entry) : Datum :=
  match (Manifest.names.find? (holdsFile e)).bind e.member? with
  | some (.file bytes) =>
    if holdsFile e Manifest.packageFile then (manifestOf bytes).toOption.getD
      (.table []) else .table []
  | _ => .table []

/-- The tree of an addon lies at a path. -/
structure Lies (w : World) (path : String) (e : Entry) : Prop where
  cwd : Path.isAbsolute w.cwd = true
  found : w.find path = .ok e
  named : e.named = true
  /-- It has a manifest. -/
  manifest : Manifest.names.any (holdsFile e) = true

variable {path : String}

theorem names_plain : ∀ n ∈ names, isPlain n := by decide

theorem packageFile_plain : isPlain packageFile := by decide

theorem Lies.isFolder (h : Lies w path e) : e.isFolder := by
  obtain ⟨n, -, hn⟩ := any_eq_true.mp h.manifest
  cases e with
  | file b => cases hn
  | folder ms => rfl

theorem Lies.found_bare (h : Lies w path e) : w.find (bare path) = .ok e :=
  find_bare h.found h.isFolder

/-- Where the manifest is found. -/
theorem Lies.locate (h : Lies w path e) : ∃ n ∈ names, ∃ bytes,
    names.find? (holdsFile e) = some n ∧ e.member? n = some (.file bytes) ∧
    locate w path = join path n := by
  have hfiles : names.find? (w.isFile ∘ join path) = names.find? (holdsFile e) := by
    rw [← head?_filter, ← head?_filter]
    exact congrArg head? (filter_congr fun n hn => isFile_join h.found (names_plain n hn))
  cases hfind : names.find? (holdsFile e) with
  | none =>
    obtain ⟨n, hn, hfile⟩ := any_eq_true.mp h.manifest
    exact absurd hfile (find?_eq_none.mp hfind n hn)
  | some n =>
    have hholds : holdsFile e n := find?_some hfind
    obtain ⟨m, hm, hfile⟩ := (Option.any_eq_true _ _).mp hholds
    cases m with
    | folder ms => cases hfile
    | file bytes =>
      refine ⟨n, mem_of_find?_eq_some hfind, bytes, rfl, hm, ?_⟩
      unfold Manifest.locate
      rw [find?_map, hfiles, hfind]
      rfl

/-- **The folder of an addon is the one at its path, and its manifest is that of the tree.** -/
theorem Lies.manifestAt (h : Lies w path e) :
    Path.dirname (Manifest.locate w path) = Path.bare path ∧
    Addon.manifestAt w path = manifestIn e := by
  obtain ⟨n, hn, bytes, hfind, hmember, hlocate⟩ := h.locate
  have hname := (isPlain_iff.mp (names_plain n hn)).1
  have hfolder := dirname_join path hname
  have hfile : w.find (join path n) = .ok (.file bytes) :=
    (find_join h.found (names_plain n hn) _).mpr hmember
  -- the manifest is a file of one of the names, so that it counts if the folder is a package
  have hcounts : counts w (join path n) = holdsFile e packageFile := by
    unfold counts
    rw [basename_join path hname, contains_iff_mem.mpr hn, hfolder,
      isFile_join h.found_bare packageFile_plain, isFile, hfile]
    rfl
  have hread : (do Source.readLiteral (← w.readText (join path n)) : Except Fault Datum)
      = manifestOf bytes := by
    unfold readText readBytes manifestOf
    rw [hfile]
    show ((decode bytes).bind _).bind _ = (decode bytes).bind _
    cases decode bytes <;> rfl
  refine ⟨by rw [hlocate, hfolder], ?_⟩
  unfold Addon.manifestAt Manifest.read manifestIn
  rw [hlocate, hcounts, hread, hfind, Option.bind_some, hmember]
  dsimp only
  cases holdsFile e packageFile with
  | false => rfl
  | true => cases manifestOf bytes <;> rfl

/-! ## §3. Files behind a path. -/

/-- The files that are looked at for the addon at a path, by extension. -/
def filesAt (w : World) (s : Settings) (path : String) : Except Fault (Groups String DataFile) :=
  filesOf w s (Path.dirname (Manifest.locate w path)) (Addon.manifestAt w path)

theorem filesAt_of_load {c c' : Config} {release : Option String} {a : Addon}
    (h : (Addon.load c path release).verdict w = .ok (a, c')) :
    filesAt w c.settings path = .ok a.files := by
  have hpath := fromPath_of_load h
  have hfiles := hpath.files
  rw [hpath.folder, hpath.manifest] at hfiles
  exact hfiles

/-- Files by extension. -/
def grouped (found : List Named) : Groups String DataFile :=
  found.foldl (fun groups (ext, f) => Groups.add ext f groups) []

/-- The files of what is picked, behind a path. -/
def placed (w : World) (folder : String) (picks : List Pick) : Groups String DataFile :=
  grouped (picks.map (Pick.named w folder))

/-- What is picked from the tree of an addon whose path is that of a folder. -/
def picks (s : Settings) (folder : String) (e : Entry) : Except Fault (List Pick) := do
  let data ← dataPicks s (manifestIn e)
  let catalogs ← catalogPicks s folder e
  let sources ← sourcePicks s e
  return data ++ catalogs ++ sources

/-- Data files and source files behind a path, with catalogs however these were found. -/
def gathered (w : World) (s : Settings) (folder : String) (e : Entry)
    (catalogs : Except Fault (List Named)) : Except Fault (Groups String DataFile) := do
  let data ← dataPicks s (manifestIn e)
  let catalogs ← catalogs
  let sources ← sourcePicks s e
  return grouped (data.map (Pick.named w folder) ++ catalogs ++ sources.map (Pick.named w folder))

/-- Only the catalogs depend on the place. -/
theorem filesAt_gathered (h : Lies w path e) (s : Settings) :
    filesAt w s path = gathered w s (bare path) e (catalogFiles w s (bare path)) := by
  obtain ⟨hfolder, hmanifest⟩ := h.manifestAt
  unfold filesAt filesOf gathered
  rw [hfolder, hmanifest, dataFiles_eq, sourceFiles_eq h.cwd h.found_bare h.named]
  cases dataPicks s (manifestIn e) with
  | error f => rfl
  | ok data =>
    cases catalogFiles w s (bare path) with
    | error f => rfl
    | ok catalogs => cases sourcePicks s e <;> rfl

/-- And those only by what is left out, if there is no wildcard in the path. -/
theorem filesAt_placed (h : Lies w path e) (hplain : Glob.hasWildcard path = false) (s : Settings) :
    filesAt w s path = (picks s (bare path) e).map (placed w (bare path)) := by
  have hname : IsName "a" := ⟨by decide, by decide, by decide⟩
  have hbare : Glob.hasWildcard (bare path) = false := by
    rw [← dirname_join path hname]
    exact Glob.hasWildcard_dirname_join hplain hname
  rw [filesAt_gathered h, catalogFiles_eq h.found_bare h.named (bare_bare path) hbare]
  unfold gathered picks placed
  cases dataPicks s (manifestIn e) with
  | error f => rfl
  | ok data =>
    cases catalogPicks s (bare path) e with
    | error f => rfl
    | ok catalogs =>
      cases sourcePicks s e with
      | error f => rfl
      | ok sources =>
        show ok _ = ok _
        simp only [map_append]

/-! ## §4. The same tree at two places. -/

/-- The settings leave out the same catalogs of a tree behind two paths, and fault alike. -/
def LeftOutAlike (s : Settings) (e : Entry) (folder folder' : String) : Prop :=
  ∀ place ∈ catalogPlaces e, s.excludes? (Path.under folder place) =
    s.excludes? (Path.under folder' place)

theorem picks_of_leftOutAlike {folder' : String} (h : LeftOutAlike s e folder folder') :
    picks s folder e = picks s folder' e := by
  have hcatalogs : catalogPicks s folder e = catalogPicks s folder' e := by
    unfold catalogPicks
    rw [filterM_congr fun place hplace => by rw [h place hplace]]
  unfold picks
  rw [hcatalogs]

theorem data_of_mem_dataPicks {manifest : Datum} {l : List Pick} (h : dataPicks s manifest = .ok l)
    {x : Pick} (hx : x ∈ l) : ∃ sectionName path, x = .data sectionName path := by
  obtain ⟨found, hfound, heq⟩ := bind_ok_iff.mp h
  obtain rfl := ok.inj heq
  obtain ⟨o, ho, rfl⟩ := mem_filterMap.mp hx
  obtain ⟨part, hpart, ho⟩ := mem_flatten.mp ho
  obtain ⟨sectionName, -, hpart⟩ := Traversal.mem_of_mapM_ok hfound hpart
  obtain ⟨items, -, hitems⟩ := bind_ok_iff.mp hpart
  obtain ⟨item, -, hitem⟩ := Traversal.mem_of_mapM_ok hitems ho
  obtain ⟨path, -, hitem⟩ := bind_ok_iff.mp hitem
  obtain ⟨excluded, -, hitem⟩ := bind_ok_iff.mp hitem
  cases excluded with
  | true => cases hitem
  | false => exact ⟨sectionName, path, (Option.some.inj (ok.inj hitem)).symm⟩

/-- **Which catalogs are picked**: exactly those whose path behind that of the addon is not left
    out. -/
theorem catalog_mem_picks {l : List Pick} (h : picks s folder e = .ok l) {place : List String}
    (hplace : place ∈ catalogPlaces e) :
    ∃ b, s.excludes? (under folder place) = .ok b ∧ (.catalog place ∈ l ↔ b = false) := by
  obtain ⟨data, hdata, h⟩ := bind_ok_iff.mp h
  obtain ⟨catalogs, hcatalogs, h⟩ := bind_ok_iff.mp h
  obtain ⟨sources, hsources, heq⟩ := bind_ok_iff.mp h
  obtain rfl := ok.inj heq
  obtain ⟨kept, hkept, heq⟩ := bind_ok_iff.mp hcatalogs
  obtain rfl := ok.inj heq
  obtain ⟨found, -, heq⟩ := bind_ok_iff.mp hsources
  obtain rfl := ok.inj heq
  obtain ⟨hasked, hmem⟩ := filterM_ok hkept
  obtain ⟨b, hb⟩ := hasked place hplace
  obtain ⟨excluded, hexcluded, -⟩ := bind_ok_iff.mp hb
  refine ⟨excluded, hexcluded, ?_⟩
  -- the other picks are none of catalogs
  have hnone : Pick.catalog place ∉ data := fun hx => by
    obtain ⟨sectionName, path, heq⟩ := data_of_mem_dataPicks hdata hx
    cases heq
  have hkept : place ∈ kept ↔ excluded = false := by
    rw [hmem, hexcluded, and_iff_right hplace]
    show ok (!excluded) = ok true ↔ excluded = false
    simp
  simp [hnone, hkept]

/-- What the files of the addon at a path are made of. -/
structure Selects (w : World) (s : Settings) (path : String) (e : Entry) : Prop where
  /-- They are the files of every addon that is loaded from there. -/
  loaded : ∀ {c c' : Config} {release : Option String} {a : Addon}, c.settings = s →
    (Addon.load c path release).verdict w = .ok (a, c') → filesAt w s path = .ok a.files
  /-- Data files and source files are picked from the tree. -/
  gathered : filesAt w s path = gathered w s (Path.bare path) e (catalogFiles w s (Path.bare path))
  /-- So are catalogs, if there is no wildcard in the path. -/
  placed : Glob.hasWildcard path = false →
    filesAt w s path = (picks s (Path.bare path) e).map (placed w (Path.bare path))

theorem Lies.selects (h : Lies w path e) (s : Settings) : Selects w s path e where
  loaded := by
    rintro c c' release a rfl hload
    exact filesAt_of_load hload
  gathered := filesAt_gathered h s
  placed := fun hplain => filesAt_placed h hplain s

/-- **The same tree at two places.**  Data files and source files are picked from the tree alone.
    All that is picked is the same at both places, extension by extension, exactly if the settings
    leave out the same catalogs behind the two paths. -/
theorem filesAt_moved {w' : World} {path' : String} (h : Lies w path e) (h' : Lies w' path' e)
    (s : Settings) : Selects w s path e ∧ Selects w' s path' e ∧
    (LeftOutAlike s e (Path.bare path) (Path.bare path') →
      picks s (Path.bare path) e = picks s (Path.bare path') e) ∧
    ∀ l l', picks s (Path.bare path) e = .ok l → picks s (Path.bare path') e = .ok l' →
      ((∀ ext, l.filter (·.extension == ext) = l'.filter (·.extension == ext)) ↔
        LeftOutAlike s e (Path.bare path) (Path.bare path')) := by
  refine ⟨h.selects s, h'.selects s, picks_of_leftOutAlike, fun l l' hl hl' => ?_⟩
  constructor
  · intro hsame place hplace
    obtain ⟨b, hb, hmem⟩ := catalog_mem_picks hl hplace
    obtain ⟨b', hb', hmem'⟩ := catalog_mem_picks hl' hplace
    -- the catalog is listed under its own extension at both places or at none
    have hboth : Pick.catalog place ∈ l ↔ .catalog place ∈ l' := by
      have hin := congrArg (Pick.catalog place ∈ ·) (hsame (Pick.catalog place).extension)
      simpa using hin
    rw [hmem, hmem'] at hboth
    have heq : b = b' := by
      cases b <;> cases b' <;> simp_all
    rw [hb, hb', heq]
  · intro halike ext
    rw [picks_of_leftOutAlike halike, hl'] at hl
    rw [Except.ok.inj hl]

/-- The tree of an addon with a catalog. -/
def withCatalog : Entry := .folder [
  ("__init__.py", .file ⟨#[]⟩),
  ("__manifest__.py", .file "\x7b'data': ['views/a.xml']\x7d".toUTF8),
  ("i18n", .folder [("fr.po", .file ⟨#[]⟩)]),
  ("models", .folder [("a.py", .file ⟨#[]⟩)])]

/-- A world with nothing but the tree at a place. -/
def lyingAt (place : List String) : World where
  root := place.foldr (fun n e => .folder [(n, e)]) withCatalog

theorem lies_lyingAt {place : List String} {path : String}
    (h : (lyingAt place).find path = .ok withCatalog) : Lies (lyingAt place) path withCatalog :=
  ⟨show isAbsolute "/" by decide, h, by decide, by decide⟩

/-- What is picked from the tree, with catalogs at some places. -/
def picksWith (catalogs : List (List String)) : List Pick :=
  .data "data" "views/a.xml" :: catalogs.map .catalog ++
    [.source ["__init__.py"], .source ["__manifest__.py"], .source ["models", "a.py"]]

theorem picks_withCatalog : ∃ s, Settings.ofDatum (.table []) = .ok s ∧
    picks s "/x/m" withCatalog = .ok (picksWith [["i18n", "fr.po"]]) ∧
    picks s "/y/n" withCatalog = .ok (picksWith [["i18n", "fr.po"]]) ∧
    picks s "/x/tests/m" withCatalog = .ok (picksWith []) := by
  obtain ⟨⟨s, l⟩, h, hl⟩ :
      ∃ x, ((Settings.ofDatum (.table [])).bind fun s =>
          (["/x/m", "/y/n", "/x/tests/m"].mapM (picks s · withCatalog)).map fun l =>
            (s, l)) = .ok x ∧
        x.2 = [picksWith [["i18n", "fr.po"]], picksWith [["i18n", "fr.po"]], picksWith []] :=
    Traversal.ok_of_toOption_map (by decide +kernel)
  obtain ⟨s', hs, h⟩ := bind_ok_iff.mp h
  obtain ⟨l', hl', heq⟩ := map_ok_iff.mp h
  cases heq
  cases hl
  have hall := Traversal.mapM_ok_iff.mp hl'
  simp only [forall₂_cons] at hall
  exact ⟨s, hs, hall.1, hall.2.1, hall.2.2.1⟩

/-- At two places that the default settings treat alike, the same is picked. -/
theorem filesAt_moved_withCatalog : ∃ s, Settings.ofDatum (.table []) = .ok s ∧
    Lies (lyingAt ["x", "m"]) "/x/m" withCatalog ∧ Lies (lyingAt ["y", "n"]) "/y/n/" withCatalog ∧
    LeftOutAlike s withCatalog "/x/m" "/y/n" ∧ filesAt (lyingAt ["x", "m"]) s "/x/m"
      = .ok (placed (lyingAt ["x", "m"]) "/x/m" (picksWith [["i18n", "fr.po"]])) ∧
    filesAt (lyingAt ["y", "n"]) s "/y/n/"
      = .ok (placed (lyingAt ["y", "n"]) "/y/n" (picksWith [["i18n", "fr.po"]])) := by
  obtain ⟨s, hs, hpicks, hpicks', -⟩ := picks_withCatalog
  have hlies : Lies (lyingAt ["x", "m"]) "/x/m" withCatalog := lies_lyingAt rfl
  have hlies' : Lies (lyingAt ["y", "n"]) "/y/n/" withCatalog := lies_lyingAt rfl
  have hbare : Path.bare "/x/m" = "/x/m" := by decide
  have hbare' : Path.bare "/y/n/" = "/y/n" := by decide
  obtain ⟨hselects, hselects', -, halike⟩ := filesAt_moved hlies hlies' s
  have hfiles := hselects.placed (by decide)
  have hfiles' := hselects'.placed (by decide)
  rw [hbare, hbare'] at halike
  rw [hbare, hpicks] at hfiles
  rw [hbare', hpicks'] at hfiles'
  exact ⟨s, hs, hlies, hlies', (halike _ _ hpicks hpicks').mp fun _ => rfl, hfiles, hfiles'⟩

/-- **A catalog is lost on a move** into a folder whose name the default settings leave out, and
    into one whose name holds a wildcard. -/
theorem filesAt_loses_catalog : ∃ s found found', Settings.ofDatum (.table []) = .ok s ∧
    filesAt (lyingAt ["x", "m"]) s "/x/m" = .ok found ∧
    filesAt (lyingAt ["x", "tests", "m"]) s "/x/tests/m" = .ok found' ∧
    (Groups.get ".po" found).map (·.path) = ["/x/m/i18n/fr.po"] ∧
    (Groups.get ".po" found').length = 0 ∧
    catalogFiles (lyingAt ["x[1]", "m"]) s "/x[1]/m" = .ok [] := by
  obtain ⟨s, hs, hpicks, -, hpicks'⟩ := picks_withCatalog
  have hlies : Lies (lyingAt ["x", "m"]) "/x/m" withCatalog := lies_lyingAt rfl
  have hlies' : Lies (lyingAt ["x", "tests", "m"]) "/x/tests/m" withCatalog := lies_lyingAt rfl
  have hfiles := filesAt_placed hlies (by decide) s
  have hfiles' := filesAt_placed hlies' (by decide) s
  rw [show Path.bare "/x/m" = "/x/m" by decide, hpicks] at hfiles
  rw [show Path.bare "/x/tests/m" = "/x/tests/m" by decide, hpicks'] at hfiles'
  have hnone : (catalogPatterns.flatMap fun p =>
    Glob.paths (lyingAt ["x[1]", "m"]) (Path.join "/x[1]/m" p))
      = [] := by decide +kernel
  refine ⟨s, _, _, hs, hfiles, hfiles', by decide +kernel, by decide +kernel, ?_⟩
  unfold catalogFiles
  rw [hnone]
  rfl

end Addon

end AddonAudit
