/-
  AddonAudit.Proofs.Addon.Exclusion — folders that are left out by default.

  The default settings name five folders, each by a pattern with a slash on both sides.  So a path
  is left out if it has such a folder behind another component; one that starts with the folder is
  not.  The walk through source files does not enter three of the folders, wherever they are.
-/
import AddonAudit.Proofs.Addon.Containment

namespace AddonAudit

open List Groups World

/-! ## §1. The default patterns. -/

/-- The folders that the default settings name. -/
def leftOutFolders : List String := ["migrations", "tests", "static", "__pycache__", "node_modules"]

namespace Wildcard

theorem accept_run_append {ps : List Piece} {b : List Char} (h : accept ps b) (a : List Char) :
    accept (.run :: ps) (a ++ b) := by
  induction a with
  | nil =>
    cases b with
    | nil => rwa [nil_append, accept]
    | cons c b => rw [nil_append, accept, h, Bool.true_or]
  | cons c a ih => rw [cons_append, accept, ih, Bool.or_true]

theorem accept_chars_append (s b : List Char) (ps : List Piece) :
    accept (s.map .char ++ ps) (s ++ b) = accept ps b := by
  induction s with
  | nil => rfl
  | cons c s ih =>
    rw [map_cons, cons_append, cons_append, accept]
    · rw [Piece.accepts, beq_self_eq_true, Bool.true_and, ih]
    · exact fun h => by cases h

/-- A pattern that names a folder between stars covers every path with the folder between
    slashes. -/
theorem covers_of_infix {n path : String} (hn : n ∈ leftOutFolders)
    (h : ("/" ++ n ++ "/").toList <:+: path.toList) : covers ("**/" ++ n ++ "/**") path := by
  obtain ⟨a, b, hpath⟩ := h
  have hpieces : piecesOf (("**/" ++ n ++ "/**").length + 1) ("**/" ++ n ++ "/**").toList
      = .run :: .run :: (("/" ++ n ++ "/").toList.map .char ++ [.run, .run]) := by
    simp only [leftOutFolders, mem_cons, not_mem_nil, or_false] at hn
    rcases hn with rfl | rfl | rfl | rfl | rfl <;> rfl
  have hend : accept [.run, .run] b := by
    have hstars := accept_run_append (show accept [.run] [] by simp [accept]) b
    rwa [append_nil] at hstars
  unfold covers
  rw [hpieces, ← hpath, append_assoc]
  refine accept_run_append (accept_run_append ?_ []) a
  exact (accept_chars_append _ b _).trans hend

end Wildcard

namespace Settings

theorem anyCovers_textData (path : String) (ps : List String) :
    anyCovers path (textData ps) = .ok (ps.any (Wildcard.covers · path)) := by
  induction ps with
  | nil => rfl
  | cons p ps ih =>
    show (if Wildcard.covers p path then .ok true else anyCovers path (textData ps)) = _
    rw [ih, any_cons]
    cases Wildcard.covers p path <;> rfl

theorem excludes?_textData {s : Settings} {ps : List String} (hs : s.excludes = .list (textData ps))
    (path : String) : s.excludes? path = .ok (ps.any (Wildcard.covers · path)) := by
  unfold excludes?
  rw [hs]
  exact anyCovers_textData path ps

/-- **The default patterns leave out a path with one of their folders between slashes.** -/
theorem excludes?_of_infix {s : Settings} (hs : s.excludes = .list (textData defaultExcludes))
    {n path : String} (hn : n ∈ leftOutFolders) (h : ("/" ++ n ++ "/").toList <:+: path.toList) :
    s.excludes? path = .ok true := by
  have hpatterns : defaultExcludes = leftOutFolders.map fun n => "**/" ++ n ++ "/**" := by decide
  rw [excludes?_textData hs, hpatterns, any_map]
  exact congrArg _ (any_eq_true.mpr ⟨n, hn, Wildcard.covers_of_infix hn h⟩)

end Settings

/-! ## §2. Components between slashes. -/

theorem Text.splitWhere_eq_cons {p : Char → Bool} {cs piece : List Char} :
    ∀ {rest : List (List Char)}, splitWhere p cs = piece :: rest → rest ≠ [] → ∃ c cs', p c ∧
    cs = piece ++ c :: cs' ∧ splitWhere p cs' = rest := by
  induction cs generalizing piece with
  | nil =>
    intro rest h hne
    cases h
    exact absurd rfl hne
  | cons c cs ih =>
    intro rest h hne
    rw [splitWhere] at h
    split at h
    · rename_i hc
      cases h
      exact ⟨c, cs, hc, rfl, rfl⟩
    · split at h
      · rename_i first others heq
        cases h
        obtain ⟨d, cs', hd, rfl, hrest⟩ := ih heq hne
        exact ⟨d, cs', hd, rfl, hrest⟩
      · cases h
        exact absurd rfl hne

namespace Path

/-- A piece with more behind it is followed by a slash. -/
theorem eq_of_pieces_cons {p n : String} {rest : List String} (h : pieces p = n :: rest)
    (hrest : rest ≠ []) : ∃ q, p = n ++ "/" ++ q ∧ pieces q = rest := by
  unfold pieces Text.splitAt at h
  obtain ⟨piece, others, hsplit, rfl, rfl⟩ := map_eq_cons_iff.mp h
  obtain ⟨c, cs, hc, hp, rfl⟩ := Text.splitWhere_eq_cons hsplit (by simpa using hrest)
  refine ⟨String.ofList cs, ?_, by rw [pieces, Text.splitAt, String.toList_ofList]⟩
  apply String.toList_inj.mp
  rw [hp, beq_iff_eq.mp hc]
  simp [String.toList_append]

/-- A piece between others stands between slashes. -/
theorem infix_of_pieces {n : String} {b : List String} (hb : b ≠ []) :
    ∀ {a : List String} {p : String}, pieces p = a ++ n :: b → a ≠ [] →
    ("/" ++ n ++ "/").toList <:+: p.toList := by
  intro a
  induction a with
  | nil => exact fun _ hne => absurd rfl hne
  | cons m a ih =>
    intro p h _
    obtain ⟨q, rfl, hq⟩ := eq_of_pieces_cons h (by simp)
    cases a with
    | nil =>
      obtain ⟨r, rfl, -⟩ := eq_of_pieces_cons hq hb
      exact ⟨m.toList, r.toList, by simp [String.toList_append]⟩
    | cons k a =>
      refine (ih hq (cons_ne_nil k a)).trans ⟨(m ++ "/").toList, [], ?_⟩
      rw [append_nil, ← String.toList_append]

/-- A stack of components is made of those that were pushed. -/
theorem foldl_pushComponent_sublist (absolute : Bool) (ns : List String) : ∀ (stack : List String)
    {seen : List String}, stack.reverse.Sublist seen →
      (ns.foldl (pushComponent absolute) stack).reverse.Sublist (seen ++ ns) := by
  induction ns with
  | nil => exact fun stack seen h => by rwa [append_nil]
  | cons n ns ih =>
    intro stack seen h
    rw [append_cons]
    refine ih _ ?_
    have hkeep : (n :: stack).reverse.Sublist (seen ++ [n]) := by
      rw [reverse_cons]
      exact h.append_right [n]
    unfold pushComponent
    split
    · rename_i hup
      rw [beq_iff_eq.mp hup] at hkeep ⊢
      split
      · split
        · exact nil_sublist _
        · exact hkeep
      · split
        · exact hkeep
        · rename_i top rest _
          exact ((sublist_cons_self top rest).reverse.trans h).trans (sublist_append_left _ _)
    · exact hkeep

theorem components_normalize_sublist (p : String) :
    (components (normalize p)).Sublist (components p) := by
  have hparts := foldl_pushComponent_sublist (rootOf p != "") (components p) [] (nil_sublist [])
  rw [nil_append] at hparts
  unfold normalize
  dsimp only
  split
  · exact (show components "." = [] by decide +kernel) ▸ nil_sublist _
  · rwa [components_rootOf_append, components_intercalate]
    exact fun n hn => isName_of_mem_components (hparts.subset hn)

theorem settle_concat_up (ns : List String) : settle (ns ++ [".."]) = (settle ns).dropLast := by
  have hmem := mem_foldl_pushComponent ns [] (by simp)
  unfold settle
  rw [foldl_append]
  cases hstack : ns.foldl (pushComponent true) [] with
  | nil => rfl
  | cons top rest =>
    rw [hstack] at hmem
    show (pushComponent true (top :: rest) "..").reverse = _
    rw [pushComponent_up (hmem top mem_cons_self).1, reverse_cons, dropLast_concat]

/-- What names lead to below a place is made of these names. -/
theorem sublist_of_settle_append {ms : List String} (ns : List String) : ∀ {ps : List String},
    settle (ms ++ ns) = settle ms ++ ps → ps.Sublist ns := by
  -- from the end, where the last name either leaves a folder or enters one
  induction ns using reverseRecOn with
  | nil =>
    intro ps h
    rw [append_nil] at h
    rw [self_eq_append_right.mp h]
  | append_singleton ns n ih =>
    intro ps h
    rw [← append_assoc] at h
    by_cases hup : n = ".."
    · rw [hup, settle_concat_up] at h
      rcases eq_nil_or_concat (settle (ms ++ ns)) with hnil | ⟨front, last, hlast⟩
      · rw [hnil] at h
        rw [(append_eq_nil_iff.mp h.symm).2]
        exact nil_sublist _
      · rw [hlast, concat_eq_append, dropLast_concat] at h
        have hall : (ps ++ [last]).Sublist ns :=
          ih (by rw [hlast, h, concat_eq_append, append_assoc])
        exact ((sublist_append_left ps [last]).trans hall).trans (sublist_append_left ns [n])
    · rw [settle_append (by simpa using Ne.symm hup)] at h
      rcases eq_nil_or_concat ps with rfl | ⟨front, last, rfl⟩
      · exact nil_sublist _
      · rw [concat_eq_append, ← append_assoc] at h
        obtain ⟨hfront, hlast⟩ := append_inj' h rfl
        rw [concat_eq_append, ← hlast]
        exact (ih hfront).append_right [n]

/-- Names lead as far down from one place as from another of the same depth. -/
theorem length_settle_append (ns : List String) : ∀ {ms ms' : List String},
    (settle ms).length = (settle ms').length →
    (settle (ms ++ ns)).length = (settle (ms' ++ ns)).length := by
  induction ns with
  | nil => exact fun h => by rwa [append_nil, append_nil]
  | cons n ns ih =>
    intro ms ms' h
    rw [append_cons, append_cons ms']
    refine ih ?_
    by_cases hup : n = ".."
    · rw [hup, settle_concat_up, settle_concat_up, length_dropLast, length_dropLast, h]
    · have hname : ".." ∉ [n] := by simpa using Ne.symm hup
      rw [settle_append hname, settle_append hname, length_append, length_append, h]

end Path

/-- **The place of a path inside a folder is made of its components.** -/
theorem World.sublist_of_placeOf_join {w : World} (hcwd : Path.isAbsolute w.cwd) {a b : String}
    {ps : List String} (h : w.placeOf (Path.join a b) = w.placeOf a ++ ps) :
    ps.Sublist (Path.components b) := by
  rw [placeOf_eq hcwd, placeOf_eq hcwd] at h
  cases hb : Path.isAbsolute b with
  | true =>
    rw [Path.join_of_isAbsolute hb, Path.join_of_isAbsolute hb] at h
    have hsettled := @Path.sublist_of_settle_append [] (Path.components b)
      (Path.settle (Path.components b)) rfl
    rw [h] at hsettled
    exact (sublist_append_right _ _).trans hsettled
  | false =>
    rw [Path.components_join_join _ _ hb] at h
    exact Path.sublist_of_settle_append _ h

/-! ## §3. Catalogs. -/

namespace Glob

variable {w : World}

theorem isPlain_basename {p : String} (h : hasWildcard (Path.basename p)) :
    Path.isPlain (Path.basename p) := by
  have hother : ∀ n ∈ ["", ".", ".."], Path.basename p ≠ n := by
    have hnone : ∀ n ∈ ["", ".", ".."], hasWildcard n = false := by decide
    exact fun n hn heq => Bool.false_ne_true ((hnone n hn).symm.trans (heq ▸ h))
  simp only [forall_mem_cons] at hother
  exact Path.isPlain_iff.mpr ⟨⟨hother.1, hother.2.1, Path.no_slash_basename p⟩, hother.2.2.1⟩

/-- What a pattern covers lies as deep as the pattern. -/
theorem length_placeOf_of_mem_expand (hcwd : Path.isAbsolute w.cwd) (hroot : w.root.named) :
    ∀ {depth : Nat} {foldersOnly : Bool} {pattern q : String},
    q ∈ expand w foldersOnly depth pattern →
      (w.placeOf q).length = (w.placeOf pattern).length := by
  intro depth
  induction depth with
  | zero => exact fun hq => absurd hq not_mem_nil
  | succ depth ih =>
    intro foldersOnly pattern q hq
    rw [expand] at hq
    split at hq
    · split at hq
      · rw [mem_singleton.mp hq]
      · cases hq
    · obtain ⟨f, hf, hq⟩ := mem_flatMap.mp hq
      have hfolder : (w.placeOf f).length = (w.placeOf (Path.dirname pattern)).length := by
        split at hf
        · exact ih hf
        · rw [mem_singleton.mp hf]
      rw [placeOf_eq hcwd pattern, Path.components_join_dirname]
      split at hq
      · -- a wildcard gives one name, as the pattern has one
        rename_i hwild
        obtain ⟨n, hn, rfl⟩ := mem_map.mp hq
        obtain ⟨hname, hup⟩ := Path.isPlain_iff.mp (isPlain_basename hwild)
        have hup : ".." ∉ [Path.basename pattern] := fun hmem => hup (mem_singleton.mp hmem).symm
        rw [placeOf_join_plain hcwd f (isPlain_of_mem_namesIn hcwd hroot hn),
          Path.components_of_isName hname, Path.settle_append hup, ← placeOf_eq hcwd,
          length_append, length_append, hfolder, length_singleton, length_singleton]
      · dsimp only at hq
        split at hq
        · rw [mem_singleton.mp hq, placeOf_eq hcwd,
            Path.components_join_join _ _ (Path.isAbsolute_of_no_slash
            (Path.no_slash_basename pattern))]
          rw [placeOf_eq hcwd, placeOf_eq hcwd] at hfolder
          exact Path.length_settle_append _ hfolder
        · cases hq

/-- **What two wildcards behind a folder cover**, as far as it lies below the folder: a name that
    the first one covers, and one more. -/
theorem covered_of_mem_expand (hcwd : Path.isAbsolute w.cwd) (hroot : w.root.named)
    {a m n q : String} (hm : Path.isPlain m) (hn : Path.isPlain n) (hmwild : hasWildcard m)
    (hnwild : hasWildcard n) {foldersOnly : Bool} {depth : Nat}
    (hq : q ∈ expand w foldersOnly depth (Path.join a (m ++ "/" ++ n))) {ps : List String}
    (h : w.placeOf q = w.placeOf a ++ ps) : ∃ j k, ps = [j, k] ∧ Wildcard.covers m j := by
  obtain ⟨hmname, hmup⟩ := Path.isPlain_iff.mp hm
  obtain ⟨hnname, hnup⟩ := Path.isPlain_iff.mp hn
  have htwo : Path.components (m ++ "/" ++ n) = [m, n] := by
    rw [Path.components_slash, Path.components_of_isName hmname, Path.components_of_isName hnname,
      singleton_append]
  have hrelative : Path.isAbsolute (m ++ "/" ++ n) = false := by
    rw [String.append_assoc, Path.isAbsolute_append hmname.ne_empty, hmname.relative]
  have hdeep := length_placeOf_of_mem_expand hcwd hroot hq
  rw [placeOf_join hcwd a hrelative (by simp [htwo, hmup.symm, hnup.symm]), h, htwo, length_append,
    length_append] at hdeep
  obtain ⟨g, j, k, hj, hk, rfl, -⟩ := mem_expand_join hcwd hroot hmname hnname.no_slash hmwild
    hnwild hq
  rw [placeOf_join_plain hcwd _ (isPlain_of_mem_namesIn hcwd hroot hk),
    placeOf_join_plain hcwd _ (isPlain_of_mem_namesIn hcwd hroot hj), append_assoc] at h
  -- both sides end with as many names
  obtain ⟨-, hps⟩ := append_inj' h (by simpa using (Nat.add_left_cancel hdeep).symm)
  refine ⟨j, k, hps.symm, ?_⟩
  have hkept := (mem_filter.mp hj).2
  simp only [Bool.and_eq_true] at hkept
  exact hkept.1.2

end Glob

/-! ## §4. The files of an addon. -/

namespace Addon

variable {w : World} {s : Settings} {folder : String} {manifest : Datum}

variable {n ext : String} {ps : List String} {f : DataFile} {found : List Named}

theorem eq_append_of_mem_dropLast (h : n ∈ ps.dropLast) : ∃ a b, b ≠ [] ∧ ps = a ++ n :: b := by
  obtain ⟨a, b, hab⟩ := append_of_mem h
  have hne : ps ≠ [] := by
    rintro rfl
    cases h
  refine ⟨a, b ++ [ps.getLast hne], by simp, ?_⟩
  rw [← cons_append, ← append_assoc, ← hab, dropLast_append_getLast]

/-- **A folder that is left out comes first in a path that is kept**, and not again. -/
theorem startsWith_of_kept (hs : s.excludes = .list (textData defaultExcludes)) {path : String}
    (hkept : s.excludes? path = .ok false) (hps : ps.Sublist (Path.components path))
    (hn : n ∈ leftOutFolders) :
    n ∉ ps.tail.dropLast ∧ (n ∈ ps.dropLast → Text.startsWith path (n ++ "/")) := by
  have hfirst : ∀ {a b : List String}, b ≠ [] → ps = a ++ n :: b →
      a = [] ∧ Text.startsWith path (n ++ "/") := by
    rintro a b hb rfl
    obtain ⟨front, rest, hpieces, ha, hrest⟩ :=
      append_sublist_iff.mp (hps.trans filter_sublist)
    obtain ⟨upto, more, rfl, hmem, hmore⟩ := cons_sublist_iff.mp hrest
    obtain ⟨skipped, between, rfl⟩ := append_of_mem hmem
    have hafter : between ++ more ≠ [] := by
      intro hnil
      rw [(append_eq_nil_iff.mp hnil).2] at hmore
      exact hb (sublist_nil.mp hmore)
    have hsplit : Path.pieces path = (front ++ skipped) ++ n :: (between ++ more) := by
      rw [hpieces]
      simp
    -- with something before it, the folder would stand between slashes
    have hbefore : front ++ skipped = [] := by
      by_contra hne
      rw [Settings.excludes?_of_infix hs hn (Path.infix_of_pieces hafter hsplit hne)] at hkept
      cases hkept
    rw [hbefore] at hsplit
    obtain ⟨q, hq, -⟩ := Path.eq_of_pieces_cons hsplit hafter
    rw [(append_eq_nil_iff.mp hbefore).1] at ha
    exact ⟨sublist_nil.mp ha, Text.startsWith_iff.mpr ⟨q, hq⟩⟩
  refine ⟨fun hmem => ?_, fun hmem => ?_⟩
  · obtain ⟨a, b, hb, htail⟩ := eq_append_of_mem_dropLast hmem
    cases ps with
    | nil => cases hmem
    | cons p ps =>
      have hcons : p :: ps = (p :: a) ++ n :: b := congrArg (p :: ·) htail
      exact cons_ne_nil p a (hfirst hb hcons).1
  · obtain ⟨a, b, hb, heq⟩ := eq_append_of_mem_dropLast hmem
    exact (hfirst hb heq).2

/-- A file that a section of the manifest names: a folder that is left out comes first in what it
    says. -/
theorem leftOut_of_dataFiles (hcwd : Path.isAbsolute w.cwd)
    (hs : s.excludes = .list (textData defaultExcludes))
    (h : dataFiles w s folder manifest = .ok found)
    (hf : (ext, f) ∈ found) (hplace : w.placeOf f.path = w.placeOf folder ++ ps)
    (hn : n ∈ leftOutFolders) :
    n ∉ ps.tail.dropLast ∧ (n ∈ ps.dropLast → ∃ item, Names manifest f.sectionName item ∧
      f.path = w.resolve (Path.join folder (Path.normalize item)) ∧
      Text.startsWith item (n ++ "/")) := by
  obtain ⟨sectionName, -, path, hnames, hkept, -, rfl⟩ := mem_dataFiles h hf
  dsimp only at hplace
  rw [placeOf_resolve hcwd] at hplace
  have hps := (sublist_of_placeOf_join hcwd hplace).trans (Path.components_normalize_sublist path)
  obtain ⟨hbehind, hfirst⟩ := startsWith_of_kept hs hkept hps hn
  refine ⟨hbehind, fun hmem => ⟨path, hnames, ?_, hfirst hmem⟩⟩
  dsimp only

/-- A message catalog lies in no folder that is left out. -/
theorem leftOut_of_catalogFiles (hcwd : Path.isAbsolute w.cwd) (hroot : w.root.named)
    (h : catalogFiles w s folder = .ok found) (hf : (ext, f) ∈ found)
    (hplace : w.placeOf f.path = w.placeOf folder ++ ps) (hn : n ∈ leftOutFolders) :
    n ∉ ps.dropLast := by
  obtain ⟨pattern, hpattern, path, hpath, -, rfl⟩ := mem_catalogFiles h hf
  dsimp only at hplace
  rw [placeOf_resolve hcwd] at hplace
  obtain ⟨last, hwild, hplain, rfl⟩ : ∃ last, Glob.hasWildcard last ∧ Path.isPlain last ∧
      pattern = "i18n*" ++ "/" ++ last := by
    simp only [catalogPatterns, mem_cons, not_mem_nil, or_false] at hpattern
    rcases hpattern with rfl | rfl
    · exact ⟨"*.po", by decide, by decide, by decide⟩
    · exact ⟨"*.pot", by decide, by decide, by decide⟩
  obtain ⟨j, k, rfl, hcovers⟩ :=
    Glob.covered_of_mem_expand hcwd hroot (by decide) hplain (by decide) hwild hpath hplace
  have hother : ∀ n ∈ leftOutFolders, Wildcard.covers "i18n*" n = false := by decide +kernel
  intro hmem
  rw [show [j, k].dropLast = [j] from rfl, mem_singleton] at hmem
  rw [← hmem, hother n hn] at hcovers
  cases hcovers

/-- A source file: a folder that is left out comes first, and is one that a walk enters. -/
theorem leftOut_of_sourceFiles (hcwd : Path.isAbsolute w.cwd) (hroot : w.root.named)
    (hs : s.excludes = .list (textData defaultExcludes)) (h : sourceFiles w s folder = .ok found)
    (hf : (ext, f) ∈ found) (hplace : w.placeOf f.path = w.placeOf folder ++ ps)
    (hn : n ∈ leftOutFolders) :
    n ∉ ps.tail.dropLast ∧ (n ∈ ps.dropLast → f.sectionName = "python" ∧
    (n = "migrations" ∨ n = "tests")) := by
  obtain ⟨path, hpath, hkept, -, rfl⟩ := mem_sourceFiles h hf
  obtain ⟨place, hne, hplain, hentered, rfl⟩ := place_of_mem_sourcePaths hcwd hroot hpath
  dsimp only at hplace
  rw [placeOf_resolve hcwd, placeOf_under hcwd hplain] at hplace
  obtain rfl := append_cancel_left hplace
  have hnames := fun n hn => Path.isPlain_iff.mp (hplain n hn)
  rw [Path.relative_under hcwd folder hnames hne] at hkept
  have hps : place.Sublist (Path.components ("/".intercalate place)) := by
    rw [Path.components_intercalate fun n hn => (hnames n hn).1]
  -- which folders are entered is asked at every depth
  refine ⟨(startsWith_of_kept hs hkept hps hn).1, fun hmem => ⟨rfl, ?_⟩⟩
  have hwalked : ∀ n ∈ leftOutFolders, n ∉ skippedFolders → n = "migrations" ∨ n = "tests" := by
    decide
  exact hwalked n hn (hentered n hmem)

/-- **With the default settings, an addon has no file in a folder that is left out but at its top.**
    There it is a source file that a walk meets in `migrations` or `tests`, or a file that the
    manifest names by a path which starts with the folder. -/
theorem load_leaves_out (hcwd : Path.isAbsolute w.cwd = true) (hroot : w.root.named = true)
    {c c' : Config} (hs : c.settings.excludes = .list (textData defaultExcludes)) {path : String}
    {release : Option String} {a : Addon}
    (h : (Addon.load c path release).verdict w = .ok (a, c'))
    (hf : f ∈ Groups.get ext a.files)
    (hplace : w.placeOf f.path = w.placeOf a.folder ++ ps) :
    ∀ n ∈ leftOutFolders, n ∉ ps.tail.dropLast ∧ (n ∈ ps.dropLast →
      f.sectionName = "python" ∧ (n = "migrations" ∨ n = "tests") ∨
      ∃ item, Names a.manifest f.sectionName item ∧
        f.path = w.resolve (Path.join a.folder (Path.normalize item)) ∧
        Text.startsWith item (n ++ "/") = true) := by
  intro n hn
  rcases mem_filesOf (fromPath_of_load h).files hf with
    ⟨found, hfound, hmem⟩ | ⟨found, hfound, hmem⟩ | ⟨found, hfound, hmem⟩
  · exact (leftOut_of_dataFiles hcwd hs hfound hmem hplace hn).imp_right (.inr ∘ ·)
  · have hnone := leftOut_of_catalogFiles hcwd hroot hfound hmem hplace hn
    refine ⟨fun hbehind => hnone ?_, fun hfirst => absurd hfirst hnone⟩
    rw [← List.tail_dropLast] at hbehind
    exact List.mem_of_mem_tail hbehind
  · exact (leftOut_of_sourceFiles hcwd hroot hs hfound hmem hplace hn).imp_right (.inl ∘ ·)

/-- An addon with tests at its top, one of them data, and among its models. -/
def addonWithTests : World where
  root := .folder [("m", .folder [
    ("__init__.py", .file ⟨#[]⟩),
    ("__manifest__.py", .file "\x7b'data': ['tests/a.xml']\x7d".toUTF8),
    ("models", .folder [("tests", .folder [("b.py", .file ⟨#[]⟩)])]),
    ("tests", .folder [("a.py", .file ⟨#[]⟩), ("a.xml", .file ⟨#[]⟩)])])]

/-- The paths that are left out by default, and no others. -/
def defaultsLeftOut : Config where
  settings := { nothingLeftOut.settings with excludes := .list (textData defaultExcludes) }

theorem load_addonWithTests :
    ∃ a c', (Addon.load defaultsLeftOut "m" none).verdict addonWithTests = .ok (a, c') ∧
    a.folder = "m" ∧ (∃ f ∈ get ".py" a.files, f.path = "/m/tests/a.py") ∧
    ∃ f ∈ get ".xml" a.files, f.path = "/m/tests/a.xml" ∧ f.sectionName = "data" := by
  obtain ⟨⟨a, c'⟩, hload, hdata⟩ :
      ∃ p, (Addon.load defaultsLeftOut "m" none).verdict addonWithTests = .ok p ∧
        (p.1.folder, (get ".py" p.1.files).any (·.path == "/m/tests/a.py"),
            (get ".xml" p.1.files).any fun f => f.path == "/m/tests/a.xml" &&
            f.sectionName == "data")
          = ("m", true, true) :=
    Traversal.ok_of_toOption_map (by decide +kernel)
  obtain ⟨hfolder, hfiles⟩ := Prod.mk.inj hdata
  obtain ⟨hpy, hxml⟩ := Prod.mk.inj hfiles
  simp only [any_eq_true, Bool.and_eq_true, beq_iff_eq] at hpy hxml
  exact ⟨a, c', hload, hfolder, hpy, hxml⟩

/-- The source file in `tests` among the models is not there; the data file in `tests` at the top
    is, because of how its path starts. -/
theorem load_leaves_out_addonWithTests : ∃ a c',
    (Addon.load defaultsLeftOut "m" none).verdict addonWithTests = .ok (a, c') ∧
      (∀ ext, ∀ f ∈ Groups.get ext a.files, f.path ≠ "/m/models/tests/b.py") ∧
      ∃ f ∈ Groups.get ".xml" a.files, f.path = "/m/tests/a.xml" ∧
        ∃ item, Names a.manifest f.sectionName item ∧ Text.startsWith item "tests/" = true := by
  obtain ⟨a, c', hload, hfolder, -, f, hf, hpath, hsection⟩ := load_addonWithTests
  have hinside : ∀ {p : String} {ps : List String}, addonWithTests.placeOf p = "m" :: ps →
      addonWithTests.placeOf p = addonWithTests.placeOf a.folder ++ ps := by
    intro p ps hp
    rw [hp, hfolder, show addonWithTests.placeOf "m" = ["m"] by decide, List.singleton_append]
  refine ⟨a, c', hload, fun ext g hg hother => ?_, f, hf, hpath, ?_⟩
  · have hplace := hinside (show addonWithTests.placeOf g.path = ["m", "models", "tests", "b.py"] by
      rw [hother]; decide)
    exact (load_leaves_out (by decide) (by decide) rfl hload hg hplace "tests" (by decide)).1
      (by decide)
  · have hplace := hinside (show addonWithTests.placeOf f.path =
      ["m", "tests", "a.xml"] by rw [hpath]; decide)
    obtain ⟨hpython, -⟩ | ⟨item, hnames, -, hstart⟩ :=
      (load_leaves_out (by decide) (by decide) rfl hload hf hplace "tests" (by decide)).2
      (by decide)
    · rw [hsection] at hpython
      exact absurd hpython (by decide)
    · exact ⟨item, hnames, hstart⟩

/-- **Tests at the top of an addon are not left out**, neither by a walk nor as data. -/
theorem load_keeps_tests :
    ∃ a c', (Addon.load defaultsLeftOut "m" none).verdict addonWithTests = .ok (a, c') ∧
    (∃ f ∈ Groups.get ".py" a.files, f.path = "/m/tests/a.py") ∧
    ∃ f ∈ Groups.get ".xml" a.files, f.path = "/m/tests/a.xml" := by
  obtain ⟨a, c', hload, -, hpy, f, hf, hpath, -⟩ := load_addonWithTests
  exact ⟨a, c', hload, hpy, f, hf, hpath⟩

end Addon

end AddonAudit
