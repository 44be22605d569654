/-
  AddonAudit.Proofs.Workspace.Inside — what is found through the path of a folder.

  A folder may lie anywhere, and its path may be written in many ways.  What a name, a walk or a
  pattern finds through the path is what lies in the folder, behind that path.
-/
import AddonAudit.Proofs.Workspace.Below
import Mathlib.Data.List.DropRight

namespace AddonAudit

open List

/-! ## §1. Paths behind a folder. -/

namespace Text

theorem dropTailWhile_idem (p : Char → Bool) (cs : List Char) :
    dropTailWhile p (dropTailWhile p cs) = dropTailWhile p cs := by
  unfold dropTailWhile
  rw [reverse_reverse, dropWhile_idempotent]

theorem dropTailWhile_concat {p : Char → Bool} {c : Char} (hc : p c) (cs : List Char) :
    dropTailWhile p (cs ++ [c]) = dropTailWhile p cs := by
  unfold dropTailWhile
  rw [reverse_append, reverse_singleton, singleton_append, dropWhile_cons_of_pos hc]

end Text

namespace Path

variable {a b n : String} {ns : List String}

/-- The path of a folder without slashes at its end, unless it has nothing else. -/
def bare (a : String) : String :=
  if a.toList.all (· == '/') then a else String.ofList (Text.dropTailWhile (· == '/') a.toList)

theorem bare_slash (a : String) : bare (a ++ "/") = if a.toList.all (· == '/') then a ++ "/"
    else String.ofList (Text.dropTailWhile (· == '/') a.toList) := by
  have hlist : (a ++ "/").toList = a.toList ++ ['/'] := by simp [String.toList_append]
  unfold bare
  rw [hlist, all_append, Text.dropTailWhile_concat (by decide)]
  simp

/-- The folder of a name behind a folder. -/
theorem dirname_join (a : String) (hn : IsName n) : dirname (join a n) = bare a := by
  obtain ⟨head, ⟨rfl | ⟨start, rfl⟩, rfl⟩ | ⟨hfront, rfl⟩, hjoin⟩ := join_eq_append a
  · rw [hjoin n hn.relative, String.empty_append, dirname_of_no_slash hn.no_slash]
    rfl
  · rw [hjoin n hn.relative, dirname_slash start hn.no_slash, bare_slash]
  · rw [hjoin n hn.relative, dirname_slash a hn.no_slash, bare]
    have hall : ¬ a.toList.all (· == '/') := by
      intro hall
      rcases eq_nil_or_concat a.toList with hnil | ⟨cs, c, hcs⟩
      · exact hfront (.inl (String.toList_inj.mp hnil))
      · refine hfront (.inr ⟨String.ofList cs, String.toList_inj.mp ?_⟩)
        have hc : c = '/' := by simpa using all_eq_true.mp hall c (by rw [hcs]; simp)
        rw [hcs, hc, String.toList_append, String.toList_ofList]
        simp
    rw [if_neg hall, if_neg hall]

theorem bare_bare (a : String) : bare (bare a) = bare a := by
  by_cases hall : a.toList.all (· == '/')
  · have hbare : bare a = a := if_pos hall
    rw [hbare, hbare]
  · have hbare : bare a = String.ofList (Text.dropTailWhile (· == '/') a.toList) := if_neg hall
    have hall' : ¬ (bare a).toList.all (· == '/') := by
      intro hslashes
      obtain ⟨tail, ha, htail⟩ := Text.dropTailWhile_append (· == '/') a.toList
      rw [hbare, String.toList_ofList] at hslashes
      exact hall (by rw [ha, all_append, hslashes, all_eq_true.mpr htail]; rfl)
    have hagain : bare (bare a) = String.ofList (Text.dropTailWhile (· == '/') (bare a).toList) :=
      if_neg hall'
    rw [hagain, hbare, String.toList_ofList, Text.dropTailWhile_idem]

theorem bare_ne_empty (ha : a ≠ "") : bare a ≠ "" := by
  intro hempty
  by_cases hall : a.toList.all (· == '/')
  · exact ha ((if_pos hall).symm.trans hempty)
  · have hnil : String.ofList (Text.dropTailWhile (· == '/') a.toList) = "" :=
      (if_neg hall).symm.trans hempty
    obtain ⟨tail, htext, htail⟩ := Text.dropTailWhile_append (· == '/') a.toList
    have hnil := congrArg String.toList hnil
    rw [String.toList_ofList] at hnil
    rw [show Text.dropTailWhile (· == '/') a.toList = [] from hnil, nil_append] at htext
    exact hall (all_eq_true.mpr (htext ▸ htail))

theorem endsWith_name (a : String) (hn : IsName n) : Text.endsWith (a ++ n) "/" = false := by
  rw [Bool.eq_false_iff]
  intro hend
  obtain ⟨start, hstart⟩ := Text.endsWith_iff.mp hend
  have hlist := congrArg (fun s => s.toList.getLast?) hstart
  simp only [String.toList_append] at hlist
  obtain ⟨c, hc⟩ : ∃ c, n.toList.getLast? = some c := by
    cases hlast : n.toList.getLast? with
    | none => exact absurd (String.toList_inj.mp (getLast?_eq_none_iff.mp hlast)) hn.ne_empty
    | some c => exact ⟨c, rfl⟩
  rw [getLast?_append, hc] at hlist
  have hslash : c = '/' := by simpa using hlist
  exact hn.no_slash (hslash ▸ mem_of_getLast? hc)

/-- A path behind a name behind a folder. -/
theorem join_join (a : String) (hn : IsName n) (hb : isAbsolute b = false) :
    join (join a n) b = join a (n ++ "/" ++ b) := by
  obtain ⟨head, -, hjoin⟩ := join_eq_append a
  have habsolute : isAbsolute (n ++ "/" ++ b) = false := by
    rw [String.append_assoc, isAbsolute_append hn.ne_empty, hn.relative]
  rw [hjoin n hn.relative, hjoin _ habsolute]
  unfold join
  have hne : head ++ n ≠ "" := by
    intro hempty
    have hlist := congrArg String.toList hempty
    rw [String.toList_append] at hlist
    exact hn.ne_empty (String.toList_inj.mp (append_eq_nil_iff.mp hlist).2)
  rw [hb, if_neg Bool.false_ne_true, if_neg (by simp [hne, endsWith_name head hn])]
  simp only [String.append_assoc]

theorem basename_join_slash (a : String) {m : String} (hm : IsName m) (hn : IsName n) :
    basename (join a (m ++ "/" ++ n)) = n := by
  rw [← join_join a hm hn.relative, basename_join _ hn]

/-- The path of a place inside a folder. -/
def under (folder : String) (ns : List String) : String := join folder ("/".intercalate ns)

theorem under_singleton (a n : String) : under a [n] = join a n := by
  rw [under, String.intercalate_singleton]

theorem under_cons (a : String) (hn : IsName n) (hns : ∀ m ∈ ns, IsName m) (hne : ns ≠ []) :
    under (join a n) ns = under a (n :: ns) := by
  unfold under
  rw [join_join a hn (isAbsolute_intercalate hns)]
  cases ns with
  | nil => exact absurd rfl hne
  | cons m ns => rw [String.intercalate_cons_cons]

theorem dropCommon_append (as bs : List String) : dropCommon as (as ++ bs) = ([], bs) := by
  induction as with
  | nil =>
    cases bs <;> rfl
  | cons a as ih => rw [cons_append, dropCommon, if_pos (beq_self_eq_true a), ih]

/-- **A place inside a folder, seen from the folder.** -/
theorem relative_under {cwd : String} (hcwd : isAbsolute cwd) (a : String)
    (hns : ∀ n ∈ ns, IsName n ∧ n ≠ "..") (hne : ns ≠ []) :
    relative cwd (under a ns) a = "/".intercalate ns := by
  have hnames := fun n hn => (hns n hn).1
  have hup : ".." ∉ ns := fun hmem => (hns _ hmem).2 rfl
  have hplace : components (absolute cwd (under a ns)) = components (absolute cwd a) ++ ns := by
    unfold absolute under
    rw [components_normalize (isAbsolute_join hcwd), components_normalize (isAbsolute_join hcwd),
      components_join_join _ _ (isAbsolute_intercalate hnames), components_intercalate hnames,
      settle_append hup]
  unfold relative
  rw [hplace, dropCommon_append]
  simp [hne]

end Path

/-! ## §2. Members of a folder. -/

namespace World

variable {w : World} {a n : String} {e : Entry}

theorem find_join_iff (a : String) (hn : Path.IsName n) (x : Entry) : w.find (Path.join a n) = .ok x
      ↔ followNames [w.root] (Path.components (Path.join w.cwd a) ++ [n]) = .ok x := by
  have hone : Path.pieces n = [] ++ [n] := Path.pieces_of_no_slash hn.no_slash
  obtain ⟨ms, hms⟩ := Path.pieces_join_of_last hone a
  rw [find_of_last hms hn, Path.components_join_join _ _ hn.relative, Path.components_of_isName hn]

/-- **A name behind the path of a folder leads to the member of that name.** -/
theorem find_join (h : w.find a = .ok e) (hn : Path.isPlain n) (x : Entry) :
    w.find (Path.join a n) = .ok x ↔ e.member? n = some x := by
  obtain ⟨hname, hup⟩ := Path.isPlain_iff.mp hn
  obtain ⟨up, -, hwalk⟩ := followNames_append [n] .root (followNames_of_find h)
  rw [find_join_iff a hname, hwalk]
  cases e with
  | file b => exact ⟨nofun, nofun⟩
  | folder ms =>
    rw [followNames_folder, if_neg (by simp [hname.ne_empty, hname.ne_dot]),
      if_neg (by simpa using hup)]
    cases (Entry.folder ms).member? n with
    | none => exact ⟨nofun, nofun⟩
    | some m =>
      show Except.ok m = Except.ok x ↔ some m = some x
      rw [Except.ok.injEq, Option.some.injEq]

/-- What holds of the member holds of what is found. -/
theorem any_find_join (h : w.find a = .ok e) (hn : Path.isPlain n) (f : Entry → Bool) :
    (match w.find (Path.join a n) with
      | .ok x => f x
      | .error _ => false) = (e.member? n).any f := by
  cases hm : e.member? n with
  | some m => rw [(find_join h hn m).mpr hm, Option.any_some]
  | none =>
    split
    · rename_i x hx
      rw [(find_join h hn x).mp hx] at hm
      cases hm
    · rfl

theorem isFile_join (h : w.find a = .ok e) (hn : Path.isPlain n) :
    w.isFile (Path.join a n) = (e.member? n).any Entry.isFile := any_find_join h hn Entry.isFile

theorem isFolder_join (h : w.find a = .ok e) (hn : Path.isPlain n) :
    w.isFolder (Path.join a n) = (e.member? n).any Entry.isFolder :=
    any_find_join h hn Entry.isFolder

theorem list_of_find (h : w.find a = .ok e) : w.list a = e.members.map Prod.fst := by
  unfold list
  rw [h]

theorem ne_empty_of_find (h : w.find a = .ok e) : a ≠ "" := by
  rintro rfl
  cases h

/-- Slashes at the end of the path of a folder change nothing. -/
theorem find_bare (h : w.find a = .ok e) (he : e.isFolder) : w.find (Path.bare a) = .ok e := by
  have hname : Path.IsName "a" := ⟨by decide, by decide, by decide⟩
  have hcomponents := Path.components_join_dirname_join w.cwd a hname
  rw [Path.dirname_join a hname] at hcomponents
  have hwalk := followNames_of_find h
  rw [← hcomponents] at hwalk
  rw [find_eq (Path.bare_ne_empty (ne_empty_of_find h))]
  cases e with
  | file b => cases he
  | folder ms => exact followNames_of_followed hwalk

end World

/-! ## §3. Walks. -/

namespace Entry

variable (enter pick : String → Bool)

mutual
/-- The places of the files in a tree whose names are picked, in the order of a walk. -/
def filePlaces : Entry → List (List String)
  | .file _ => []
  | .folder ms =>
    ((((ms.filter (·.2.isFile)).map (·.1)).filter pick).map fun n => [n]) ++ memberPlaces ms

/-- The places in the members that are entered. -/
def memberPlaces : List (String × Entry) → List (List String)
  | [] => []
  | (n, m) :: rest => (if enter n then m.filePlaces.map (n :: ·) else []) ++ memberPlaces rest
end

variable {enter pick}

mutual
/-- Places are made of plain names, and those of folders are entered. -/
theorem plain_of_mem_filePlaces : ∀ {e : Entry}, e.named → ∀ ns ∈ e.filePlaces enter pick,
    ns ≠ [] ∧ (∀ n ∈ ns, Path.isPlain n) ∧ ∀ n ∈ ns.dropLast, enter n
  | .file _, _, ns, hns => by
    rw [filePlaces] at hns
    cases hns
  | .folder ms, h, ns, hns => by
    rw [filePlaces] at hns
    rcases mem_append.mp hns with hns | hns
    · obtain ⟨n, hn, rfl⟩ := mem_map.mp hns
      obtain ⟨⟨n, m⟩, hm, rfl⟩ := mem_map.mp (mem_filter.mp hn).1
      refine ⟨by simp, fun k hk => ?_, by simp⟩
      rw [mem_singleton.mp hk]
      exact (of_mem_named h (mem_filter.mp hm).1).1
    · exact plain_of_mem_memberPlaces h ns hns

theorem plain_of_mem_memberPlaces : ∀ {ms : List (String × Entry)}, namedMembers ms →
    ∀ ns ∈ memberPlaces enter pick ms,
      ns ≠ [] ∧ (∀ n ∈ ns, Path.isPlain n) ∧ ∀ n ∈ ns.dropLast, enter n
  | [], _, ns, hns => by
    rw [memberPlaces] at hns
    cases hns
  | (n, m) :: rest, h, ns, hns => by
    obtain ⟨hn, hm, hrest⟩ := namedMembers_cons.mp h
    rw [memberPlaces] at hns
    rcases mem_append.mp hns with hns | hns
    · split at hns
      · rename_i henter
        obtain ⟨ks, hks, rfl⟩ := mem_map.mp hns
        obtain ⟨hne, hplain, hentered⟩ := plain_of_mem_filePlaces hm ks hks
        refine ⟨by simp, forall_mem_cons.mpr ⟨hn, hplain⟩, ?_⟩
        rw [dropLast_cons_of_ne_nil hne]
        exact forall_mem_cons.mpr ⟨henter, hentered⟩
      · cases hns
    · exact plain_of_mem_memberPlaces hrest ns hns
end

mutual
/-- **A walk meets the files of the tree**, behind the path where it starts. -/
theorem flatMap_walk : ∀ {e : Entry}, e.named → ∀ path : String,
    (e.walk enter path).flatMap (fun v => (v.files.filter pick).map (Path.join v.path))
      = (e.filePlaces enter pick).map (Path.under path)
  | .file _, _, path => by
    rw [walk, filePlaces]
    rfl
  | .folder ms, h, path => by
    rw [walk, filePlaces, flatMap_cons, map_append, flatMap_walkMembers h path, map_map]
    refine congrArg (· ++ _) (map_congr_left fun n _ => ?_)
    exact (Path.under_singleton path n).symm

/-- So do the walks of members. -/
theorem flatMap_walkMembers : ∀ {ms : List (String × Entry)}, namedMembers ms → ∀ path : String,
    (walkMembers enter path ms).flatMap (fun v => (v.files.filter pick).map (Path.join v.path))
      = (memberPlaces enter pick ms).map (Path.under path)
  | [], _, path => by
    rw [walkMembers, memberPlaces]
    rfl
  | (n, m) :: rest, h, path => by
    obtain ⟨hn, hm, hrest⟩ := namedMembers_cons.mp h
    rw [walkMembers, memberPlaces, flatMap_append, map_append, flatMap_walkMembers hrest path]
    refine congrArg (· ++ _) ?_
    split
    · rw [flatMap_walk hm (Path.join path n), map_map]
      refine map_congr_left fun ns hns => ?_
      obtain ⟨hne, hplain, -⟩ := plain_of_mem_filePlaces hm ns hns
      exact Path.under_cons path (Path.isPlain_iff.mp hn).1
        (fun k hk => (Path.isPlain_iff.mp (hplain k hk)).1) hne
    · rfl
end

end Entry

/-! ## §4. Patterns. -/

/-- The names of members that a component of a pattern covers. -/
def Entry.covered (e : Entry) (component : String) (foldersOnly : Bool) : List String :=
  (e.members.map Prod.fst).filter fun n =>
    (Glob.isHidden component || !Glob.isHidden n) && Wildcard.covers component n &&
      (!foldersOnly || (e.member? n).any Entry.isFolder)

namespace Glob

variable {w : World} {a m n : String} {e : Entry}

theorem namesIn_eq (h : w.find a = .ok e) (he : e.named) (component : String) (foldersOnly : Bool) :
    namesIn w a component foldersOnly = e.covered component foldersOnly := by
  unfold namesIn Entry.covered
  dsimp only
  rw [if_neg (by simpa using World.ne_empty_of_find h), World.list_of_find h]
  refine filter_congr fun k hk => ?_
  rw [World.isFolder_join h (Entry.isPlain_of_mem_members he hk)]

/-- What a pattern covers whose last component is a wildcard. -/
theorem expand_wild {pattern : String} (hwild : hasWildcard (Path.basename pattern))
    (foldersOnly : Bool) (depth : Nat) : expand w foldersOnly (depth + 1) pattern
      = (if hasWildcard (Path.dirname pattern) then expand w true depth (Path.dirname pattern)
          else [Path.dirname pattern]).flatMap fun f =>
            (namesIn w f (Path.basename pattern) foldersOnly).map (Path.join f) := by
  rw [expand, hasWildcard_of_basename hwild, Bool.not_true, if_neg Bool.false_ne_true]
  simp only [hwild, if_true]

/-- **What a pattern of two wildcards covers** behind a folder without any. -/
theorem paths_join (h : w.find a = .ok e) (he : e.named) (hbare : Path.bare a = a)
    (hplain : hasWildcard a = false) (hm : Path.IsName m) (hn : Path.IsName n)
    (hwildm : hasWildcard m) (hwildn : hasWildcard n) :
    paths w (Path.join a (m ++ "/" ++ n)) = (e.covered m true).flatMap fun k =>
      (((e.member? k).getD .empty).covered n false).map fun x => Path.under a [k, x] := by
  have hbase := Path.basename_join_slash a hm hn
  have hdir := Path.dirname_join_slash a hm hn.no_slash
  have hfolders : hasWildcard (Path.join a m) :=
    hasWildcard_of_basename (by rw [Path.basename_join a hm, hwildm])
  have hlast : Path.pieces (m ++ "/" ++ n) = Path.pieces m ++ [n] := by
    rw [Path.pieces_slash, Path.pieces_of_no_slash hn.no_slash]
  obtain ⟨ms, hms⟩ := Path.pieces_join_of_last hlast a
  unfold paths
  rw [hms, length_append, length_singleton, expand_wild (by rw [hbase, hwildn]), hbase, hdir,
    if_pos hfolders]
  rw [expand_wild (by rw [Path.basename_join a hm, hwildm]), Path.basename_join a hm,
    Path.dirname_join a hm, hbare, hplain, if_neg Bool.false_ne_true, flatMap_singleton,
    namesIn_eq h he, flatMap_map]
  refine flatMap_congr fun k hk => ?_
  -- a folder that the first component covers is a member
  obtain ⟨hmember, hkept⟩ := mem_filter.mp hk
  have hk := Entry.isPlain_of_mem_members he hmember
  have hfolder : (e.member? k).any Entry.isFolder := by
    simp only [Bool.and_eq_true, Bool.not_true, Bool.false_or] at hkept
    exact hkept.2
  obtain ⟨x, hx, -⟩ := (Option.any_eq_true _ _).mp hfolder
  rw [hx, Option.getD_some, namesIn_eq ((World.find_join h hk x).mpr hx)
    (Entry.named_member? he hx)]
  refine map_congr_left fun y hy => ?_
  have hy := Entry.isPlain_of_mem_members (Entry.named_member? he hx) (mem_filter.mp hy).1
  rw [← Path.under_singleton (Path.join a k)]
  refine Path.under_cons a (Path.isPlain_iff.mp hk).1 ?_ (by simp)
  simpa using (Path.isPlain_iff.mp hy).1

end Glob

end AddonAudit
