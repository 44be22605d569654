/-
  AddonAudit.Proofs.Workspace.Below — paths that lie below a folder.

  What a pattern in a folder finds is named by members of folders.  If these are plain names, as
  they are in every file tree, everything that is found has its place below that of the folder.
-/
import AddonAudit.Proofs.Workspace.Places
import AddonAudit.Workspace.Glob
import Mathlib.Data.List.TakeWhile

namespace AddonAudit

open List

/-! ## §1. The folder and the name of a path. -/

namespace Text

variable {p : Char → Bool}

/-- A text has no separator, or a last one. -/
theorem last_separator (p : Char → Bool) (cs : List Char) :
    (∀ c ∈ cs, p c = false) ∨ ∃ a c b, cs = a ++ c :: b ∧ p c ∧ ∀ x ∈ b, p x = false := by
  induction cs with
  | nil => exact .inl fun c hc => absurd hc not_mem_nil
  | cons c cs ih =>
    rcases ih with hnone | ⟨a, d, b, rfl, hd, hb⟩
    · cases hc : p c with
      | true => exact .inr ⟨[], c, cs, rfl, hc, hnone⟩
      | false => exact .inl (forall_mem_cons.mpr ⟨hc, hnone⟩)
    · exact .inr ⟨c :: a, d, b, rfl, hd, hb⟩

theorem dropTailWhile_append (p : Char → Bool) (cs : List Char) :
    ∃ tail, cs = dropTailWhile p cs ++ tail ∧ ∀ c ∈ tail, p c := by
  refine ⟨(cs.reverse.takeWhile p).reverse, ?_, fun c hc => ?_⟩
  · unfold dropTailWhile
    rw [← reverse_append, takeWhile_append_dropWhile, reverse_reverse]
  · exact mem_takeWhile_imp (mem_reverse.mp hc)

end Text

namespace Path

variable {n p : String}

theorem basename_of_pieces {ms : List String} (h : pieces p = ms ++ [n]) : basename p = n := by
  rw [basename, h]
  simp

theorem basename_of_no_slash (h : '/' ∉ p.toList) : basename p = p :=
  basename_of_pieces (show pieces p = [] ++ [p] from pieces_of_no_slash h)

theorem basename_slash (a : String) {b : String} (hb : '/' ∉ b.toList) :
    basename (a ++ "/" ++ b) = b :=
  basename_of_pieces (by rw [pieces_slash, pieces_of_no_slash hb])

/-- A path has no slash, or a last one. -/
theorem slash_cases (p : String) : '/' ∉ p.toList ∨ ∃ a b :
    String, p = a ++ "/" ++ b ∧ '/' ∉ b.toList := by
  rcases Text.last_separator (· == '/') p.toList with hnone | ⟨a, c, b, hp, hc, hb⟩
  · exact .inl fun hmem => absurd (hnone '/' hmem) (by decide)
  · refine .inr ⟨String.ofList a, String.ofList b, ?_, fun hmem => ?_⟩
    · apply String.toList_inj.mp
      rw [hp, beq_iff_eq.mp hc]
      simp [String.toList_append]
    · rw [String.toList_ofList] at hmem
      exact absurd (hb '/' hmem) (by decide)

theorem dirname_of_no_slash (h : '/' ∉ p.toList) : dirname p = "" := by
  unfold dirname
  dsimp only
  rw [basename_of_no_slash h, ← String.length_toList, Nat.sub_self]
  rfl

/-- The folder of a path with a last slash. -/
theorem dirname_slash (a : String) {b : String} (hb : '/' ∉ b.toList) :
    dirname (a ++ "/" ++ b) = if a.toList.all (· == '/') then a ++ "/"
      else String.ofList (Text.dropTailWhile (· == '/') a.toList) := by
  have hlist : (a ++ "/" ++ b).toList = (a.toList ++ ['/']) ++ b.toList := by
    simp [String.toList_append]
  unfold dirname
  dsimp only
  rw [basename_slash a hb, hlist, length_append, ← String.length_toList, Nat.add_sub_cancel,
    take_left, all_append]
  split
  · rename_i hall
    rw [if_pos (Bool.and_eq_true_iff.mp hall).1]
    apply String.toList_inj.mp
    simp [String.toList_append]
  · rename_i hall
    rw [if_neg fun ha => hall (Bool.and_eq_true_iff.mpr ⟨ha, by decide⟩)]
    unfold Text.dropTailWhile
    rw [reverse_append]
    rfl

/-- **A path is its folder, slashes and its name.**  Before the name stands nothing or a slash. -/
theorem dirname_append (p : String) : ∃ tail : List Char, (∀ c ∈ tail, c = '/') ∧
    p = dirname p ++ String.ofList tail ++ basename p ∧ Front (dirname p ++ String.ofList tail) ∧
    (dirname p = "" → tail = []) := by
  rcases slash_cases p with hnone | ⟨a, b, rfl, hb⟩
  · refine ⟨[], fun c hc => absurd hc not_mem_nil, ?_, ?_, fun _ => rfl⟩
    · rw [dirname_of_no_slash hnone, basename_of_no_slash hnone]
      simp
    · rw [dirname_of_no_slash hnone]
      exact .inl (by simp)
  · rw [dirname_slash a hb, basename_slash a hb]
    split
    · exact ⟨[], fun c hc => absurd hc not_mem_nil, by simp, .inr ⟨a, by simp⟩, fun _ => rfl⟩
    · rename_i hall
      obtain ⟨tail, ha, htail⟩ := Text.dropTailWhile_append (· == '/') a.toList
      have hfront : String.ofList (Text.dropTailWhile (· == '/') a.toList) ++
        String.ofList (tail ++ ['/'])
          = a ++ "/" := by
        apply String.toList_inj.mp
        rw [String.toList_append, String.toList_append, String.toList_ofList, String.toList_ofList,
          ← append_assoc, ← ha]
        rfl
      refine ⟨tail ++ ['/'], ?_, by rw [hfront], .inr ⟨a, hfront⟩, fun hempty => ?_⟩
      · intro c hc
        rcases mem_append.mp hc with hc | hc
        · exact beq_iff_eq.mp (htail c hc)
        · exact mem_singleton.mp hc
      · -- a folder without a character but slashes is kept as it is
        have hnil := congrArg String.toList hempty
        rw [String.toList_ofList] at hnil
        rw [show Text.dropTailWhile (· == '/') a.toList = [] from hnil, nil_append] at ha
        exact absurd (all_eq_true.mpr (ha ▸ htail)) hall

theorem no_slash_basename (p : String) : '/' ∉ (basename p).toList := by
  rcases slash_cases p with hnone | ⟨a, b, rfl, hb⟩
  · rwa [basename_of_no_slash hnone]
  · rwa [basename_slash a hb]

theorem components_append_slashes {tail : List Char} (h : ∀ c ∈ tail, c = '/') (s : String) :
    components (s ++ String.ofList tail) = components s := by
  induction tail generalizing s with
  | nil => simp
  | cons c tail ih =>
    obtain ⟨rfl, htail⟩ := forall_mem_cons.mp h
    have hcons : s ++ String.ofList ('/' :: tail) = s ++ "/" ++ String.ofList tail := by
      apply String.toList_inj.mp
      simp [String.toList_append]
    rw [hcons, ih htail, components_slash_right]

theorem isAbsolute_dirname (p : String) : isAbsolute (dirname p) = isAbsolute p := by
  obtain ⟨tail, -, hp, -, hempty⟩ := dirname_append p
  by_cases hdir : dirname p = ""
  · have hname : p = basename p := by
      rw [hdir, hempty hdir] at hp
      simpa using hp
    rw [hdir, isAbsolute_empty, hname, isAbsolute_of_no_slash (no_slash_basename p)]
  · conv_rhs => rw [hp, String.append_assoc]
    exact (isAbsolute_append hdir _).symm

/-- The components of a path are those of its folder and its name, from wherever it is seen. -/
theorem components_join_dirname (c p : String) :
    components (join c p) = components (join c (dirname p)) ++ components (basename p) := by
  obtain ⟨tail, htail, hp, hfront, -⟩ := dirname_append p
  have hcomponents : components p = components (dirname p) ++ components (basename p) := by
    conv_lhs => rw [hp]
    rw [components_front hfront, components_append_slashes htail]
  have habsolute := isAbsolute_dirname p
  cases ha : isAbsolute p with
  | true =>
    rw [ha] at habsolute
    rw [join_of_isAbsolute ha, join_of_isAbsolute habsolute, hcomponents]
  | false =>
    rw [ha] at habsolute
    rw [components_join ha, components_join habsolute, hcomponents, append_assoc]

/-! A name behind a folder. -/

theorem basename_join (a : String) (hn : IsName n) : basename (join a n) = n := by
  have hone : pieces n = [] ++ [n] := pieces_of_no_slash hn.no_slash
  obtain ⟨ms, hms⟩ := pieces_join_of_last hone a
  exact basename_of_pieces hms

/-- The folder of a name behind a folder is that folder. -/
theorem components_join_dirname_join (c a : String) (hn : IsName n) :
    components (join c (dirname (join a n))) = components (join c a) := by
  have hboth := components_join_dirname c (join a n)
  rw [basename_join a hn, components_join_join c a hn.relative] at hboth
  exact (append_cancel_right hboth).symm

/-- Its characters are those of the folder, and slashes. -/
theorem mem_dirname_join (a : String) (hn : IsName n) {c : Char}
    (hc : c ∈ (dirname (join a n)).toList) : c ∈ a.toList ∨ c = '/' := by
  obtain ⟨tail, -, hp, -, -⟩ := dirname_append (join a n)
  obtain ⟨head, hhead, hjoin⟩ := join_eq_append a
  rw [basename_join a hn] at hp
  rw [hjoin n hn.relative] at hp hc
  have hlist := congrArg String.toList hp
  rw [String.toList_append, String.toList_append, String.toList_append] at hlist
  have hmem : c ∈ head.toList := by
    rw [append_cancel_right hlist]
    exact mem_append_left _ hc
  rcases hhead with ⟨-, rfl⟩ | ⟨-, rfl⟩
  · exact .inl hmem
  · rw [String.toList_append] at hmem
    exact (mem_append.mp hmem).imp_right mem_singleton.mp

/-- The folder of two names behind a folder. -/
theorem dirname_join_slash (a : String) {m : String} (hm : IsName m) (hn : '/' ∉ n.toList) :
    dirname (join a (m ++ "/" ++ n)) = join a m := by
  obtain ⟨head, -, hjoin⟩ := join_eq_append a
  have habsolute : isAbsolute (m ++ "/" ++ n) = false := by
    rw [String.append_assoc, isAbsolute_append hm.ne_empty, hm.relative]
  rw [hjoin _ habsolute, hjoin m hm.relative]
  have hassoc : head ++ (m ++ "/" ++ n) = head ++ m ++ "/" ++ n := by
    simp only [String.append_assoc]
  -- the last character of the first name is no slash
  obtain ⟨cs, c, hcs⟩ : ∃ cs c, m.toList = cs ++ [c] := by
    rcases eq_nil_or_concat m.toList with hnil | ⟨cs, c, hcs⟩
    · exact absurd (String.toList_inj.mp hnil) hm.ne_empty
    · exact ⟨cs, c, by rw [hcs, concat_eq_append]⟩
  have hc : (c == '/') = false := by
    rw [beq_eq_false_iff_ne]
    rintro rfl
    exact hm.no_slash (by rw [hcs]; simp)
  have hlist : (head ++ m).toList = (head.toList ++ cs) ++ [c] := by
    rw [String.toList_append, hcs, append_assoc]
  rw [hassoc, dirname_slash _ hn, if_neg]
  · apply String.toList_inj.mp
    rw [String.toList_ofList, hlist]
    unfold Text.dropTailWhile
    rw [reverse_append]
    simp [hc]
  · rw [hlist, all_append]
    simp [hc]

end Path

/-! ## §2. Trees with plain names. -/

namespace Path

/-- Whether a name can be that of a member of a folder. -/
def isPlain (n : String) : Bool := n != "" && n != "." && n != ".." && !n.toList.contains '/'

theorem isPlain_iff {n : String} : isPlain n ↔ IsName n ∧ n ≠ ".." := by
  unfold isPlain
  simp only [Bool.and_eq_true, bne_iff_ne, Bool.not_eq_true', contains_eq_mem,
    decide_eq_false_iff_not]
  constructor
  · rintro ⟨⟨⟨hempty, hdot⟩, hup⟩, hslash⟩
    exact ⟨⟨hempty, hdot, hslash⟩, hup⟩
  · rintro ⟨⟨hempty, hdot, hslash⟩, hup⟩
    exact ⟨⟨⟨hempty, hdot⟩, hup⟩, hslash⟩

end Path

namespace Entry

mutual
/-- Whether all names in a tree are plain. -/
def named : Entry → Bool
  | .file _ => true
  | .folder ms => namedMembers ms

/-- Whether all names of and in members are plain. -/
def namedMembers : List (String × Entry) → Bool
  | [] => true
  | (n, m) :: rest => Path.isPlain n && m.named && namedMembers rest
end

variable {n : String}

theorem namedMembers_cons {m : Entry} {rest : List (String × Entry)} : namedMembers ((n, m) :: rest)
      ↔ Path.isPlain n ∧ m.named ∧ namedMembers rest := by
  rw [namedMembers, Bool.and_eq_true, Bool.and_eq_true, and_assoc]

theorem of_mem_named {ms : List (String × Entry)} (h : namedMembers ms) {m : Entry}
    (hm : (n, m) ∈ ms) : Path.isPlain n ∧ m.named := by
  induction ms with
  | nil => cases hm
  | cons k ms ih =>
    obtain ⟨k, e⟩ := k
    obtain ⟨hk, he, hrest⟩ := namedMembers_cons.mp h
    rcases mem_cons.mp hm with heq | hm
    · cases heq
      exact ⟨hk, he⟩
    · exact ih hrest hm

theorem isPlain_of_mem_members {e : Entry} (h : e.named) (hn : n ∈ e.members.map Prod.fst) :
    Path.isPlain n := by
  cases e with
  | file b => cases hn
  | folder ms =>
    obtain ⟨⟨n, m⟩, hm, rfl⟩ := mem_map.mp hn
    exact (of_mem_named h hm).1

theorem named_member? {e x : Entry} (h : e.named) (hx : e.member? n = some x) : x.named := by
  cases e with
  | file b => cases hx
  | folder ms =>
    obtain ⟨⟨k, m⟩, hfound, rfl⟩ := Option.map_eq_some_iff.mp hx
    exact (of_mem_named h (mem_of_find?_eq_some hfound)).2

/-- What the members of a tree have, everything in it has. -/
theorem of_get? {P : Entry → Prop} (hstep : ∀ {e n x}, P e → e.member? n = some x → P x)
    {e x : Entry} {ns : List String} (h : P e) (hx : e.get? ns = some x) : P x := by
  induction ns generalizing e with
  | nil =>
    cases hx
    exact h
  | cons n ns ih =>
    rw [Entry.get?] at hx
    cases hm : e.member? n with
    | none =>
      rw [hm] at hx
      cases hx
    | some m =>
      rw [hm] at hx
      exact ih (hstep h hm) hx

end Entry

namespace World

variable {w : World} {p q : String}

theorem named_of_find (hcwd : Path.isAbsolute w.cwd) (hroot : w.root.named) {x : Entry}
    (h : w.find p = .ok x) : x.named :=
  Entry.of_get? Entry.named_member? hroot (get?_of_find hcwd h)

theorem isPlain_of_mem_list (hcwd : Path.isAbsolute w.cwd) (hroot : w.root.named) {n : String}
    (hn : n ∈ w.list p) : Path.isPlain n := by
  unfold list at hn
  split at hn
  · rename_i e hfind
    exact Entry.isPlain_of_mem_members (named_of_find hcwd hroot hfind) hn
  · cases hn

/-! ## §3. Places below a folder. -/

/-- Whether the place of a path is below that of a folder. -/
def Below (w : World) (folder p : String) :
    Prop := ∃ ns, ns ≠ [] ∧ w.placeOf p = w.placeOf folder ++ ns

theorem Below.resolve (hcwd : Path.isAbsolute w.cwd) (h : w.Below p q) :
    w.Below p (w.resolve q) := by
  obtain ⟨ns, hne, hq⟩ := h
  exact ⟨ns, hne, by rw [placeOf_resolve hcwd, hq]⟩

theorem Below.of_place {folder : String} (h : w.Below p q)
    (hplace : w.placeOf p = w.placeOf folder) : w.Below folder q := by
  unfold Below
  rw [← hplace]
  exact h

/-- What is named in a folder is below it. -/
theorem placeOf_join_plain (hcwd : Path.isAbsolute w.cwd) (a : String) {n : String}
    (hn : Path.isPlain n) : w.placeOf (Path.join a n) = w.placeOf a ++ [n] := by
  obtain ⟨hname, hup⟩ := Path.isPlain_iff.mp hn
  rw [placeOf_join hcwd a hname.relative, Path.components_of_isName hname]
  rw [Path.components_of_isName hname, mem_singleton]
  exact hup.symm

end World

/-! ## §4. Patterns. -/

namespace Glob

variable {w : World} {pattern q : String}

theorem hasWildcard_iff {s : String} :
    hasWildcard s ↔ ∃ c ∈ s.toList, (c == '*' || c == '?' || c == '[') := any_eq_true

theorem hasWildcard_of_basename (h : hasWildcard (Path.basename pattern)) :
    hasWildcard pattern := by
  obtain ⟨c, hc, hwild⟩ := hasWildcard_iff.mp h
  obtain ⟨tail, -, hp, -, -⟩ := Path.dirname_append pattern
  refine hasWildcard_iff.mpr ⟨c, ?_, hwild⟩
  rw [hp, String.toList_append]
  exact mem_append_right _ hc

variable {n : String} {foldersOnly : Bool}

/-- The folder of a name behind a folder without wildcards has none either. -/
theorem hasWildcard_dirname_join {a : String} (ha : hasWildcard a = false) (hn : Path.IsName n) :
    hasWildcard (Path.dirname (Path.join a n)) = false := by
  rw [Bool.eq_false_iff] at ha ⊢
  intro hwild
  obtain ⟨c, hc, hc'⟩ := hasWildcard_iff.mp hwild
  rcases Path.mem_dirname_join a hn hc with hmem | rfl
  · exact ha (hasWildcard_iff.mpr ⟨c, hmem, hc'⟩)
  · exact absurd hc' (by decide)

/-- What a pattern covers whose last component is a wildcard: names in the folders that the rest
    covers. -/
theorem mem_expand {depth : Nat} (hwild : hasWildcard (Path.basename pattern))
    (hq : q ∈ expand w foldersOnly depth pattern) :
    ∃ f n, n ∈ namesIn w f (Path.basename pattern) foldersOnly ∧ q = Path.join f n ∧
      (hasWildcard (Path.dirname pattern) ∧ (∃ d, f ∈ expand w true d (Path.dirname pattern)) ∨
        hasWildcard (Path.dirname pattern) = false ∧ f = Path.dirname pattern) := by
  cases depth with
  | zero => cases hq
  | succ depth =>
    rw [expand, hasWildcard_of_basename hwild, Bool.not_true, if_neg Bool.false_ne_true,
      mem_flatMap] at hq
    obtain ⟨f, hf, hq⟩ := hq
    rw [hwild, if_pos rfl] at hq
    obtain ⟨n, hn, rfl⟩ := mem_map.mp hq
    refine ⟨f, n, hn, rfl, ?_⟩
    cases hfolder : hasWildcard (Path.dirname pattern) with
    | true =>
      rw [hfolder, if_pos rfl] at hf
      exact .inl ⟨rfl, depth, hf⟩
    | false =>
      rw [hfolder, if_neg Bool.false_ne_true] at hf
      exact .inr ⟨rfl, mem_singleton.mp hf⟩

theorem isPlain_of_mem_namesIn (hcwd : Path.isAbsolute w.cwd) (hroot : w.root.named)
    {folder component : String} (hn : n ∈ namesIn w folder component foldersOnly) :
    Path.isPlain n := by
  unfold namesIn at hn
  exact World.isPlain_of_mem_list hcwd hroot (mem_filter.mp hn).1

/-- **What two wildcards behind a folder cover**: a plain name in a plain name in a folder.  If the
    folder's path has no wildcard of its own, it is that folder. -/
theorem mem_expand_join (hcwd : Path.isAbsolute w.cwd) (hroot : w.root.named) {a m : String}
    (hm : Path.IsName m) (hn : '/' ∉ n.toList) (hmwild : hasWildcard m) (hnwild : hasWildcard n)
    {depth : Nat} (hq : q ∈ expand w foldersOnly depth (Path.join a (m ++ "/" ++ n))) :
    ∃ f j k, j ∈ namesIn w f m true ∧ k ∈ namesIn w (Path.join f j) n foldersOnly ∧
      q = Path.join (Path.join f j) k ∧ (hasWildcard a = false → w.Below a q) := by
  have hbase : Path.basename (Path.join a (m ++ "/" ++ n)) = n := by
    have htwo : Path.pieces (m ++ "/" ++ n) = Path.pieces m ++ [n] := by
      rw [Path.pieces_slash, Path.pieces_of_no_slash hn]
    obtain ⟨ms, hms⟩ := Path.pieces_join_of_last htwo a
    exact Path.basename_of_pieces hms
  have hwild : hasWildcard (Path.basename (Path.join a (m ++ "/" ++ n))) := by
    rw [hbase]
    exact hnwild
  obtain ⟨f, k, hk, rfl, hf⟩ := mem_expand hwild hq
  rw [hbase] at hk
  have hmid : hasWildcard (Path.basename (Path.join a m)) := by
    rw [Path.basename_join a hm]
    exact hmwild
  rw [Path.dirname_join_slash a hm hn, hasWildcard_of_basename hmid] at hf
  obtain ⟨-, d, hf⟩ | ⟨hnone, -⟩ := hf
  case inr => cases hnone
  obtain ⟨g, j, hj, rfl, hg⟩ := mem_expand hmid hf
  rw [Path.basename_join a hm] at hj
  refine ⟨g, j, k, hj, hk, rfl, fun ha => ?_⟩
  -- the first wildcard stands for names in the folder itself
  rw [hasWildcard_dirname_join ha hm] at hg
  obtain ⟨hsome, -⟩ | ⟨-, hg⟩ := hg
  case inl => cases hsome
  have hplace : w.placeOf g = w.placeOf a := by
    rw [hg, World.placeOf_eq hcwd, World.placeOf_eq hcwd, Path.components_join_dirname_join _ _ hm]
  refine ⟨[j, k], cons_ne_nil _ _, ?_⟩
  rw [World.placeOf_join_plain hcwd _ (isPlain_of_mem_namesIn hcwd hroot hk),
    World.placeOf_join_plain hcwd _ (isPlain_of_mem_namesIn hcwd hroot hj), hplace, append_assoc]
  rfl

end Glob

end AddonAudit
