/-
  AddonAudit.Proofs.Workspace.Path — the components of paths.

  A path is its components: joining paths appends them, tidying keeps them, and a normal form
  settles them, so that each `..` cancels the component before it.  What a path leads to is said by
  its settled components.
-/
import AddonAudit.Workspace.World
import Mathlib.Data.List.Basic

namespace AddonAudit

open List

/-! ## §1. Pieces between separators. -/

namespace Text

variable {p : Char → Bool}

theorem splitWhere_ne_nil (cs : List Char) : splitWhere p cs ≠ [] := by
  cases cs with
  | nil => exact cons_ne_nil _ _
  | cons c cs =>
    unfold splitWhere
    split
    · exact cons_ne_nil _ _
    · split
      · exact cons_ne_nil _ _
      · exact cons_ne_nil _ _

/-- A separator splits a text into the pieces before it and the pieces after it. -/
theorem splitWhere_append {c : Char} (hc : p c) (a b : List Char) :
    splitWhere p (a ++ c :: b) = splitWhere p a ++ splitWhere p b := by
  induction a with
  | nil => simp [splitWhere, hc]
  | cons d a ih =>
    rw [cons_append, splitWhere, splitWhere, ih]
    split
    · rfl
    · cases hpieces : splitWhere p a with
      | nil => exact absurd hpieces (splitWhere_ne_nil a)
      | cons piece rest => rfl

theorem splitWhere_of_none {cs : List Char} (h : ∀ c ∈ cs, p c = false) :
    splitWhere p cs = [cs] := by
  induction cs with
  | nil => rfl
  | cons c cs ih =>
    have hc := h c mem_cons_self
    rw [splitWhere, if_neg (by simp [hc]), ih fun d hd => h d (mem_cons_of_mem c hd)]

/-- A piece holds characters of the text, and no separator. -/
theorem of_mem_splitWhere (cs : List Char) : ∀ piece ∈ splitWhere p cs, ∀ c ∈ piece, c ∈ cs ∧
    p c = false := by
  induction cs with
  | nil => simp [splitWhere]
  | cons d cs ih =>
    replace ih : ∀ piece ∈ splitWhere p cs, ∀ c ∈ piece, c ∈ d :: cs ∧ p c = false :=
      fun piece hpiece c hc => (ih piece hpiece c hc).imp_left (mem_cons_of_mem d)
    intro piece hpiece
    rw [splitWhere] at hpiece
    split at hpiece
    · rcases mem_cons.mp hpiece with rfl | hpiece
      · simp
      · exact ih piece hpiece
    · rename_i hd
      split at hpiece
      · rename_i first rest heq
        rw [heq] at ih
        rcases mem_cons.mp hpiece with rfl | hpiece
        · intro c hc
          rcases mem_cons.mp hc with rfl | hc
          · exact ⟨mem_cons_self, by simpa using hd⟩
          · exact ih first mem_cons_self c hc
        · exact ih piece (mem_cons_of_mem first hpiece)
      · rename_i heq
        exact absurd heq (splitWhere_ne_nil cs)

theorem startsWith_iff {s front : String} : startsWith s front ↔ ∃ rest, s = front ++ rest := by
  unfold startsWith
  rw [ isPrefixOf_iff_prefix]
  constructor
  · rintro ⟨t, ht⟩
    exact ⟨String.ofList t, String.toList_inj.mp (by rw [String.toList_append, String.toList_ofList,
      ht])⟩
  · rintro ⟨rest, rfl⟩
    exact ⟨rest.toList, by rw [String.toList_append]⟩

theorem endsWith_iff {s tail : String} : endsWith s tail ↔ ∃ start, s = start ++ tail := by
  unfold endsWith
  rw [isSuffixOf_iff_suffix]
  constructor
  · rintro ⟨t, ht⟩
    exact ⟨String.ofList t, String.toList_inj.mp (by rw [String.toList_append, String.toList_ofList,
      ht])⟩
  · rintro ⟨start, rfl⟩
    exact ⟨start.toList, by rw [String.toList_append]⟩

end Text

namespace Path

theorem pieces_slash (a b : String) : pieces (a ++ "/" ++ b) = pieces a ++ pieces b := by
  have hlist : (a ++ "/" ++ b).toList = a.toList ++ '/' :: b.toList := by
    simp [String.toList_append]
  unfold pieces Text.splitAt
  rw [hlist, Text.splitWhere_append (by decide), map_append]

variable {n p a b : String} {ns : List String}

theorem pieces_of_no_slash (h : '/' ∉ n.toList) : pieces n = [n] := by
  have hnone : ∀ c ∈ n.toList, (c == '/') = false := by
    intro c hc
    exact beq_eq_false_iff_ne.mpr fun heq => h (heq ▸ hc)
  unfold pieces Text.splitAt
  rw [Text.splitWhere_of_none hnone]
  simp

theorem no_slash_of_mem_pieces (h : n ∈ pieces p) : '/' ∉ n.toList := by
  unfold pieces Text.splitAt at h
  obtain ⟨piece, hpiece, rfl⟩ := mem_map.mp h
  rw [String.toList_ofList]
  intro hslash
  exact absurd (Text.of_mem_splitWhere _ piece hpiece '/' hslash).2 (by decide)

/-! ## §2. Components. -/

/-- The names that can be components. -/
structure IsName (n : String) : Prop where
  ne_empty : n ≠ ""
  ne_dot : n ≠ "."
  no_slash : '/' ∉ n.toList

theorem isAbsolute_of_no_slash (h : '/' ∉ n.toList) : isAbsolute n = false := by
  rw [Bool.eq_false_iff]
  intro habsolute
  obtain ⟨rest, rfl⟩ := Text.startsWith_iff.mp habsolute
  exact h (by simp [String.toList_append])

theorem IsName.relative (h : IsName n) : isAbsolute n = false := isAbsolute_of_no_slash h.no_slash

theorem isName_of_mem_components (h : n ∈ components p) : IsName n := by
  unfold components at h
  obtain ⟨hmem, hkept⟩ := mem_filter.mp h
  simp only [bne_iff_ne, Bool.and_eq_true] at hkept
  exact ⟨hkept.1, hkept.2, no_slash_of_mem_pieces hmem⟩

theorem components_slash (a b : String) :
    components (a ++ "/" ++ b) = components a ++ components b := by
  unfold components
  rw [pieces_slash, filter_append]

theorem components_empty : components "" = [] := by decide +kernel

theorem components_slash_left (b : String) : components ("/" ++ b) = components b := by
  have h := components_slash "" b
  rwa [String.empty_append, components_empty, nil_append] at h

theorem components_slash_right (a : String) : components (a ++ "/") = components a := by
  have h := components_slash a ""
  rwa [String.append_empty, components_empty, append_nil] at h

theorem components_of_isName (h : IsName n) : components n = [n] := by
  unfold components
  rw [pieces_of_no_slash h.no_slash]
  simp [h.ne_empty, h.ne_dot]

/-- Names joined by slashes are the components of what they make up. -/
theorem components_intercalate (h : ∀ n ∈ ns, IsName n) : components ("/".intercalate ns) = ns := by
  induction ns with
  | nil => exact components_empty
  | cons n ns ih =>
    have hn := components_of_isName (h n mem_cons_self)
    have ih := ih fun m hm => h m (mem_cons_of_mem n hm)
    cases ns with
    | nil => simpa using hn
    | cons m ns => rw [String.intercalate_cons_cons, components_slash, ih, hn, singleton_append]

theorem rootOf_cases (p : String) :
    isAbsolute p = false ∧ rootOf p = "" ∨ isAbsolute p ∧ (rootOf p = "/" ∨ rootOf p = "//") := by
  unfold rootOf
  cases isAbsolute p with
  | false => exact .inl ⟨rfl, rfl⟩
  | true =>
    refine .inr ⟨rfl, ?_⟩
    simp only [Bool.not_true, Bool.false_eq_true, if_false]
    split
    · exact .inr rfl
    · exact .inl rfl

theorem components_rootOf_append (p s : String) : components (rootOf p ++ s) = components s := by
  rcases rootOf_cases p with ⟨-, h⟩ | ⟨-, h | h⟩
  · rw [h, String.empty_append]
  · rw [h, components_slash_left]
  · rw [h, show ("//" : String) = "/" ++
      "/" by decide +kernel, String.append_assoc, components_slash_left, components_slash_left]

theorem components_tidy (p : String) : components (tidy p) = components p := by
  have hnames := components_intercalate fun n (hn : n ∈ components p) => isName_of_mem_components hn
  have hroot := components_rootOf_append p ("/".intercalate (components p))
  unfold tidy
  dsimp only
  split
  · rename_i hempty
    rw [beq_iff_eq.mp hempty, components_empty, hnames] at hroot
    rw [← hroot]
    decide +kernel
  · rw [hroot, hnames]

/-- What can stand before a name: nothing, or a text that ends with a slash. -/
def Front (s : String) : Prop := s = "" ∨ ∃ start, s = start ++ "/"

theorem Front.append (ha : Front a) (hb : Front b) : Front (a ++ b) := by
  rcases hb with rfl | ⟨start, rfl⟩
  · rwa [String.append_empty]
  · exact .inr ⟨a ++ start, by rw [String.append_assoc]⟩

theorem components_front (ha : Front a) (b : String) :
    components (a ++ b) = components a ++ components b := by
  rcases ha with rfl | ⟨start, rfl⟩
  · rw [String.empty_append, components_empty, nil_append]
  · rw [components_slash, components_slash_right]

/-- A path inside a folder is a text behind the folder, with a slash between them. -/
theorem join_eq_append (a : String) : ∃ head, (Front a ∧ head = a ∨ ¬ Front a ∧ head = a ++ "/") ∧
    ∀ b, isAbsolute b = false → join a b = head ++ b := by
  by_cases hfront : Front a
  · refine ⟨a, .inl ⟨hfront, rfl⟩, fun b hb => ?_⟩
    rw [join, hb, if_neg Bool.false_ne_true, if_pos]
    rcases hfront with rfl | hend
    · rfl
    · rw [Text.endsWith_iff.mpr hend, Bool.or_true]
  · refine ⟨a ++ "/", .inr ⟨hfront, rfl⟩, fun b hb => ?_⟩
    rw [join, hb, if_neg Bool.false_ne_true, if_neg]
    rw [Bool.or_eq_true, beq_iff_eq, Text.endsWith_iff]
    exact hfront

/-- The components of a path seen from a folder. -/
theorem components_join (hb : isAbsolute b = false) :
    components (join a b) = components a ++ components b := by
  obtain ⟨head, ⟨hfront, rfl⟩ | ⟨-, rfl⟩, hjoin⟩ := join_eq_append a
  · rw [hjoin b hb, components_front hfront]
  · rw [hjoin b hb, components_slash]

theorem isAbsolute_empty : isAbsolute "" = false := by decide

/-- A path is absolute if what it starts with is. -/
theorem isAbsolute_append (ha : a ≠ "") (b : String) : isAbsolute (a ++ b) = isAbsolute a := by
  unfold isAbsolute Text.startsWith
  rw [String.toList_append]
  cases hlist : a.toList with
  | nil => exact absurd (String.toList_inj.mp hlist) ha
  | cons c cs =>
    have hslash : "/".toList = ['/'] := by decide
    rw [hslash, cons_append]
    simp [isPrefixOf]

/-- A path inside a folder is absolute if the folder's is. -/
theorem isAbsolute_join_of_relative (hb : isAbsolute b = false) :
    isAbsolute (join a b) = isAbsolute a := by
  obtain ⟨head, ⟨hfront, rfl⟩ | ⟨hfront, rfl⟩, hjoin⟩ := join_eq_append a
  · rw [hjoin b hb]
    by_cases hempty : head = ""
    · rw [hempty, String.empty_append, hb, isAbsolute_empty]
    · exact isAbsolute_append hempty b
  · rw [hjoin b hb, String.append_assoc]
    exact isAbsolute_append (fun hempty => hfront (.inl hempty)) _

theorem isAbsolute_join (ha : isAbsolute a) : isAbsolute (join a b) := by
  cases hb : isAbsolute b with
  | true => rwa [join, if_pos hb]
  | false => rwa [isAbsolute_join_of_relative hb]

/-! ## §3. Settled components. -/

/-- Names after each `..` has cancelled the one before it. -/
def settle (ns : List String) : List String := (ns.foldl (pushComponent true) []).reverse

theorem pushComponent_up {top : String} (h : top ≠ "..") (rest : List String) :
    pushComponent true (top :: rest) ".." = rest := by
  show (if (".." == "..") then if top == ".." then _ else rest else _) = rest
  rw [if_pos (beq_self_eq_true _), if_neg (by simpa using h)]

theorem pushComponent_name (h : n ≠ "..") (stack : List String) :
    pushComponent true stack n = n :: stack := if_neg (by simpa using h)

/-- What is pushed onto a stack of names other than `..` leaves only such names. -/
theorem mem_pushComponent {stack : List String} {c : String} (hstack : ∀ m ∈ stack, m ≠ "..")
    (h : n ∈ pushComponent true stack c) : n ≠ ".." ∧ (n ∈ stack ∨ n = c) := by
  unfold pushComponent at h
  split at h
  · split at h
    · simp at h
    · rename_i top rest
      have htop := hstack top mem_cons_self
      rw [if_neg (by simpa using htop)] at h
      exact ⟨hstack n (mem_cons_of_mem top h), .inl (mem_cons_of_mem top h)⟩
  · rename_i hc
    rcases mem_cons.mp h with rfl | h
    · exact ⟨by simpa using hc, .inr rfl⟩
    · exact ⟨hstack n h, .inl h⟩

theorem mem_foldl_pushComponent (ns : List String) : ∀ (stack : List String),
    (∀ m ∈ stack, m ≠ "..") → ∀ n ∈ ns.foldl (pushComponent true) stack, n ≠ ".." ∧
    (n ∈ stack ∨ n ∈ ns) := by
  induction ns with
  | nil => exact fun stack hstack n hn => ⟨hstack n hn, .inl hn⟩
  | cons c ns ih =>
    intro stack hstack n hn
    have hpush : ∀ m ∈ pushComponent true stack c, m ≠ ".." :=
      fun m hm => (mem_pushComponent hstack hm).1
    obtain ⟨hne, hfrom⟩ := ih _ hpush n hn
    refine ⟨hne, ?_⟩
    rcases hfrom with hfrom | hfrom
    · rcases (mem_pushComponent hstack hfrom).2 with h | rfl
      · exact .inl h
      · exact .inr mem_cons_self
    · exact .inr (mem_cons_of_mem c hfrom)

theorem mem_settle (h : n ∈ settle ns) : n ≠ ".." ∧ n ∈ ns := by
  have hmem := mem_foldl_pushComponent ns [] (by simp) n (mem_reverse.mp h)
  exact ⟨hmem.1, hmem.2.resolve_left (not_mem_nil)⟩

/-- Names other than `..` settle where they stand. -/
theorem settle_append {ms : List String} (h : ".." ∉ ns) : settle (ms ++ ns) = settle ms ++ ns := by
  have hpush : ∀ (ns stack : List String), ".." ∉ ns →
      ns.foldl (pushComponent true) stack = ns.reverse ++ stack := by
    intro ns
    induction ns with
    | nil => exact fun _ _ => rfl
    | cons n ns ih =>
      intro stack h
      obtain ⟨hne, h⟩ := ne_and_not_mem_of_not_mem_cons h
      rw [foldl_cons, pushComponent_name hne.symm, ih _ h]
      simp
  unfold settle
  rw [foldl_append, hpush ns _ h]
  simp

theorem isAbsolute_rootOf_append (hp : isAbsolute p) (s : String) : isAbsolute (rootOf p ++ s) := by
  rcases rootOf_cases p with ⟨h, -⟩ | ⟨-, h | h⟩
  · rw [hp] at h
    cases h
  · rw [h]
    exact Text.startsWith_iff.mpr ⟨s, rfl⟩
  · rw [h]
    exact Text.startsWith_iff.mpr ⟨"/" ++ s, by rw [← String.append_assoc]; rfl⟩

theorem ne_empty_of_isAbsolute (hp : isAbsolute p) : p ≠ "" := by
  rintro rfl
  revert hp
  decide +kernel

/-- **A normal form settles the components of an absolute path.** -/
theorem components_normalize (hp : isAbsolute p) :
    components (normalize p) = settle (components p) := by
  have hnames : ∀ n ∈ settle (components p), IsName n :=
    fun n hn => isName_of_mem_components (mem_settle hn).2
  have hroot : ∀ s, rootOf p ++ s ≠ "" := fun s =>
    ne_empty_of_isAbsolute (isAbsolute_rootOf_append hp s)
  have hparts : ((components p).foldl (pushComponent (rootOf p != "")) []).reverse
      = settle (components p) := by
    rw [bne_iff_ne.mpr (by simpa using hroot "")]
    rfl
  unfold normalize
  dsimp only
  rw [hparts, if_neg (by simpa using hroot _), components_rootOf_append,
    components_intercalate hnames]

/-! ## §4. Tidy paths. -/

theorem join_of_isAbsolute (hb : isAbsolute b) : join a b = b := by
  rw [join, if_pos hb]

theorem tidy_of_isAbsolute (hp : isAbsolute p) :
    tidy p = rootOf p ++ "/".intercalate (components p) := by
  have hne := ne_empty_of_isAbsolute (isAbsolute_rootOf_append hp ("/".intercalate (components p)))
  unfold tidy
  exact if_neg (by simpa using hne)

theorem isAbsolute_tidy (hp : isAbsolute p) : isAbsolute (tidy p) := by
  rw [tidy_of_isAbsolute hp]
  exact isAbsolute_rootOf_append hp _

theorem isAbsolute_child (ha : isAbsolute a) : isAbsolute (child a b) := by
  unfold child
  split
  · rename_i hb
    exact isAbsolute_tidy hb
  · exact isAbsolute_tidy (isAbsolute_join ha)

theorem parent_of_isAbsolute (hp : isAbsolute p) :
    parent p = rootOf p ++ "/".intercalate (components p).dropLast := by
  have hne := ne_empty_of_isAbsolute
    (isAbsolute_rootOf_append hp ("/".intercalate (components p).dropLast))
  unfold parent
  exact if_neg (by simpa using hne)

theorem isAbsolute_parent (hp : isAbsolute p) : isAbsolute (parent p) := by
  rw [parent_of_isAbsolute hp]
  exact isAbsolute_rootOf_append hp _

theorem components_parent (hp : isAbsolute p) :
    components (parent p) = (components p).dropLast := by
  rw [parent_of_isAbsolute hp, components_rootOf_append]
  exact components_intercalate fun n hn => isName_of_mem_components (dropLast_subset _ hn)

/-- Names joined by slashes do not start with one. -/
theorem isAbsolute_intercalate (h : ∀ n ∈ ns, IsName n) :
    isAbsolute ("/".intercalate ns) = false := by
  cases ns with
  | nil => decide +kernel
  | cons n ns =>
    have hn := h n mem_cons_self
    obtain ⟨rest, hrest⟩ : ∃ rest, "/".intercalate (n :: ns) = n ++ rest := by
      cases ns with
      | nil => exact ⟨"", by simp⟩
      | cons m ns => exact ⟨"/" ++ "/".intercalate (m :: ns), by
          rw [String.intercalate_cons_cons, String.append_assoc]⟩
    rw [Bool.eq_false_iff]
    intro habsolute
    obtain ⟨rest', hslash⟩ := Text.startsWith_iff.mp habsolute
    have hchars := congrArg String.toList (hrest.symm.trans hslash)
    rw [String.toList_append, String.toList_append] at hchars
    cases hlist : n.toList with
    | nil => exact hn.ne_empty (String.toList_inj.mp hlist)
    | cons c cs =>
      rw [hlist] at hchars
      have hc : c = '/' := (cons.inj hchars).1
      exact hn.no_slash (by rw [hlist, hc]; exact mem_cons_self)

/-- The slashes before a path that starts with none are its root. -/
theorem rootOf_rootOf_append {s : String} (hs : isAbsolute s = false) (hp : isAbsolute p) :
    rootOf (rootOf p ++ s) = rootOf p := by
  have hstart : ∀ front : String, Text.startsWith (front ++ s) (front ++ "/") = false := by
    intro front
    rw [Bool.eq_false_iff]
    intro h
    obtain ⟨rest, hrest⟩ := Text.startsWith_iff.mp h
    rw [String.append_assoc] at hrest
    have hslash := String.append_right_inj front |>.mp hrest
    rw [isAbsolute, Text.startsWith_iff.mpr ⟨rest, hslash⟩] at hs
    cases hs
  have habsolute := isAbsolute_rootOf_append hp s
  rcases rootOf_cases p with ⟨h, -⟩ | ⟨-, h | h⟩
  · rw [hp] at h
    cases h
  · rw [h] at habsolute ⊢
    have hone : Text.startsWith ("/" ++ s) "//" = false := hstart "/"
    rw [rootOf, habsolute, hone]
    rfl
  · rw [h] at habsolute ⊢
    have htwo : Text.startsWith ("//" ++ s) "//" := Text.startsWith_iff.mpr ⟨s, rfl⟩
    have hthree : Text.startsWith ("//" ++ s) "///" = false := hstart "//"
    rw [rootOf, habsolute, htwo, hthree]
    rfl

theorem tidy_tidy (hp : isAbsolute p) : tidy (tidy p) = tidy p := by
  have hnames := isAbsolute_intercalate fun n (hn : n ∈ components p) => isName_of_mem_components hn
  rw [tidy_of_isAbsolute (isAbsolute_tidy hp), components_tidy]
  rw [tidy_of_isAbsolute hp, rootOf_rootOf_append hnames hp]

theorem tidy_child (ha : isAbsolute a) : tidy (child a b) = child a b := by
  unfold child
  split
  · rename_i hb
    exact tidy_tidy hb
  · exact tidy_tidy (isAbsolute_join ha)

theorem front_rootOf (p : String) : Front (rootOf p) := by
  rcases rootOf_cases p with ⟨-, h⟩ | ⟨-, h | h⟩
  · exact .inl h
  · exact .inr ⟨"", by rw [h, String.empty_append]⟩
  · exact .inr ⟨"/", by rw [h]; decide +kernel⟩

theorem intercalate_concat (ns : List String) (n : String) :
    ∃ front, Front front ∧ "/".intercalate (ns ++ [n]) = front ++ n := by
  induction ns with
  | nil => exact ⟨"", .inl rfl, by simp⟩
  | cons m ns ih =>
    obtain ⟨front, hfront, hns⟩ := ih
    refine ⟨m ++ "/" ++ front, Front.append (.inr ⟨m, rfl⟩) hfront, ?_⟩
    have hcons : "/".intercalate (m :: (ns ++ [n])) = m ++ "/" ++ "/".intercalate (ns ++ [n]) := by
      cases hall : ns ++ [n] with
      | nil => simp at hall
      | cons k ks => rw [String.intercalate_cons_cons]
    simp only [cons_append, hcons, hns, String.append_assoc]

/-- **The last piece of a tidy path is its last component.** -/
theorem pieces_tidy (h : components p = ns ++ [n]) : ∃ ms, pieces (tidy p) = ms ++ [n] := by
  have hn : IsName n := isName_of_mem_components (by rw [h]; simp)
  have hpiece := pieces_of_no_slash hn.no_slash
  obtain ⟨front, hfront, hns⟩ := intercalate_concat ns n
  have htidy : tidy p = rootOf p ++ front ++ n := by
    unfold tidy
    rw [h, hns, if_neg, String.append_assoc]
    intro hempty
    have hchars := congrArg String.toList (beq_iff_eq.mp hempty)
    simp [String.toList_append, hn.ne_empty] at hchars
  rw [htidy]
  rcases (front_rootOf p).append hfront with hnone | ⟨start, hstart⟩
  · rw [hnone, String.empty_append, hpiece]
    exact ⟨[], rfl⟩
  · rw [hstart, pieces_slash, hpiece]
    exact ⟨_, rfl⟩

theorem drop_slashes (rest : String) : Text.drop ("//" ++ rest) 1 = "/" ++ rest := by
  unfold Text.drop
  apply String.toList_inj.mp
  rw [String.toList_ofList, String.toList_append, String.toList_append]
  rfl

theorem basename_tidy (h : components p = ns ++ [n]) : basename (tidy p) = n := by
  obtain ⟨ms, hms⟩ := pieces_tidy h
  rw [basename, hms]
  simp

end Path

/-- **The absolute form of a path settles its components**, seen from the current folder. -/
theorem World.components_resolve {w : World} (hcwd : Path.isAbsolute w.cwd) (p : String) :
    Path.components (w.resolve p) = Path.settle (Path.components (Path.join w.cwd p)) := by
  have hnormal := Path.components_normalize (Path.isAbsolute_join (b := p) hcwd)
  unfold resolve
  dsimp only
  split
  · rename_i hslashes
    obtain ⟨rest, hrest⟩ := Text.startsWith_iff.mp hslashes
    have hwhole : Path.components (Path.absolute w.cwd p) = Path.components ("/" ++ rest) := by
      rw [hrest, show ("//" : String) = "/" ++ "/" by decide +kernel, String.append_assoc,
        Path.components_slash_left]
    rw [hrest, Path.drop_slashes, ← hwhole]
    exact hnormal
  · exact hnormal

end AddonAudit
