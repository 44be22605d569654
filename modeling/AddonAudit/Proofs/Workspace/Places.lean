/-
  AddonAudit.Proofs.Workspace.Places — paths that lead to the same place.

  The absolute form of a path has the settled components of the path and no others.  So it leads
  where the path leads, if that leads anywhere: a walk back over `..` ends where the settled
  components do.
-/
import AddonAudit.Proofs.Workspace.Files

namespace AddonAudit

open List

/-! ## §1. Walks in parts. -/

section Walks

variable {r e x : Entry} {n : String} {names : List String} {up : List Entry}

/-- **A walk can be made in parts.** -/
theorem followNames_append (ns : List String) {ms : List String} (hs : Stands r names (e :: up))
    (hx : followNames (e :: up) ms = .ok x) :
    ∃ up', Stands r ((followed ms).foldl (Path.pushComponent true) names) (x :: up') ∧
      followNames (e :: up) (ms ++ ns) = followNames (x :: up') ns := by
  induction ms generalizing names e up with
  | nil =>
    cases hx
    exact ⟨up, hs, rfl⟩
  | cons n ms ih =>
    obtain ⟨-, e', up', hs', hnext⟩ := followNames_step_ok hs hx
    rw [hnext] at hx
    obtain ⟨up'', hs'', happend⟩ := ih hs' hx
    refine ⟨up'', ?_, by rw [cons_append, hnext, happend]⟩
    rwa [followed_cons, foldl_append]

/-- **What is passed over does not count in a walk**, unless it goes on with nothing else after a
    file. -/
theorem followNames_followed {ns : List String} :
    followNames (e :: up) ns = followNames (e :: up) (followed ns) ∨
      (∃ k ∈ ns.getLast?, followed [k] = []) ∧ followNames (e :: up) ns = .error .notFolder ∧
        ∃ b, followNames (e :: up) (followed ns) = .ok (.file b) := by
  induction ns generalizing e up with
  | nil => exact .inl rfl
  | cons n ns ih =>
    have hlast : (∃ k ∈ ns.getLast?, followed [k] = []) →
        ∃ k ∈ (n :: ns).getLast?, followed [k] = [] := by
      rintro ⟨k, hk, hskip⟩
      exact ⟨k, by rw [getLast?_cons, Option.mem_def.mp hk]; rfl, hskip⟩
    have hnext {e : Entry} {up : List Entry} := (@ih e up).imp_right (And.imp_left hlast)
    cases e with
    -- a slash or a dot behind a file is the one difference
    | file b =>
      cases hnone : followed (n :: ns) with
      | nil =>
        obtain ⟨k, hk⟩ : ∃ k, (n :: ns).getLast? = some k := ⟨_, getLast?_cons⟩
        have hskip := filter_eq_nil_iff.mp hnone k (mem_of_getLast? hk)
        exact .inr ⟨⟨k, hk, filter_cons_of_neg hskip⟩, rfl, b, rfl⟩
      | cons m ms => exact .inl rfl
    | folder ms =>
      by_cases hskip : (n == "" || n == ".")
      · rw [followed_skip hskip, followNames_folder, if_pos hskip]
        exact hnext
      · rw [followed_keep hskip, followNames_folder, followNames_folder, if_neg hskip, if_neg hskip]
        by_cases hup : (n == "..")
        · rw [if_pos hup, if_pos hup]
          cases up with
          | nil => exact hnext
          | cons e up => exact hnext
        · rw [if_neg hup, if_neg hup]
          cases (Entry.folder ms).member? n with
          | none => exact .inl rfl
          | some m => exact hnext

/-- A walk that ends with a name is the same without what is passed over. -/
theorem followNames_concat (hn : Path.IsName n) {ns : List String} :
    followNames (e :: up) (ns ++ [n]) = followNames (e :: up) (followed (ns ++ [n])) := by
  refine followNames_followed.resolve_right fun ⟨⟨k, hk, hskip⟩, _⟩ => ?_
  rw [getLast?_concat, Option.mem_some_iff] at hk
  rw [← hk, followed_of_names (by simpa using hn)] at hskip
  cases hskip

/-- A walk to a folder can be made with what is passed over. -/
theorem followNames_of_followed {ms : List (String × Entry)} {ns : List String}
    (hx : followNames (e :: up) (followed ns) = .ok (.folder ms)) :
    followNames (e :: up) ns = .ok (.folder ms) := by
  rcases followNames_followed with heq | ⟨-, -, b, hb⟩
  · exact heq.trans hx
  · cases hx.symm.trans hb

end Walks

/-! ## §2. Joined paths. -/

namespace Path

/-- The components of a path inside a folder, both seen from another folder. -/
theorem components_join_join (c a : String) {b : String} (hb : isAbsolute b = false) :
    components (join c (join a b)) = components (join c a) ++ components b := by
  have hab := isAbsolute_join_of_relative (a := a) hb
  cases ha : isAbsolute a with
  | true =>
    rw [ha] at hab
    rw [join_of_isAbsolute hab, join_of_isAbsolute ha, components_join hb]
  | false =>
    rw [ha] at hab
    rw [components_join hab, components_join ha, components_join hb, append_assoc]

theorem isAbsolute_tidy_eq (p : String) : isAbsolute (tidy p) = isAbsolute p := by
  cases hp : isAbsolute p with
  | true => exact isAbsolute_tidy hp
  | false =>
    have hnames := isAbsolute_intercalate fun n (hn : n ∈ components p) =>
      isName_of_mem_components hn
    have hroot : rootOf p = "" := by
      unfold rootOf
      rw [hp]
      rfl
    unfold tidy
    rw [hroot, String.empty_append]
    dsimp only
    split
    · decide
    · exact hnames

/-- Tidying a path changes no component, from wherever it is seen. -/
theorem components_join_tidy (c p : String) :
    components (join c (tidy p)) = components (join c p) := by
  cases hp : isAbsolute p with
  | true =>
    rw [join_of_isAbsolute hp, join_of_isAbsolute (isAbsolute_tidy hp), components_tidy]
  | false =>
    rw [components_join hp, components_join (by rw [isAbsolute_tidy_eq, hp]), components_tidy]

theorem components_join_child (c a : String) {b : String} (hb : isAbsolute b = false) :
    components (join c (child a b)) = components (join c a) ++ components b := by
  unfold child
  rw [hb, if_neg Bool.false_ne_true, components_join_tidy, components_join_join c a hb]

/-- A path that ends with a piece still does when it is seen from a folder. -/
theorem pieces_join_of_last {b n : String} {ms : List String} (hb : pieces b = ms ++ [n])
    (a : String) : ∃ ms', pieces (join a b) = ms' ++ [n] := by
  cases habsolute : isAbsolute b with
  | true => exact ⟨ms, by rw [join_of_isAbsolute habsolute, hb]⟩
  | false =>
    obtain ⟨head, ⟨rfl | ⟨start, rfl⟩, rfl⟩ | ⟨-, rfl⟩, hjoin⟩ := join_eq_append a
    · exact ⟨ms, by rw [hjoin b habsolute, String.empty_append, hb]⟩
    · exact ⟨pieces start ++ ms, by rw [hjoin b habsolute, pieces_slash, hb, append_assoc]⟩
    · exact ⟨pieces a ++ ms, by rw [hjoin b habsolute, pieces_slash, hb, append_assoc]⟩

theorem pieces_child (a : String) {n : String} (hn : IsName n) :
    ∃ ms, pieces (child a n) = ms ++ [n] := by
  have hjoin : components (join a n) = components a ++ [n] := by
    rw [components_join hn.relative, components_of_isName hn]
  unfold child
  rw [hn.relative, if_neg Bool.false_ne_true]
  exact pieces_tidy hjoin

theorem settle_of_not_mem {ns : List String} (h : ".." ∉ ns) : settle ns = ns :=
  show settle ([] ++ ns) = settle [] ++ ns from settle_append h

end Path

/-! ## §3. Settled walks. -/

/-- Names that lead to an entry can be walked. -/
theorem followNames_of_get? {e x : Entry} {ns : List String} {up : List Entry}
    (hns : ∀ n ∈ ns, Path.IsName n ∧ n ≠ "..") (hx : e.get? ns = some x) :
    followNames (e :: up) ns = .ok x := by
  induction ns generalizing e up with
  | nil =>
    cases hx
    rfl
  | cons n ns ih =>
    obtain ⟨hn, hup⟩ := hns n mem_cons_self
    cases e with
    | file b => cases hx
    | folder ms =>
      rw [followNames_folder, if_neg (by simp [hn.ne_empty, hn.ne_dot]),
        if_neg (by simpa using hup)]
      rw [Entry.get?] at hx
      cases hm : (Entry.folder ms).member? n with
      | none =>
        rw [hm] at hx
        cases hx
      | some m =>
        rw [hm] at hx
        exact ih (fun k hk => hns k (mem_cons_of_mem n hk)) hx

/-! ## §4. Absolute forms. -/

namespace World

variable {w : World} {p n : String} {x : Entry}

theorem placeOf_eq (hcwd : Path.isAbsolute w.cwd) (p : String) :
    w.placeOf p = Path.settle (Path.components (Path.join w.cwd p)) := components_resolve hcwd p

theorem find_eq (h : p ≠ "") :
    w.find p = followNames [w.root] (Path.pieces (Path.join w.cwd p)) := by
  rw [find, if_neg (by simpa using h)]

theorem holds_of_find (h : w.find p = .ok x) : w.holds p := by
  unfold holds
  rw [h]
  rfl

/-- What a walk along the components of a path leads to, if the path leads to a folder. -/
theorem followNames_of_find (h : w.find p = .ok x) :
    followNames [w.root] (Path.components (Path.join w.cwd p)) = .ok x := by
  unfold find at h
  split at h
  · cases h
  · rcases @followNames_followed w.root [] (Path.pieces (Path.join w.cwd p)) with heq | ⟨-, herror,
      -⟩
    · exact heq.symm.trans h
    · cases h.symm.trans herror

theorem ne_empty_of_last {ms : List String} (h : Path.pieces p = ms ++ [n]) (hn : Path.IsName n) :
    p ≠ "" := by
  rintro rfl
  have hlast := congrArg getLast? h
  rw [getLast?_concat, show Path.pieces "" = [""] by decide] at hlast
  exact hn.ne_empty (Option.some.inj hlast).symm

/-- A path that ends with a name is found along its components. -/
theorem find_of_last {ms : List String} (hms : Path.pieces p = ms ++ [n]) (hn : Path.IsName n)
    (w : World) : w.find p = followNames [w.root] (Path.components (Path.join w.cwd p)) := by
  obtain ⟨ms', hms'⟩ := Path.pieces_join_of_last hms w.cwd
  rw [find_eq (ne_empty_of_last hms hn), hms', followNames_concat hn, ← hms']
  rfl

/-- What is found under a name in a folder, by whatever path. -/
theorem find_child (a : String) (hn : Path.IsName n) (x : Entry) : w.find (Path.child a n) = .ok x
      ↔ followNames [w.root] (Path.components (Path.join w.cwd a) ++ [n]) = .ok x := by
  obtain ⟨ms, hms⟩ := Path.pieces_child a hn
  rw [find_of_last hms hn, Path.components_join_child _ _ hn.relative, Path.components_of_isName hn]

variable (hcwd : Path.isAbsolute w.cwd = true)

include hcwd

/-- The place of a path is made of names. -/
theorem isName_of_mem_placeOf {n : String} (hn : n ∈ w.placeOf p) : Path.IsName n ∧ n ≠ ".." := by
  refine ⟨Path.isName_of_mem_components hn, ?_⟩
  rw [placeOf_eq hcwd] at hn
  exact (Path.mem_settle hn).1

theorem isAbsolute_resolve (p : String) : Path.isAbsolute (w.resolve p) := by
  have hjoin := Path.isAbsolute_join (b := p) hcwd
  have hnormal : Path.isAbsolute (Path.absolute w.cwd p) := by
    unfold Path.absolute Path.normalize
    dsimp only
    rw [if_neg]
    · exact Path.isAbsolute_rootOf_append hjoin _
    · simpa using Path.ne_empty_of_isAbsolute (Path.isAbsolute_rootOf_append hjoin _)
  unfold resolve
  dsimp only
  split
  · rename_i hslashes
    obtain ⟨rest, hrest⟩ := Text.startsWith_iff.mp hslashes
    rw [hrest, Path.drop_slashes]
    exact Text.startsWith_iff.mpr ⟨rest, rfl⟩
  · exact hnormal

/-- **The place of a path inside a folder** is below that of the folder. -/
theorem placeOf_join (a : String) {b : String} (hb : Path.isAbsolute b = false)
    (hup : ".." ∉ Path.components b) :
    w.placeOf (Path.join a b) = w.placeOf a ++ Path.components b := by
  rw [placeOf_eq hcwd, placeOf_eq hcwd, Path.components_join_join _ _ hb, Path.settle_append hup]

/-- The absolute form of a path leads to its place. -/
theorem placeOf_resolve (p : String) : w.placeOf (w.resolve p) = w.placeOf p := by
  have hup : ".." ∉ w.placeOf p := fun hmem => (isName_of_mem_placeOf hcwd hmem).2 rfl
  rw [placeOf_eq hcwd, Path.join_of_isAbsolute (isAbsolute_resolve hcwd p)]
  exact Path.settle_of_not_mem hup

/-- What a path leads to is where its absolute form is walked to. -/
theorem followNames_placeOf {x : Entry} (h : followNames [w.root]
    (Path.components (Path.join w.cwd p)) = .ok x) : followNames [w.root]
    (w.placeOf p) = .ok x := by
  obtain ⟨up', hs, -⟩ := followNames_append [] .root h
  have hget := hs.get?
  rw [followed_of_names fun n hn => Path.isName_of_mem_components hn] at hget
  refine followNames_of_get? (fun n hn => isName_of_mem_placeOf hcwd hn) ?_
  rw [placeOf_eq hcwd]
  exact hget

/-- **The absolute form of a path to a folder leads to it.** -/
theorem find_resolve {ms : List (String × Entry)}
    (h : followNames [w.root] (Path.components (Path.join w.cwd p)) = .ok (.folder ms)) :
    w.find (w.resolve p) = .ok (.folder ms) := by
  have habsolute := isAbsolute_resolve hcwd p
  rw [find_eq (Path.ne_empty_of_isAbsolute habsolute), Path.join_of_isAbsolute habsolute]
  have hplace := followNames_placeOf hcwd h
  exact followNames_of_followed hplace

/-- **What is in a folder is found through its absolute form**, and nothing else is. -/
theorem find_child_resolve {ms : List (String × Entry)}
    (h : followNames [w.root] (Path.components (Path.join w.cwd p)) = .ok (.folder ms)) {n : String}
    (hn : Path.IsName n) (hup : n ≠ "..") (x : Entry) :
    w.find (Path.child (w.resolve p) n) = .ok x ↔ w.find (Path.child p n) = .ok x := by
  have habsolute := isAbsolute_resolve hcwd p
  have hnames : ∀ k ∈ Path.components (Path.join w.cwd p), Path.IsName k :=
    fun k hk => Path.isName_of_mem_components hk
  -- both walks come to the folder, and go on from it alike
  obtain ⟨up, -, hleft⟩ := followNames_append [n] .root h
  obtain ⟨up', -, hright⟩ := followNames_append [n] .root (followNames_placeOf hcwd h)
  have hlast : ∀ up, followNames (.folder ms :: up) [n]
      = ((Entry.folder ms).member? n).elim (.error .missing) .ok := by
    intro up
    rw [followNames_folder, if_neg (by simp [hn.ne_empty, hn.ne_dot]), if_neg (by simpa using hup)]
    cases (Entry.folder ms).member? n <;> rfl
  rw [find_child _ hn, find_child _ hn, Path.join_of_isAbsolute habsolute]
  rw [hleft, hlast]
  rw [show Path.components (w.resolve p) = w.placeOf p from rfl, hright, hlast]

end World

end AddonAudit
