/-
  AddonAudit.Proofs.Workspace.Keeping — what a session keeps of a tree.

  A session keeps a set of places if all folders stay, and each file at one of these places stays as
  it is, however the session ends.  Making folders keeps every place; writing or removing a file
  keeps every place but its own.  What a path leads to is found again by it, if it is a folder or at
  a place that is kept.
-/
import AddonAudit.Proofs.Channel
import AddonAudit.Proofs.Workspace.View

namespace AddonAudit

open List AddonAudit.Path Entry

namespace World

variable {P : List String → Prop} {w w' : World} {p : String} {new : Entry}

/-! ## §1. Worlds that keep places. -/

/-- Whether a world has the folders of another one, and the same files at the places of a set. -/
def Keeps (P : List String → Prop) (w w' : World) : Prop :=
  isAbsolute w.cwd → w'.cwd = w.cwd ∧
    ∀ q k, w.root.view q = some k → k = .folder ∨ P q → w'.root.view q = some k

instance : Std.Refl (Keeps P) := ⟨fun _ _ => ⟨rfl, fun _ _ hq _ => hq⟩⟩

instance : Trans (Keeps P) (Keeps P) (Keeps P) where
  trans := by
    intro w₁ w₂ w₃ h₁ h₂ hcwd
    obtain ⟨hcwd₁, hview₁⟩ := h₁ hcwd
    obtain ⟨hcwd₂, hview₂⟩ := h₂ (by rwa [hcwd₁])
    exact ⟨hcwd₂.trans hcwd₁, fun q k hq hk => hview₂ q k (hview₁ q k hq hk) hk⟩

theorem Keeps.isAbsolute (h : w.Keeps P w') (hcwd : isAbsolute w.cwd) : isAbsolute w'.cwd := by
  rwa [(h hcwd).1]

/-- **What is found by a path is found by it again**, a folder as a folder and a file that is kept
    with its bytes. -/
theorem Keeps.find (h : w.Keeps P w') (hcwd : Path.isAbsolute w.cwd) {x : Entry}
    (hx : w.find p = .ok x) (hkept : x.kind = .folder ∨ P (w.placeOf p)) :
    ∃ x', w'.find p = .ok x' ∧ x'.kind = x.kind := by
  obtain ⟨hsame, hview⟩ := h hcwd
  have hplace := get?_of_find hcwd hx
  have hcovers : w.root.Covers w'.root (w.placeOf p) := by
    intro q m hm hway
    have hstays : m.kind = .folder ∨ P q := by
      rcases hway with hfolder | hq
      · cases m with
        | file b => cases hfolder
        | folder ms => exact .inl rfl
      · rw [hq, hplace] at hm
        rwa [hq, ← Option.some.inj hm]
    obtain ⟨m', hm', hkind⟩ := get?_of_view (hview q m.kind (view_of_get? hm) hstays)
    exact ⟨m', hm', isFile_of_kind hkind⟩
  obtain ⟨x', hx', hget⟩ := find_of_covers hcwd hsame hx hcovers
  have hkind := hview _ _ (view_of_get? hplace) hkept
  exact ⟨x', hx', Option.some.inj ((view_of_get? hget).symm.trans hkind)⟩

theorem Keeps.find_file (h : w.Keeps P w') (hcwd : Path.isAbsolute w.cwd) {b : ByteArray}
    (hb : w.find p = .ok (.file b)) (hkept : P (w.placeOf p)) : w'.find p = .ok (.file b) := by
  obtain ⟨x, hx, hkind⟩ := h.find hcwd hb (.inr hkept)
  rw [hx, kind_eq_file_iff.mp hkind]

theorem Keeps.find_folder (h : w.Keeps P w') (hcwd : Path.isAbsolute w.cwd)
    {ms : List (String × Entry)} (hms : w.find p = .ok (.folder ms)) :
    ∃ ms', w'.find p = .ok (.folder ms') := by
  obtain ⟨x, hx, hkind⟩ := h.find hcwd hms (.inl rfl)
  obtain ⟨ms', rfl⟩ := kind_eq_folder_iff.mp hkind
  exact ⟨ms', hx⟩

theorem keeps_relog (w : World) (l : Log) :
    w.Keeps P (w.relog l) := fun _ => ⟨rfl, fun _ _ hq _ => hq⟩

/-- What is put at a free place keeps all places but those of files that it replaces. -/
theorem keeps_put (hfree : w.root.Free (w.placeOf p)) (hnew : ∀ n ns, new.view (n :: ns) = none)
    (hP : w.root.view (w.placeOf p) = none ∨ ¬ P (w.placeOf p)) : w.Keeps P (w.put p new) := by
  refine fun _ => ⟨cwd_put w p new, fun q k hq hk => ?_⟩
  rw [root_put, view_put hfree hnew, Function.update_of_ne, hq]
  intro heq
  rw [heq] at hq hk
  rcases hP with hnone | hP
  · rw [hnone] at hq
    cases hq
  · obtain rfl := hk.resolve_right hP
    obtain ⟨-, -, -, -, hno⟩ := hfree
    exact hno hq

/-! ## §2. Places below a folder. -/

section Below

variable (hcwd : Path.isAbsolute w.cwd = true) (hp : Path.isAbsolute p = true)

include hcwd hp

theorem placeOf_of_isAbsolute : w.placeOf p = settle (components p) := by
  rw [placeOf_eq hcwd, join_of_isAbsolute hp]

/-- A walk goes on from the folder above a path to the entry in its place, if there is one. -/
theorem followNames_components {ms : List (String × Entry)}
    (habove : w.find (parent p) = .ok (.folder ms)) :
    followNames [w.root] (components p) = (w.root.get? (w.placeOf p)).elim
    (.error .missing) .ok := by
  have hwalk := followNames_of_find habove
  rw [join_of_isAbsolute (isAbsolute_parent hp), components_parent hp] at hwalk
  rw [placeOf_of_isAbsolute hcwd hp]
  rcases eq_nil_or_concat' (components p) with hnil | ⟨cs, c, hcs⟩
  · rw [hnil]
    rfl
  · have hnames : ∀ n ∈ cs ++ [c], IsName n := fun n hn => isName_of_mem_components (hcs ▸ hn)
    rw [hcs, dropLast_concat] at hwalk
    obtain ⟨up, hs, hnext⟩ := followNames_append [c] .root hwalk
    rw [hcs, hnext]
    have hplace : settle (cs ++ [c])
        = ((followed [c]).foldl (pushComponent true) ((followed cs).foldl (pushComponent true)
        [])).reverse := by
      rw [← foldl_append, followed_of_names fun n hn => hnames n (by simp [hn]),
        followed_of_names fun n hn => hnames n (by simp at hn; simp [hn])]
      rfl
    rw [hplace]
    rcases followNames_step hs c with ⟨m, up', hs', hstep⟩ | ⟨hnone, hstep⟩
    · rw [hs'.get?, hstep]
      rfl
    · rw [hnone, hstep]
      rfl

/-- **Where a path leads nowhere from the folder above it**, there is nothing, and a place for an
    entry. -/
theorem free_of_missing {ms : List (String × Entry)} (hmissing : w.find p = .error .missing)
    (habove : w.find (parent p) = .ok (.folder ms)) :
    w.root.view (w.placeOf p) = none ∧ w.root.Free (w.placeOf p) := by
  have hwalk : followNames [w.root] (components p) = .error .missing := by
    rw [find_eq (ne_empty_of_isAbsolute hp), join_of_isAbsolute hp] at hmissing
    rcases @followNames_followed w.root [] (pieces p) with heq | ⟨-, herror, -⟩
    · exact heq.symm.trans hmissing
    · cases hmissing.symm.trans herror
  have hnone : w.root.view (w.placeOf p) = none := by
    have hget := followNames_components hcwd hp habove
    rw [hwalk] at hget
    unfold view
    cases hplace : w.root.get? (w.placeOf p) with
    | none => rfl
    | some x =>
      rw [hplace] at hget
      cases hget
  refine ⟨hnone, ?_⟩
  rw [placeOf_of_isAbsolute hcwd hp] at hnone ⊢
  have hfolder := get?_of_find hcwd habove
  rw [placeOf_of_isAbsolute hcwd (isAbsolute_parent hp), components_parent hp] at hfolder
  rcases eq_nil_or_concat' (components p) with hnil | ⟨cs, c, hcs⟩
  · rw [hnil] at hwalk
    cases hwalk
  · rw [hcs] at hnone hwalk ⊢
    rw [hcs, dropLast_concat] at hfolder
    -- a walk back leads somewhere
    have hup : c ≠ ".." := by
      rintro rfl
      have hback := followNames_of_find habove
      rw [join_of_isAbsolute (isAbsolute_parent hp), components_parent hp, hcs,
        dropLast_concat] at hback
      obtain ⟨up, -, hnext⟩ := followNames_append [".."] .root hback
      rw [hnext, followNames_folder, if_neg (by decide), if_pos (by decide)] at hwalk
      cases up <;> cases hwalk
    have hsettle : settle (cs ++ [c]) = settle cs ++ [c] := settle_append (by simpa using hup.symm)
    exact ⟨settle cs, c, hsettle, view_of_get? hfolder, by simp [hnone]⟩

end Below

/-- Where a file can be written: over a file, or into a folder in which there is nothing of its
    name. -/
def Writable (w : World) (p : String) : Prop :=
  (∃ b, w.find p = .ok (.file b)) ∨
    w.find p = .error .missing ∧ ∃ ms, w.find (parent p) = .ok (.folder ms)

theorem Writable.free (h : w.Writable p) (hcwd : Path.isAbsolute w.cwd) (hp : Path.isAbsolute p) :
    w.root.Free (w.placeOf p) := by
  rcases h with ⟨b, hb⟩ | ⟨hmissing, ms, habove⟩
  · exact .of_file (kind_eq_folder_iff.mpr (root_of_find hb)) (view_of_get? (get?_of_find hcwd hb))
  · exact (free_of_missing hcwd hp hmissing habove).2

/-- **A file that is written is found.** -/
theorem Writable.find_put (h : w.Writable p) (hcwd : Path.isAbsolute w.cwd) (hp : Path.isAbsolute p)
    {n : String} {ns : List String} (hlast : pieces p = ns ++ [n]) (hn : IsName n) (b : ByteArray) :
    (w.put p (.file b)).find p = .ok (.file b) := by
  rcases h with ⟨b', hb'⟩ | ⟨hmissing, ms, habove⟩
  · exact World.find_put hcwd hb' b
  · obtain ⟨hnone, hfree⟩ := free_of_missing hcwd hp hmissing habove
    have hkeeps : w.Keeps (fun _ => False) (w.put p (.file b)) :=
      keeps_put hfree (view_file_cons b) (.inl hnone)
    obtain ⟨ms', habove'⟩ := hkeeps.find_folder hcwd habove
    have hcwd' := hkeeps.isAbsolute hcwd
    rw [find_of_last hlast hn, join_of_isAbsolute hp, followNames_components hcwd' hp habove',
      placeOf_of_isAbsolute hcwd' hp, ← placeOf_of_isAbsolute hcwd hp, root_put, get?_put_self]
    rfl

end World

/-! ## §3. Sessions. -/

namespace Session

variable {P : List String → Prop} {w w' : World} {p : String} {bytes : ByteArray}

theorem Moves.of_ok {R : World → World → Prop} {α : Type} {x : Session α} {a : α} (h : Moves R x)
    (hx : x w = .ok a w') : R w w' := by
  have hw := h w
  unfold leaves at hw
  rwa [hx] at hw

/-- A file that is written is put where it can be, or nothing changes. -/
theorem writeBytes_cases (hp : isAbsolute p) (bytes : ByteArray) (w : World) :
    (w.Writable p ∧ writeBytes p bytes w = .ok () (w.put p (.file bytes))) ∨
      ∃ f, writeBytes p bytes w = .error f w := by
  unfold writeBytes
  rw [get_bind]
  cases hfind : w.find p with
  | ok x =>
    cases x with
    | file b => exact .inl ⟨.inl ⟨b, hfind⟩, rfl⟩
    | folder ms => exact .inr ⟨_, rfl⟩
  | error a =>
    cases a with
    | notFolder => exact .inr ⟨_, rfl⟩
    | missing =>
      dsimp only
      rw [join_of_isAbsolute hp]
      cases habove : w.find (parent p) with
      | ok x =>
        cases x with
        | file b => exact .inr ⟨_, rfl⟩
        | folder ms => exact .inl ⟨.inr ⟨hfind, ms, habove⟩, rfl⟩
      | error a => exact .inr ⟨_, rfl⟩

/-- What a session keeps that ends well in a world of a kind, or leaves the world as it is. -/
theorem moves_of_cases {R : World → World → Prop} [Std.Refl R] {α : Type} {x : Session α}
    (h : ∀ w, (∃ a w', x w = .ok a w' ∧ R w w') ∨ ∃ f, x w = .error f w) : Moves R x := by
  intro w
  unfold leaves
  rcases h w with ⟨a, w', hx, hw⟩ | ⟨f, hx⟩
  · rw [hx]
    exact hw
  · rw [hx]
    exact Std.Refl.refl w

/-- **Writing a file keeps every other place.** -/
theorem keeps_writeBytes (hp : isAbsolute p) (hP : ¬ P (settle (components p)))
    (bytes : ByteArray) : Moves (World.Keeps P) (writeBytes p bytes) := by
  refine moves_of_cases fun w => (writeBytes_cases hp bytes w).imp_left ?_
  rintro ⟨hwritable, hok⟩
  refine ⟨(), _, hok, fun hcwd => ?_⟩
  rw [← World.placeOf_of_isAbsolute hcwd hp] at hP
  exact World.keeps_put (hwritable.free hcwd hp) (view_file_cons bytes) (.inr hP) hcwd

/-- **Removing a file keeps every other place.** -/
theorem keeps_removeFile (hp : isAbsolute p) (hP : ¬ P (settle (components p))) :
    Moves (World.Keeps P) (removeFile p) := by
  refine moves_of_cases fun w => ?_
  unfold removeFile
  rw [get_bind]
  cases hfind : w.find p with
  | error a => exact .inr ⟨_, rfl⟩
  | ok x =>
    cases x with
    | folder ms => exact .inr ⟨_, rfl⟩
    | file b =>
      refine .inl ⟨(), w.remove p, rfl, fun hcwd => ⟨World.cwd_remove w p, fun q k hq hk => ?_⟩⟩
      have hview := view_of_get? (World.get?_of_find hcwd hfind)
      have hroot := kind_eq_folder_iff.mpr (World.root_of_find hfind)
      rw [World.root_remove, view_remove hroot hview, Function.update_of_ne, hq]
      intro heq
      rw [heq, hview] at hq
      rw [heq, World.placeOf_of_isAbsolute hcwd hp] at hk
      cases hq
      exact hk.elim nofun hP

/-- **Making a folder keeps every place.** -/
theorem keeps_makeFolder (hp : isAbsolute p) : Moves (World.Keeps P) (makeFolder p) := by
  refine moves_of_cases fun w => ?_
  unfold makeFolder
  rw [get_bind]
  cases hfind : w.find p with
  | ok x => exact .inr ⟨_, rfl⟩
  | error a =>
    cases a with
    | notFolder => exact .inr ⟨_, rfl⟩
    | missing =>
      dsimp only
      cases habove : w.find (parent p) with
      | error a => exact .inr ⟨_, rfl⟩
      | ok x =>
        cases x with
        | file b => exact .inr ⟨_, rfl⟩
        | folder ms =>
          refine .inl ⟨(), _, rfl, fun hcwd => ?_⟩
          obtain ⟨hnone, hfree⟩ := World.free_of_missing hcwd hp hfind habove
          exact World.keeps_put hfree view_empty_cons (.inl hnone) hcwd

/-- Making a folder and those above it keeps every place. -/
theorem keeps_makeFolders (hp : isAbsolute p) (depth : Nat) :
    Moves (World.Keeps P) (makeFolders depth p) := by
  have hunless (p : String) (r : Except Fault Unit) :
      Moves (World.Keeps P) (makeFolders.unlessFolder p r) := by
    cases r with
    | ok a => exact .pure a
    | error f => exact .get_bind fun w => .ite (.throw f) (.pure _)
  induction depth generalizing p with
  | zero => exact keeps_makeFolder hp
  | succ depth ih =>
    unfold makeFolders
    refine .bind (keeps_makeFolder hp).attempt fun r => ?_
    split
    · exact .pure _
    · refine .ite (.throw _) (.bind (ih (isAbsolute_parent hp)) fun _ => ?_)
      exact .bind (keeps_makeFolder hp).attempt fun r => hunless p r
    · exact hunless p _

theorem keeps_ensureFolder (hp : isAbsolute p) : Moves (World.Keeps P) (ensureFolder p) :=
  keeps_makeFolders hp _

theorem keeps_readBytes (p : String) :
    Moves (World.Keeps P) (readBytes p) := .get_bind fun _ => .ofExcept _

/-- **Copying a file keeps every place but those of the copy**, whether it goes into a folder or
    not. -/
theorem keeps_copyFile (source : String) {target : String} (htarget : isAbsolute target)
    (hP : ¬ P (settle (components target)))
    (hinside : ¬ P (settle (components (join target (basename source))))) :
    Moves (World.Keeps P) (copyFile source target) := by
  refine .get_bind fun w => .ite (.throw _) (.bind (keeps_readBytes source) fun bytes => ?_)
  split
  · exact keeps_writeBytes (isAbsolute_join htarget) hinside bytes
  · exact keeps_writeBytes htarget hP bytes

theorem keeps_printLine (s : String) :
    Moves (World.Keeps P) (printLine s) := fun w => w.keeps_relog _

theorem keeps_run (argv : List String) (folder : Option String) :
    Moves (World.Keeps P) (run argv folder) := by
  refine .ite (.throw _) (.bind (fun w => w.keeps_relog _) fun _ => .get_bind fun w => ?_)
  split
  · exact .pure _
  · exact .throw _
  · exact .pure _

end Session

end AddonAudit
