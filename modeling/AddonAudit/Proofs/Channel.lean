/-
  AddonAudit.Proofs.Channel — what a session leaves behind.

  Lines that are written to a channel make up one text.  A session that ends well is made of parts
  that do; one that faults leaves a world too, so that a relation between worlds can hold however a
  session ends.
-/
import AddonAudit.Proofs.Session

namespace AddonAudit.Session

variable {α β : Type}

/-! ## §1. Sessions that end well. -/

/-- The text of lines. -/
def linesText : List String → String
  | [] => ""
  | l :: ls => l ++ "\n" ++ linesText ls

@[simp] theorem linesText_append (ls ms : List String) :
    linesText (ls ++ ms) = linesText ls ++ linesText ms := by
  induction ls with
  | nil => simp [linesText]
  | cons l ls ih => simp [linesText, ih, String.append_assoc]

variable {f : α → Session β} {w : World} {x : Session α}

/-- A sequence that ends well is made of two sessions that do. -/
theorem bind_eq_ok_iff {w' : World} {b : β} : (x >>= f) w = .ok b w' ↔ ∃ a w₁, x w = .ok a w₁ ∧
    f a w₁ = .ok b w' := by
  cases hx : x w with
  | ok a w₁ =>
    rw [bind_of_ok f hx]
    constructor
    · intro h
      exact ⟨a, w₁, rfl, h⟩
    · rintro ⟨a', w₁', heq, h⟩
      cases heq
      exact h
  | error e w₁ =>
    rw [bind_of_error f hx]
    constructor
    · intro h
      cases h
    · rintro ⟨_, _, heq, _⟩
      cases heq

theorem discard_of_ok {a : α} {w' : World} (h : x w = .ok a w') :
    (discard x : Session PUnit) w = .ok ⟨⟩ w' := by
  show EStateM.map _ x w = _
  unfold EStateM.map
  rw [h]

theorem discard_of_error {f : Fault} {w' : World} (h : x w = .error f w') :
    (discard x : Session PUnit) w = .error f w' := by
  show EStateM.map _ x w = _
  unfold EStateM.map
  rw [h]

theorem of_discard {w' : World} (h : (discard x : Session PUnit) w = .ok ⟨⟩ w') :
    ∃ a, x w = .ok a w' := by
  cases hx : x w with
  | ok a w₁ =>
    rw [discard_of_ok hx] at h
    cases h
    exact ⟨a, rfl⟩
  | error f w₁ =>
    rw [discard_of_error hx] at h
    cases h

/-- A step that is taken on a condition, and what comes next. -/
theorem guarded_eq {c : Prop} [Decidable c] (x : Session PUnit) (g : PUnit → Session β) :
    (if c then x >>= g else g ⟨⟩) = (if c then x else pure ⟨⟩) >>= g := by
  split
  · rfl
  · rfl

/-- What attempting a session gives says how it ended. -/
theorem attempt_eq_ok {w' : World} {r : Except Fault α} (h : attempt x w = .ok r w') :
    (∃ a, r = .ok a ∧ x w = .ok a w') ∨ ∃ f, r = .error f ∧ x w = .error f w' := by
  unfold attempt at h
  cases hx : x w with
  | ok a w₁ =>
    rw [hx] at h
    cases h
    exact .inl ⟨a, rfl, rfl⟩
  | error f w₁ =>
    rw [hx] at h
    cases h
    exact .inr ⟨f, rfl, rfl⟩

/-- A verdict with a value comes from a session that ends well. -/
theorem ok_of_verdict {a : α} (h : x.verdict w = .ok a) : ∃ w', x w = .ok a w' := by
  unfold verdict at h
  cases hx : x w with
  | ok b w' =>
    rw [hx] at h
    cases h
    exact ⟨w', rfl⟩
  | error e w' =>
    rw [hx] at h
    cases h

/-! ## §2. Worlds that are left. -/

/-- The world that a session leaves, whether or not it faults. -/
def leaves (x : Session α) (w : World) : World :=
  match x w with
  | .ok _ w' => w'
  | .error _ w' => w'

/-- A sequence ends where its first session does, or where the next one does. -/
theorem leaves_bind (x : Session α) (f : α → Session β) (w : World) :
    (x >>= f).leaves w = x.leaves w ∨ ∃ a, (x >>= f).leaves w = (f a).leaves (x.leaves w) := by
  unfold leaves
  cases hw : x w with
  | ok a w₁ => exact .inr ⟨a, by rw [bind_of_ok f hw]⟩
  | error e w₁ => exact .inl (by rw [bind_of_error f hw])

theorem leaves_discard (x : Session α) (w : World) : (discard x).leaves w = x.leaves w := by
  unfold leaves
  cases h : x w with
  | ok a w' => rw [discard_of_ok h]
  | error f w' => rw [discard_of_error h]

theorem leaves_attempt (x : Session α) (w : World) : (attempt x).leaves w = x.leaves w := by
  unfold leaves attempt
  cases x w with
  | ok a w' => rfl
  | error f w' => rfl

/-- A session that leads to a related world, whether or not it faults. -/
def Moves (R : World → World → Prop) (x : Session α) : Prop := ∀ w, R w (x.leaves w)

namespace Moves

variable {R : World → World → Prop} [Std.Refl R] {c : Prop} [Decidable c] {y : Session α}

theorem pure (a : α) : Moves R (pure a : Session α) := fun w => Std.Refl.refl w

theorem throw (f : Fault) : Moves R (throw f : Session α) := fun w => Std.Refl.refl w

theorem ofExcept (r : Except Fault α) : Moves R (ofExcept r) := by
  cases r with
  | ok a => exact .pure a
  | error f => exact .throw f

omit [Std.Refl R]

theorem get_bind {f : World → Session α} (hf : ∀ w, Moves R (f w)) : Moves R (get >>= f) :=
  fun w => hf w w

theorem attempt (hx : Moves R x) : Moves R (attempt x) := by
  intro w
  rw [leaves_attempt]
  exact hx w

theorem discard (hx : Moves R x) : Moves R (discard x) := by
  intro w
  rw [leaves_discard]
  exact hx w

theorem ite (hx : Moves R x) (hy : Moves R y) : Moves R (if c then x else y) := by
  split
  · exact hx
  · exact hy

variable [Trans R R R]

theorem bind (hx : Moves R x) (hf : ∀ a, Moves R (f a)) : Moves R (x >>= f) := by
  intro w
  rcases leaves_bind x f w with hw | ⟨a, hw⟩
  · rw [hw]
    exact hx w
  · rw [hw]
    exact Trans.trans (hx w) (hf a _)

/-- A session that does something first, or does not. -/
theorem ite_bind {x : Session Unit} {k : Unit → Session α} (hx : Moves R x) (hk : Moves R (k ())) :
    Moves R (if c then x >>= k else k ()) := .ite (.bind hx fun _ => hk) hk

variable [Std.Refl R]

theorem mapM {as : List α} (hf : ∀ a ∈ as, Moves R (f a)) : Moves R (as.mapM f) := by
  induction as with
  | nil => exact .pure []
  | cons a as ih =>
    obtain ⟨ha, has⟩ := List.forall_mem_cons.mp hf
    rw [List.mapM_cons]
    exact .bind ha fun _ => .bind (ih has) fun _ => .pure _

theorem forM {f : β → Session Unit} {bs : List β} (hf : ∀ b ∈ bs, Moves R (f b)) :
    Moves R (bs.forM f) := by
  induction bs with
  | nil => exact .pure ()
  | cons b bs ih =>
    obtain ⟨hb, hbs⟩ := List.forall_mem_cons.mp hf
    exact .bind hb fun _ => ih hbs

end Moves

end AddonAudit.Session
