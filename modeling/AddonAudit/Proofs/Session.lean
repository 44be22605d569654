/-
  AddonAudit.Proofs.Session — what a session gives, apart from the world that it leaves.

  A session reads the world, writes to its log and may fault.  Most sessions change nothing but the
  log and never read it: these settle on a verdict that is a function of the world alone, and
  sequencing them is sequencing their verdicts in one unchanging world.
-/
import AddonAudit.Workspace.World

namespace AddonAudit

/-! ## §1. Verdicts. -/

/-- The world with another log. -/
def World.relog (w : World) (l : Log) : World := { w with log := l }

/-- What running a command comes to. -/
def World.answer (w : World) (argv : List String) : Except Fault ProcessResult :=
  if !argv.all Session.isHandable then .error .nullPath
  else match w.processes.find? (·.1 == " ".intercalate argv) with
    | some (_, some r) => .ok r
    | some (_, none) => .error (.noProgram (argv.headD ""))
    | none => .ok { code := 128 }

namespace Session

variable {α β : Type}

/-- What a session gives, the world that it leaves aside. -/
def verdict (x : Session α) (w : World) : Except Fault α :=
  match x w with
  | .ok a _ => .ok a
  | .error f _ => .error f

/-- The end of a session with a verdict in a world. -/
def ending (r : Except Fault α) (w : World) : EStateM.Result Fault World α :=
  match r with
  | .ok a => .ok a w
  | .error f => .error f w

@[simp] theorem verdict_get_bind (f : World → Session α) (w : World) :
    verdict (get >>= f) w = verdict (f w) w := rfl

/-! ## §2. Sessions that settle on a verdict. -/

variable {quiet : Prop} {x : Session α} {f : α → Session β} {c : Prop} {P : α → Prop} {w : World}
    {r : Except Fault α}

/-- A sequence goes on in the world that its first session leaves. -/
theorem bind_of_ok {w w' : World} {a : α} (f : α → Session β) (h : x w = .ok a w') :
    (x >>= f) w = f a w' := by
  show EStateM.bind x f w = _
  unfold EStateM.bind
  rw [h]

theorem get_bind (f : World → Session α) (w : World) : (get >>= f) w = f w w := rfl

/-- A sequence ends with the fault of its first session. -/
theorem bind_of_error {w w' : World} {e : Fault} (f : α → Session β) (h : x w = .error e w') :
    (x >>= f) w = .error e w' := by
  show EStateM.bind x f w = _
  unfold EStateM.bind
  rw [h]

/-- A session ends with a verdict in a world, whatever its log, and changes nothing but the log; if
    it is quiet, not the text of the error channel either. -/
def Settles (quiet : Prop) (w : World) (x : Session α) (r : Except Fault α) : Prop :=
  ∀ l, ∃ l', (quiet → l'.err = l.err) ∧ x (w.relog l) = ending r (w.relog l')

namespace Settles

theorem pure (a : α) : Settles quiet w (pure a) (.ok a) := fun l => ⟨l, fun _ => rfl, rfl⟩

theorem throw (e : Fault) : Settles quiet w (throw e : Session α) (.error e) :=
    fun l => ⟨l, fun _ => rfl, rfl⟩

theorem ofExcept (r : Except Fault α) : Settles quiet w (ofExcept r) r := by
  cases r with
  | ok a => exact pure a
  | error e => exact throw e

theorem printLine (s : String) : Settles quiet w (printLine s) (.ok ()) :=
  fun l => ⟨{ l with out := l.out ++ (s ++ "\n") }, fun _ => rfl, rfl⟩

theorem verdict (h : Settles quiet w x r) : x.verdict w = r := by
  obtain ⟨l, -, hl⟩ := h w.log
  unfold Session.verdict
  rw [show x w = ending r (w.relog l) from hl]
  cases r <;> rfl

theorem bind_ok {a : α} {s : Except Fault β} (hx : Settles quiet w x (.ok a))
    (hf : Settles quiet w (f a) s) : Settles quiet w (x >>= f) s := by
  intro l
  obtain ⟨l₁, herr₁, hl₁⟩ := hx l
  obtain ⟨l₂, herr₂, hl₂⟩ := hf l₁
  exact ⟨l₂, fun hq => (herr₂ hq).trans (herr₁ hq), (bind_of_ok f hl₁).trans hl₂⟩

theorem bind_error {e : Fault} (hx : Settles quiet w x (.error e)) :
    Settles quiet w (x >>= f) (.error e) := by
  intro l
  obtain ⟨l₁, herr₁, hl₁⟩ := hx l
  exact ⟨l₁, herr₁, bind_of_error f hl₁⟩

theorem get_bind {f : World → Session α} (hf : Settles quiet w (f w) r)
    (hlog : ∀ l, f (w.relog l) = f w) : Settles quiet w (get >>= f) r := by
  intro l
  rw [Session.get_bind, hlog]
  exact hf l

theorem attempt (h : Settles quiet w x r) : Settles quiet w (attempt x) (.ok r) := by
  intro l
  obtain ⟨l', herr, hl⟩ := h l
  refine ⟨l', herr, ?_⟩
  unfold Session.attempt
  rw [hl]
  cases r <;> rfl

/-- Running a command leaves a trace of it in the log and nothing else. -/
theorem run (argv : List String) (folder : Option String) :
    Settles quiet w (run argv folder) (w.answer argv) := by
  have hcall : ∀ shown, Settles quiet w (modify fun w => { w with log := { w.log with
      calls := w.log.calls ++ [shown] } }) (.ok ()) := fun shown l =>
    ⟨{ l with calls := l.calls ++ [shown] }, fun _ => rfl, rfl⟩
  unfold Session.run World.answer
  by_cases hnull : (!argv.all isHandable) = true
  · rw [if_pos hnull, if_pos hnull]
    exact (throw .nullPath).bind_error
  rw [if_neg hnull, if_neg hnull]
  refine (hcall _).bind_ok (get_bind ?_ fun _ => rfl)
  rcases w.processes.find? _ with _ | ⟨_, _ | r⟩
  · exact pure _
  · exact throw _
  · exact pure r

/-- What comes after a session may be judged in the world before it, if the log does not show in its
    verdict. -/
theorem verdict_bind (h : Settles quiet w x r)
    (hf : ∀ a l, Session.verdict (f a) (w.relog l) = Session.verdict (f a) w) :
    Session.verdict (x >>= f) w = r.bind fun a => Session.verdict (f a) w := by
  obtain ⟨l, -, hl⟩ := h w.log
  cases r with
  | error e =>
    unfold Session.verdict
    rw [show (x >>= f) w = _ from bind_of_error f hl]
    rfl
  | ok a =>
    refine Eq.trans ?_ (hf a l)
    unfold Session.verdict
    rw [show (x >>= f) w = _ from bind_of_ok f hl]

end Settles

/-- A session settles on a verdict and tells nothing; if this is a value, `P` holds, and it is one
    under a condition. -/
def Looks (w : World) (d : Prop) (P : α → Prop) (x : Session α) : Prop :=
  ∃ r, Settles True w x r ∧ (∀ a, r = .ok a → P a) ∧ (d → ∃ a, r = .ok a)

/-- It settles on any verdict. -/
abbrev Quiet (w : World) (x : Session α) : Prop := Looks w False (fun _ => True) x

namespace Looks

variable {d : Prop} {Q : β → Prop}

theorem pure {a : α} (h : P a) :
    Looks w d P (pure a) := ⟨_, .pure a, fun _ heq => Except.ok.inj heq ▸ h, fun _ => ⟨a, rfl⟩⟩

theorem throw {e : Fault} (h : ¬ d) :
    Looks w d P (throw e) := ⟨_, .throw e, nofun, fun hd => absurd hd h⟩

theorem ofExcept (hP : ∀ a, r = .ok a → P a) (hd : d → ∃ a, r = .ok a) : Looks w d P (ofExcept r) :=
  ⟨r, .ofExcept r, hP, hd⟩

theorem bind (hx : Looks w d P x) (hf : ∀ a, P a → Looks w d Q (f a)) : Looks w d Q (x >>= f) := by
  obtain ⟨r, hr, hP, hd⟩ := hx
  cases r with
  | error e => exact ⟨_, hr.bind_error, nofun, fun h => nomatch hd h⟩
  | ok a =>
    obtain ⟨s, hs, hQ, hds⟩ := hf a (hP a rfl)
    exact ⟨s, hr.bind_ok hs, hQ, hds⟩

theorem mono {d' : Prop} {P' : α → Prop} (h : Looks w d P x) (hd : d' → d) (hP : ∀ a, P a → P' a) :
    Looks w d' P' x := by
  obtain ⟨r, hr, hP', hd'⟩ := h
  exact ⟨r, hr, fun a ha => hP a (hP' a ha), fun h => hd' (hd h)⟩

theorem get_bind {f : World → Session α} (hf : Looks w d P (f w))
    (hlog : ∀ l, f (w.relog l) = f w) : Looks w d P (get >>= f) := by
  obtain ⟨r, hr, hP⟩ := hf
  exact ⟨r, hr.get_bind hlog, hP⟩

theorem attempt {d' : Prop} (h : Looks w d P x) :
    Looks w d' (fun r => (∀ a, r = .ok a → P a) ∧ (d → ∃ a, r = .ok a)) (attempt x) := by
  obtain ⟨r, hr, hP⟩ := h
  exact ⟨.ok r, hr.attempt, fun _ heq => Except.ok.inj heq ▸ hP, fun _ => ⟨r, rfl⟩⟩

theorem ite [Decidable c] {y : Session α} (hx : c → Looks w d P x) (hy : ¬ c → Looks w d P y) :
    Looks w d P (if c then x else y) := by
  split
  · exact hx ‹_›
  · exact hy ‹_›

theorem printLine (s : String) : Looks w d (fun _ => True) (printLine s) :=
  ⟨_, .printLine s, fun _ _ => trivial, fun _ => ⟨(), rfl⟩⟩

end Looks

/-- **What follows a session decides nothing** if it gives a fixed value for each of its values. -/
theorem verdict_bind_of_ok {g : α → β} (hf : ∀ a w, (f a).verdict w = .ok (g a)) (w : World) :
    verdict (x >>= f) w = (verdict x w).map g := by
  cases hx : x w with
  | error e w' =>
    unfold verdict
    rw [bind_of_error f hx, hx]
    rfl
  | ok a w' =>
    have hb := hf a w'
    unfold verdict at hb ⊢
    rw [bind_of_ok f hx, hx]
    exact hb

end Session

end AddonAudit
