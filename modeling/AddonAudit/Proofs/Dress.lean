/-
  AddonAudit.Proofs.Dress — sessions on files.

  Sessions that only read and write files do the same in all worlds that differ in log and processes
  only, and leave both alone.
-/
import AddonAudit.Proofs.Channel
import AddonAudit.Proofs.Log

namespace AddonAudit

namespace Session

variable {α β : Type}

/-- A result with the world in another dress. -/
def dressed (ps : List (String × Option ProcessResult)) (l : Log) :
    EStateM.Result Fault World α → EStateM.Result Fault World α
  | .ok a w => .ok a (w.dress ps l)
  | .error f w => .error f (w.dress ps l)

/-- A session that does the same in every dress of a world, and does not change it. -/
def Plain (x : Session α) : Prop := ∀ w ps l, x (w.dress ps l) = dressed ps l (x w)

theorem Plain.pure (a : α) : Plain (pure a : Session α) := fun _ _ _ => rfl

theorem Plain.throw (f : Fault) : Plain (throw f : Session α) := fun _ _ _ => rfl

theorem Plain.ofExcept (r : Except Fault α) : Plain (ofExcept r) := by
  cases r with
  | ok a => exact Plain.pure a
  | error f => exact Plain.throw f

variable {x : Session α}

theorem Plain.bind {f : α → Session β} (hx : Plain x) (hf : ∀ a, Plain (f a)) :
    Plain (x >>= f) := by
  intro w ps l
  have hfirst := hx w ps l
  cases hw : x w with
  | ok a v =>
    rw [hw] at hfirst
    rw [bind_of_ok f hw, bind_of_ok f hfirst]
    exact hf a v ps l
  | error e v =>
    rw [hw] at hfirst
    rw [bind_of_error f hw, bind_of_error f hfirst]
    rfl

/-- A session that first looks at the world: what it does then is to be compared in that world. -/
theorem Plain.of_get_bind {f : World → Session α}
    (hf : ∀ w ps l, f (w.dress ps l) (w.dress ps l) = dressed ps l (f w w)) :
    Plain (get >>= f) := hf

theorem Plain.attempt {x : Session α} (hx : Plain x) : Plain (attempt x) := by
  intro w ps l
  have hw := hx w ps l
  unfold Session.attempt
  rw [hw]
  cases x w with
  | ok a v => rfl
  | error f v => rfl

theorem Plain.ite {c : Prop} [Decidable c] {y : Session α} (hx : Plain x) (hy : Plain y) :
    Plain (if c then x else y) := by
  split
  · exact hx
  · exact hy

theorem Plain.leaves_dress (hx : Plain x) (w : World) (ps : List (String × Option ProcessResult))
    (l : Log) : x.leaves (w.dress ps l) = (x.leaves w).dress ps l := by
  unfold leaves
  rw [hx]
  cases x w with
  | ok a v => rfl
  | error f v => rfl

/-- A plain session ends in the same way in every dress of a world. -/
theorem Plain.verdict_dress (hx : Plain x) (w : World) (ps : List (String × Option ProcessResult))
    (l : Log) : x.verdict (w.dress ps l) = x.verdict w := by
  unfold verdict
  rw [hx]
  cases x w with
  | ok a v => rfl
  | error f v => rfl

/-- With another log, a plain session leaves the world that it leaves else, with that log. -/
theorem Plain.leaves_relog (hx : Plain x) (w : World) (l : Log) :
    x.leaves (w.relog l) = (x.leaves w).relog l := by
  -- the processes are those of the world where it starts
  have hself : x.leaves w = (x.leaves w).dress w.processes w.log :=
    hx.leaves_dress w w.processes w.log
  have hother : x.leaves (w.relog l) = (x.leaves w).dress w.processes l :=
    hx.leaves_dress w w.processes l
  rw [hother, hself]
  rfl

theorem plain_writeBytes (p : String) (bytes : ByteArray) : Plain (writeBytes p bytes) := by
  unfold writeBytes
  refine Plain.of_get_bind fun w ps l => ?_
  rw [World.find_dress, World.cwd_dress, World.find_dress, World.put_dress]
  generalize w.find (Path.parent (Path.join w.cwd p)) = above
  cases w.find p with
  | ok e => cases e <;> rfl
  | error a =>
    cases a with
    | notFolder => rfl
    | missing =>
      cases above with
      | ok e => cases e <;> rfl
      | error a => rfl

theorem plain_writeText (p s : String) : Plain (writeText p s) := plain_writeBytes p s.toUTF8

theorem plain_makeFolder (p : String) : Plain (makeFolder p) := by
  unfold makeFolder
  refine Plain.of_get_bind fun w ps l => ?_
  rw [World.find_dress, World.find_dress, World.put_dress]
  generalize w.find (Path.parent p) = above
  cases w.find p with
  | ok e => rfl
  | error a =>
    cases a with
    | notFolder => rfl
    | missing =>
      cases above with
      | ok e => cases e <;> rfl
      | error a => rfl

theorem plain_unlessFolder (p : String) (r : Except Fault Unit) :
    Plain (makeFolders.unlessFolder p r) := by
  unfold makeFolders.unlessFolder
  cases r with
  | ok _ => exact Plain.pure _
  | error f =>
    refine Plain.of_get_bind fun w ps l => ?_
    rw [World.isFolder_dress]
    split
    · rfl
    · rfl

theorem plain_makeFolders (depth : Nat) : ∀ p, Plain (makeFolders depth p) := by
  induction depth with
  | zero => exact plain_makeFolder
  | succ depth ih =>
    intro p
    unfold makeFolders
    refine Plain.bind (plain_makeFolder p).attempt fun r => ?_
    split
    · exact Plain.pure _
    · refine Plain.ite (Plain.bind (Plain.throw _) fun _ => ?_) ?_
      all_goals
        refine Plain.bind (ih _) fun _ => ?_
        exact Plain.bind (plain_makeFolder p).attempt fun _ => plain_unlessFolder p _
    · exact plain_unlessFolder p _

theorem plain_ensureFolder (p : String) : Plain (ensureFolder p) := plain_makeFolders _ p

end Session

end AddonAudit
