/-
  AddonAudit.Proofs.Audit.Outcome — what the outcome of a run depends on.

  A run gives what each of its addons gives when it is audited alone (`verdict_run`).  So its exit
  code says whether a stored message blocks, how it is presented decides nothing, and the paths can
  be split and put in another order.
-/
import AddonAudit.Proofs.Audit.Run

namespace AddonAudit

open Traversal (bind_ok_iff map_ok_iff mapM_ok_iff mapM_perm ok_of_toOption_map)

/-! ## §1. What blocks. -/

namespace Audit

variable {w : World} {c : Config}

variable {release : Option String} {path : String} {a : Audited}

theorem audited_ok_iff {mode : Option String} :
    audited w c mode release path = .ok a ↔
      checked w c mode release path = .ok (a.addon, a.report) ∧
      a.addon.readings w = .ok a.readings := by
  constructor
  · intro h
    obtain ⟨⟨addon, report⟩, hchecked, h⟩ := bind_ok_iff.mp h
    obtain ⟨readings, hreadings, h⟩ := bind_ok_iff.mp h
    obtain rfl := Except.ok.inj h
    exact ⟨hchecked, hreadings⟩
  · rintro ⟨hchecked, hreadings⟩
    exact bind_ok_iff.mpr ⟨_, hchecked, bind_ok_iff.mpr ⟨_, hreadings, rfl⟩⟩

/-- The report of an audit counts under the settings of its configuration. -/
theorem settings_of_audited {mode : Option String}
    (h : audited w c mode release path = .ok a) : a.report.settings = c.settings :=
  settings_of_checked (audited_ok_iff.mp h).1

theorem exitCode_of (as : List Audited) :
    (Outcome.of as).exitCode = if as.any (·.report.isBlocking) then 1 else 0 := rfl

/-- The exit code of audits is 1 exactly when one of them holds a message that blocks. -/
theorem exitCode_eq_one_iff (as : List Audited) :
    (Outcome.of as).exitCode = 1 ↔ ∃ a ∈ as, a.report.isBlocking := by
  rw [exitCode_of, ← List.any_eq_true]
  cases as.any (·.report.isBlocking) <;> decide

/-- What a run that ends is made of: a configuration, and the audit of each path under it. -/
theorem run_ok_iff {q : Request} {o : Outcome} :
    (run q).verdict w = .ok o ↔ ∃ c release as, q.configure.verdict w = .ok c ∧
    q.releaseGiven = .ok release ∧
      q.paths.mapM (audited w c q.manner.mode release) = .ok as ∧ Outcome.of as = o := by
  rw [verdict_run]
  constructor
  · intro h
    obtain ⟨c, hc, h⟩ := bind_ok_iff.mp h
    obtain ⟨release, hrelease, h⟩ := bind_ok_iff.mp h
    obtain ⟨as, has, ho⟩ := map_ok_iff.mp h
    exact ⟨c, release, as, hc, hrelease, has, ho⟩
  · rintro ⟨c, release, as, hc, hrelease, has, ho⟩
    exact bind_ok_iff.mpr ⟨c, hc, bind_ok_iff.mpr ⟨release, hrelease, map_ok_iff.mpr ⟨as, has, ho⟩⟩⟩

/-- What is audited at a path is what auditing it alone gives. -/
theorem auditAddon_of_audited (m : Check.Manner)
    (h : audited w c m.mode release path = .ok a) :
    ∃ c', (auditAddon m c path release).verdict w = .ok (a, c') := by
  obtain ⟨c', hv, -⟩ := leads_auditAddon w m c path release
  rw [h] at hv
  exact ⟨c', hv⟩

/-! ## §2. Presentation. -/

/-- Requests for the same audit: they may differ in what is shown of it and in what is written down
    about it. -/
structure Request.SameAudit (q q' : Request) : Prop where
  paths : q'.paths = q.paths
  mode : q'.manner.mode = q.manner.mode
  config : q'.config = q.config
  scope : q'.scope = q.scope
  release : q'.release = q.release

/-- **Presentation does not show in the outcome.** -/
theorem verdict_run_of_sameAudit {q q' : Request} (h : q.SameAudit q') (w : World) :
    (run q').verdict w = (run q).verdict w := by
  have hconfigure : q'.configure = q.configure := by
    unfold Request.configure
    rw [h.config, h.scope, h.release]
  have hrelease : q'.releaseGiven = q.releaseGiven := by
    unfold Request.releaseGiven
    rw [h.release]
  rw [verdict_run, verdict_run, hconfigure, hrelease, h.paths, h.mode]

theorem run_missing_addon : ∃ o, (run { paths := ["m"], scope := some "full" }).verdict {} = .ok o ∧
    o.exitCode = 1 :=
  ok_of_toOption_map (by decide +kernel)

theorem reportsOf_append (as bs : List Audited) :
    reportsOf (as ++ bs) = reportsOf as ++ reportsOf bs := by
  unfold reportsOf
  rw [List.filter_append, List.map_append]

theorem reportsOf_perm {as bs : List Audited} (h : as.Perm bs) :
    (reportsOf as).Perm (reportsOf bs) := (h.filter _).map _

theorem exitCode_append (as bs : List Audited) :
    (Outcome.of (as ++ bs)).exitCode = max (Outcome.of as).exitCode (Outcome.of bs).exitCode := by
  rw [exitCode_of, exitCode_of, exitCode_of, List.any_append]
  cases as.any (·.report.isBlocking) <;> cases bs.any (·.report.isBlocking) <;> decide

theorem exitCode_perm {as bs : List Audited} (h : as.Perm bs) :
    (Outcome.of as).exitCode = (Outcome.of bs).exitCode := by
  rw [exitCode_of, exitCode_of, h.any_eq]

end Audit

end AddonAudit
