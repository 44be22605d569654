/-
  AddonAudit.Proofs.Audit.Telling — what a run tells and prints.

  While a run looks for changes, loads addons and checks them, it is silent on the error channel.
  So this channel gets the lines of each addon, then the summary, then the notice that a run failed,
  and nothing else. Once all addons are audited, the metrics of their sources are printed, and what
  became of the report.
-/
import AddonAudit.Proofs.Audit.Outcome

namespace AddonAudit

open Session

namespace Audit

/-! ## §1. Audits. -/

variable {st : Style} {w w' : World} {q : Request}

/-- An audit that ends leaves the settings as they were and tells nothing. -/
theorem of_auditAddon {m : Check.Manner} {c c' : Config} {path : String} {release : Option String}
    {a : Audited} (h : auditAddon m c path release w = .ok (a, c') w') :
    c'.settings = c.settings ∧ w'.log.err = w.log.err := by
  obtain ⟨c'', -, halike, hsettles⟩ := leads_auditAddon w m c path release
  obtain ⟨l, herr, hl⟩ := hsettles w.log
  cases haudited : audited w c m.mode release path with
  | error f =>
    rw [haudited] at hl
    cases h.symm.trans hl
  | ok a' =>
    rw [haudited] at hl
    cases h.symm.trans hl
    exact ⟨(halike ⟨_, haudited⟩).settings, herr trivial⟩

/-- **Audits in a row tell the lines of their addons**, if they tell anything. -/
theorem tells_auditAll (hst : st.toErrors) (release : Option String) (paths : List String) :
    ∀ (c c' : Config) (w w' : World) (as : List Audited),
      auditAll q st release c paths w = .ok (as, c') w' →
        c'.settings = c.settings ∧ w'.log.err = w.log.err ++ linesText
          (if q.manner.verbose then as.flatMap
          (addonLines st q c.settings.changedOnly) else []) := by
  induction paths with
  | nil =>
    intro c c' w w' as h
    cases h
    simp [linesText]
  | cons path paths ih =>
    intro c c' w w' as h
    unfold auditAll at h
    obtain ⟨⟨a, c₁⟩, w₁, hfirst, h⟩ := bind_eq_ok_iff.mp h
    obtain ⟨hsettings, hsilent⟩ := of_auditAddon hfirst
    -- the audits of the other addons start from a configuration with the same settings
    have hrest : ∀ w₂, (auditAll q st release c₁ paths >>= fun more =>
      pure (a :: more.1, more.2)) w₂
        = .ok (as, c') w' → ∃ more, as = a :: more ∧ c'.settings = c.settings ∧
          w'.log.err = w₂.log.err ++ linesText
            (if q.manner.verbose then more.flatMap
            (addonLines st q c.settings.changedOnly) else []) := by
      intro w₂ h
      obtain ⟨⟨more, c₂⟩, w₃, hmore, hend⟩ := bind_eq_ok_iff.mp h
      obtain ⟨hkept, htold⟩ := ih c₁ c₂ w₂ w₃ more hmore
      cases hend
      exact ⟨more, rfl, hkept.trans hsettings, by rw [htold, hsettings]⟩
    have hchanged : c₁.settings.changedOnly = c.settings.changedOnly := by rw [hsettings]
    dsimp only at h
    cases hverbose : q.manner.verbose with
    | true =>
      rw [if_pos hverbose] at h
      obtain ⟨_, w₂, hprint, h⟩ := bind_eq_ok_iff.mp h
      rw [print_eq, hst] at hprint
      cases hprint
      obtain ⟨more, rfl, hkept, htold⟩ := hrest _ h
      refine ⟨hkept, ?_⟩
      rw [htold, hverbose]
      simp [World.relog, Log.add, hsilent, hchanged, String.append_assoc]
    | false =>
      rw [if_neg (by rw [hverbose]; exact Bool.false_ne_true)] at h
      obtain ⟨more, rfl, hkept, htold⟩ := hrest w₁ h
      refine ⟨hkept, ?_⟩
      rw [htold, hsilent, hverbose]
      simp [linesText]

/-! ## §2. A run. -/

/-- The style in which a run tells what it found. -/
def Request.style (q : Request) (w : World) : Style :=
  Style.of w { limit := q.limit, showInfo := q.showInfo, toErrors := true }

/-- The lines that a run tells about its audits. -/
def toldLines (q : Request) (st : Style) (changedOnly : Bool) (as : List Audited) : List String :=
  (if q.manner.verbose then as.flatMap (addonLines st q changedOnly) else []) ++
    (if !q.paths.isEmpty then summaryLines q changedOnly as else []) ++
    (if q.manner.verbose then noticeOf st (Outcome.of as) else [])

/-- **A run that ends** has a configuration and audits under it, and leaves their report in the
    tree.  It has told the lines of its addons, the summary and the notice, and printed the metrics
    and what became of the report. -/
theorem run_parts {o : Outcome} (h : run q w = .ok o w') :
    ∃ c release as l c' l', q.configure.verdict w = .ok c ∧ q.releaseGiven = .ok release ∧
      q.paths.mapM (audited w c q.manner.mode release) = .ok as ∧ Outcome.of as = o ∧
      auditAll q (q.style w) release c q.paths (w.relog l) = .ok (as, c') (w.relog l') ∧
      w' = (reportWorld q w as).relog { l' with
        out := l'.out ++ linesText (coverageLines q c.settings as) ++ linesText (reportLines q w as)
        err := w.log.err ++ linesText (toldLines q (q.style w) c.settings.changedOnly as) } := by
  have hverdict : (run q).verdict w = .ok o := by
    unfold verdict
    rw [h]
  obtain ⟨c, release, as, hc, hrelease, has, ho⟩ := run_ok_iff.mp hverdict
  unfold run at h
  obtain ⟨r, hsettled, -⟩ := quiet_configure w q
  obtain ⟨l, herr, hconfigure⟩ := hsettled w.log
  rw [← hsettled.verdict, hc] at hconfigure
  obtain ⟨c', -, -, hsettles⟩ := leads_auditAll w q (q.style w) release q.paths c
  obtain ⟨l', -, haudits⟩ := hsettles l
  rw [has] at haudits
  rw [show w = w.relog w.log from rfl, bind_of_ok _ hconfigure, hrelease] at h
  have hst : (q.style w).toErrors := rfl
  obtain ⟨hsettings, htold⟩ := tells_auditAll hst release q.paths c c' _ _ as haudits
  -- the last part of the run, from the world that the audits left
  have hend : conclude q (q.style w) c'.settings as (w.relog l') = .ok o w' :=
    (bind_of_ok (fun audits : List Audited × Config =>
      conclude q (q.style w) audits.2.settings audits.1) haudits).symm.trans h
  have hrelog : ∀ l₁, (w.relog l').relog l₁ = w.relog l₁ := fun _ => rfl
  rw [conclude_eq q hst, hrelog, reporting_eq, hsettings] at hend
  obtain ⟨-, rfl⟩ := EStateM.Result.ok.inj hend
  refine ⟨c, release, as, l, c', l', hc, hrelease, has, ho, haudits, ?_⟩
  have herr' : l'.err = w.log.err ++ linesText
      (if q.manner.verbose then as.flatMap (addonLines
      (q.style w) q c.settings.changedOnly) else []) := by
    rw [← herr trivial]
    exact htold
  simp only [World.relog, toldLines, closingLines, herr', linesText_append, String.append_assoc]

/-- **All that a run tells on the error channel**: the lines of its addons, the summary and the
    notice. -/
theorem run_tells {o : Outcome} (h : run q w = .ok o w') :
    ∃ c release as, q.configure.verdict w = .ok c ∧ q.releaseGiven = .ok release ∧
      q.paths.mapM (audited w c q.manner.mode release) = .ok as ∧ Outcome.of as = o ∧
      w'.log.err = w.log.err ++ linesText (toldLines q (q.style w) c.settings.changedOnly as) := by
  obtain ⟨c, release, as, l, c', l', hc, hrelease, has, ho, -, rfl⟩ := run_parts h
  exact ⟨c, release, as, hc, hrelease, has, ho, rfl⟩

end Audit

end AddonAudit
