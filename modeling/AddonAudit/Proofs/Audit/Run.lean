/-
  AddonAudit.Proofs.Audit.Run — what a run gives, as a function of world and request.

  A run audits its addons one after another under one configuration, prints while it goes, and may
  write a coverage report at the end.  What it gives is nevertheless the list of what each addon
  gives when it is audited alone under the configuration with which the run starts.
-/
import AddonAudit.Proofs.Audit.Checks
import AddonAudit.Proofs.Dress
import AddonAudit.Proofs.Findings

namespace AddonAudit

/-! ## §1. Lines. -/

/-- A log with a text added to one of its channels. -/
def Log.add (l : Log) (toErrors : Bool) (s : String) : Log :=
  if toErrors then { l with err := l.err ++ s } else { l with out := l.out ++ s }

theorem Log.add_empty (l : Log) (toErrors : Bool) : l.add toErrors "" = l := by
  cases toErrors <;> simp [add]

theorem Log.add_add (l : Log) (toErrors : Bool) (s t : String) :
    (l.add toErrors s).add toErrors t = l.add toErrors (s ++ t) := by
  cases toErrors <;> simp [add, String.append_assoc]

theorem Session.forM_line (toErrors : Bool) (ls : List String) (w : World) :
    ls.forM (if toErrors then Session.warnLine else Session.printLine) w = .ok ()
    (w.relog (w.log.add toErrors (Session.linesText ls))) := by
  induction ls generalizing w with
  | nil =>
    rw [Session.linesText, Log.add_empty]
    rfl
  | cons l ls ih =>
    have hline : (if toErrors then Session.warnLine else Session.printLine) l w = .ok ()
        (w.relog (w.log.add toErrors (l ++ "\n"))) := by
      cases toErrors with
      | true =>
        simp only [Log.add, if_true, ← String.append_assoc]
        rfl
      | false => rfl
    refine (Session.bind_of_ok _ hline).trans ?_
    rw [ih, Session.linesText, ← Log.add_add _ _ (l ++ "\n")]
    rfl

namespace Audit

open Session (Looks Quiet Settles bind_of_ok linesText printLine warnLine)
open Config (Alike Leads)
open Traversal (bind_ok_iff map_ok_iff)

variable {w : World} {c c' : Config}

/-! ## §2. One addon. -/

/-- The addon at a path with what all checks find in it. -/
def checked (w : World) (c : Config) (mode release : Option String) (path : String) :
    Except Fault (Addon × Report) :=
  (Addon.built w c (w.resolve path) release).bind fun addon =>
    ((Check.all.mapM (Check.found w c mode addon)).map fun fs =>
      ({ settings := c.settings } : Report).addAll fs.flatten).bind fun report =>
        .ok (addon, report)

/-- What the audit of the addon at a path gives. -/
def audited (w : World) (c : Config) (mode release : Option String) (path : String) :
    Except Fault Audited :=
  (checked w c mode release path).bind fun p =>
    (p.1.readings w).bind fun readings => .ok ⟨p.1, p.2, readings⟩

theorem audited_eq (h : Alike w c c') (mode release : Option String) :
    audited w c' mode release = audited w c mode release := by
  funext path
  have hfound : ∀ addon, Check.found w c' mode addon = Check.found w c mode addon :=
    fun addon => funext fun k => Check.found_eq h mode addon k
  unfold audited checked
  simp only [Addon.built_eq h, hfound, h.settings]

/-- **Checking an addon gives what its path leads to**, whatever was checked before. -/
theorem leads_checkAddon (w : World) (m : Check.Manner) (c : Config) (path : String)
    (release : Option String) :
    Leads True w c (checkAddon m c path release) (checked w c m.mode release path) := by
  unfold checkAddon checked
  refine Leads.get_bind ?_ fun _ => rfl
  refine Leads.bind (Addon.leads_load w c _ release) fun addon c₁ h₁ => ?_
  have hfound : Check.found w c m.mode addon = Check.found w c₁ m.mode addon :=
    funext fun k => (Check.found_eq h₁ m.mode addon k).symm
  rw [hfound, ← h₁.settings]
  exact Leads.bind (leads_runChecks w m addon Check.all c₁ _) fun report c₂ _ => Leads.pure w c₂ _

/-- Checking an addon ends exactly with what its path leads to. -/
theorem checkAddon_ok_iff {m : Check.Manner} {path : String} {release : Option String}
    {p : Addon × Report} : (∃ c', (checkAddon m c path release).verdict w = .ok (p, c')) ↔
    checked w c m.mode release path = .ok p := by
  obtain ⟨c', hv, -⟩ := leads_checkAddon w m c path release
  rw [hv]
  constructor
  · rintro ⟨c'', h⟩
    obtain ⟨p', hp, heq⟩ := map_ok_iff.mp h
    cases heq
    exact hp
  · intro h
    exact ⟨c', map_ok_iff.mpr ⟨p, h, rfl⟩⟩

/-- The addon at a path is built, and its report takes in what each check finds. -/
theorem checked_ok_iff {mode release : Option String} {path : String} {addon : Addon}
    {report : Report} : checked w c mode release path = .ok (addon, report) ↔
    Addon.built w c (w.resolve path) release = .ok addon ∧
        ∃ parts, Check.all.mapM (Check.found w c mode addon) = .ok parts ∧
          ({ settings := c.settings } : Report).addAll parts.flatten = report := by
  constructor
  · intro h
    obtain ⟨_, hbuilt, h⟩ := bind_ok_iff.mp h
    obtain ⟨_, hchecks, h⟩ := bind_ok_iff.mp h
    cases h
    exact ⟨hbuilt, map_ok_iff.mp hchecks⟩
  · rintro ⟨hbuilt, hchecks⟩
    exact bind_ok_iff.mpr ⟨addon, hbuilt, bind_ok_iff.mpr ⟨report, map_ok_iff.mpr hchecks, rfl⟩⟩

/-- A report counts under the settings of its configuration. -/
theorem settings_of_checked {mode release : Option String} {path : String} {addon : Addon}
    {report : Report} (h : checked w c mode release path = .ok (addon, report)) :
    report.settings = c.settings := by
  obtain ⟨-, parts, -, rfl⟩ := checked_ok_iff.mp h
  exact Report.addAll_settings _ _

/-- **An audit gives what its path leads to**, whatever was audited before. -/
theorem leads_auditAddon (w : World) (m : Check.Manner) (c : Config) (path : String)
    (release : Option String) :
    Leads True w c (auditAddon m c path release) (audited w c m.mode release path) := by
  unfold auditAddon audited
  refine Leads.bind (leads_checkAddon w m c path release) fun ⟨addon, report⟩ c₁ _ => ?_
  refine Leads.get_bind (Leads.ofExcept_bind fun readings _ => Leads.pure w c₁ _) fun l => ?_
  rw [Addon.readings_relog]

/-! ## §3. Addons in a row. -/

theorem print_eq (st : Style) (lines : List String) (w : World) :
    st.print lines w = .ok () (w.relog (w.log.add st.toErrors (linesText lines))) :=
  Session.forM_line st.toErrors lines w

/-- **Audits in a row give what each of them gives alone**: the configuration that one of them
    leaves answers like the one it was given. -/
theorem leads_auditAll (w : World) (q : Request) (st : Style) (release : Option String)
    (paths : List String) : ∀ c : Config, Leads False w c (auditAll q st release c paths)
    (paths.mapM (audited w c q.manner.mode release)) := by
  induction paths with
  | nil => exact fun c => Leads.pure w c _
  | cons path paths ih =>
    intro c
    unfold auditAll
    rw [List.mapM_cons]
    refine Leads.bind (leads_auditAddon w q.manner c path release).aloud fun a c₁ h₁ => ?_
    rw [← audited_eq h₁]
    have hmore : Leads False w c₁
        (auditAll q st release c₁ paths >>= fun more => pure (a :: more.1, more.2))
        ((paths.mapM (audited w c₁ q.manner.mode release)).bind fun more => .ok (a :: more)) :=
      Leads.bind (ih c₁) fun more c₂ _ => Leads.pure w c₂ _
    show Leads False w c₁ (if q.manner.verbose then _ else _) _
    split
    · exact Leads.after (fun l => ⟨_, False.elim, print_eq st _ (w.relog l)⟩) hmore
    · exact hmore

/-! ## §4. Summing up. -/

/-- The metrics of audited addons. -/
def metricsOf (s : Settings) (as : List Audited) : Metrics :=
  Metrics.of (Model.Policy.ofSettings s) (as.flatMap fun a => a.readings.map (·.2.survey))

/-- The lines that a run prints about the metrics of its addons. -/
def coverageLines (q : Request) (s : Settings) (as : List Audited) : List String :=
  if q.manner.verbose && q.showCoverage then (metricsOf s as).lines as.length else []

/-- Writes the report of a run, if that is asked for. -/
def reporting (q : Request) (as : List Audited) : Session Outcome :=
  match given? q.reportPath with
  | some path => do
    saveCoverage q.manner.verbose as path
    return Outcome.of as
  | none => return Outcome.of as

/-- A step that is made only under a condition. -/
def when (c : Bool) (x : Session Unit) (k : Session Outcome) : Session Outcome :=
  if c = true then x >>= fun _ => k else k

/-- Summing up: the summary, the metrics and the notice, each only under a condition, then the
    report. -/
theorem conclude_steps (q : Request) (st : Style) (s : Settings) (as : List Audited) :
    conclude q st s as
      = when (!q.paths.isEmpty) ((summaryLines q s.changedOnly as).forM Session.warnLine)
        (when (q.manner.verbose && q.showCoverage)
        (((metricsOf s as).lines as.length).forM Session.printLine)
          (when ((Outcome.of as).blocked && q.manner.verbose)
            (st.print (((Outcome.of as).reports.head?.map fun (_, r) => r.noticeLines st).getD []))
            (reporting q as))) := by
  unfold conclude reporting
  cases given? q.reportPath with
  | some path => rfl
  | none => rfl

theorem when_lines (c toErrors : Bool) (lines : List String) (k : Session Outcome) (w : World) :
    when c (lines.forM (if toErrors then warnLine else printLine)) k w
      = k (w.relog (w.log.add toErrors (linesText (if c then lines else [])))) := by
  cases c with
  | true => exact bind_of_ok _ (Session.forM_line toErrors lines w)
  | false =>
    rw [if_neg Bool.false_ne_true, linesText, Log.add_empty]
    rfl

/-- The lines of the notice that the first report asks for, if the outcome is blocked. -/
def noticeOf (st : Style) (o : Outcome) : List String :=
  if o.blocked then (o.reports.head?.map fun (_, r) => r.noticeLines st).getD [] else []

/-- The lines that summing up tells: the summary and then the notice. -/
def closingLines (q : Request) (st : Style) (changedOnly : Bool) (as : List Audited) :
    List String :=
  (if !q.paths.isEmpty then summaryLines q changedOnly as else []) ++
    (if q.manner.verbose then noticeOf st (Outcome.of as) else [])

/-- **Summing up tells the summary and the notice and prints the metrics**, and then writes the
    report. -/
theorem conclude_eq (q : Request) {st : Style} (hst : st.toErrors) (s : Settings)
    (as : List Audited) (w : World) : conclude q st s as w = reporting q as (w.relog { w.log with
      out := w.log.out ++ linesText (coverageLines q s as)
      err := w.log.err ++ linesText (closingLines q st s.changedOnly as) }) := by
  have hprint : ∀ lines, st.print lines = lines.forM (if true then warnLine else printLine) := by
    intro lines
    unfold Style.print
    rw [hst]
  have hnotice : (if q.manner.verbose then noticeOf st (Outcome.of as) else [])
      = if ((Outcome.of as).blocked && q.manner.verbose) then
        ((Outcome.of as).reports.head?.map fun (_, r) => r.noticeLines st).getD [] else [] := by
    unfold noticeOf
    cases q.manner.verbose <;> cases (Outcome.of as).blocked <;> rfl
  rw [conclude_steps, hprint]
  refine (when_lines _ true _ _ _).trans ((when_lines _ false _ _ _).trans
    ((when_lines _ true _ _ _).trans ?_))
  rw [closingLines, hnotice]
  simp [Log.add, World.relog, coverageLines, String.append_assoc]

/-! ## §5. The report. -/

theorem plain_save (s : Coverage.Summary) (path : String) : Session.Plain (s.save path) := by
  unfold Coverage.Summary.save
  refine Session.Plain.bind (Session.plain_ensureFolder _) fun _ => ?_
  exact Session.Plain.bind (Session.Plain.ofExcept _) fun _ => Session.plain_writeText _ _

/-- What is printed about a report. -/
def savedLines (verbose : Bool) (path : String) : Except Fault Unit → List String
  | .ok _ => if verbose then ["\nCoverage report saved to: " ++ path] else []
  | .error f => if verbose then ["\nFailed to generate coverage report: " ++ f.message] else []

/-- What became of a report is told, and stays in the tree. -/
theorem saveCoverage_eq (verbose : Bool) (as : List Audited) (path : String) (w : World) :
    saveCoverage verbose as path w = .ok () ((((coverageOf as).save path).leaves w).relog
      { (((coverageOf as).save path).leaves w).log with
        out := (((coverageOf as).save path).leaves w).log.out ++
          linesText (savedLines verbose path (((coverageOf as).save path).verdict w)) }) := by
  -- what was told depends on the output being verbose
  have hline : ∀ (line : String) (x : World),
    (if verbose then Session.printLine line else pure ()) x
      = .ok () (x.relog { x.log with
          out := x.log.out ++ linesText (if verbose then [line] else []) }) := by
    intro line x
    cases verbose with
    | true =>
      rw [if_pos rfl, if_pos rfl, show linesText [line] = line ++ "\n" from String.append_empty]
      rfl
    | false => simp [linesText, World.relog, pure, EStateM.pure]
  unfold saveCoverage Session.leaves Session.verdict
  cases hsave : (coverageOf as).save path w with
  | ok u x =>
    have hattempt : Session.attempt ((coverageOf as).save path) w = .ok (.ok u) x := by
      unfold Session.attempt
      rw [hsave]
    rw [Session.bind_of_ok _ hattempt]
    exact hline _ x
  | error f x =>
    have hattempt : Session.attempt ((coverageOf as).save path) w = .ok (.error f) x := by
      unfold Session.attempt
      rw [hsave]
    rw [Session.bind_of_ok _ hattempt]
    exact hline _ x

/-- What is printed at the end of a run about its report. -/
def reportLines (q : Request) (w : World) (as : List Audited) : List String :=
  match given? q.reportPath with
  | some path => savedLines q.manner.verbose path (((coverageOf as).save path).verdict w)
  | none => []

/-- The world with the report of a run, or with what saving it left behind. -/
def reportWorld (q : Request) (w : World) (as : List Audited) : World :=
  match given? q.reportPath with
  | some path => ((coverageOf as).save path).leaves w
  | none => w

theorem reporting_eq (q : Request) (as : List Audited) (w : World) (l : Log) :
    reporting q as (w.relog l) = .ok (Outcome.of as)
      ((reportWorld q w as).relog { l with out := l.out ++ linesText (reportLines q w as) }) := by
  unfold reporting reportWorld reportLines
  cases given? q.reportPath with
  | some path =>
    have hplain := plain_save (coverageOf as) path
    have hverdict : ((coverageOf as).save path).verdict (w.relog l) =
        ((coverageOf as).save path).verdict w :=
      hplain.verdict_dress w w.processes l
    dsimp only
    rw [Session.bind_of_ok _ (saveCoverage_eq q.manner.verbose as path (w.relog l)),
      hplain.leaves_relog, hverdict]
    generalize ((coverageOf as).save path).leaves w = x
    generalize linesText (savedLines _ path _) = told
    rfl
  | none =>
    show EStateM.Result.ok (Outcome.of as) (w.relog l) = _
    simp [linesText]

/-- Summing up gives the outcome, whatever is told and whether or not a file can be written. -/
theorem verdict_conclude (q : Request) {st : Style} (hst : st.toErrors) (s : Settings)
    (as : List Audited) (w : World) : (conclude q st s as).verdict w = .ok (Outcome.of as) := by
  unfold Session.verdict
  rw [conclude_eq q hst, reporting_eq]

/-! ## §6. A run. -/

theorem quiet_configure (w : World) (q : Request) : Quiet w q.configure := by
  unfold Request.configure Config.load
  refine Looks.bind (P := fun _ => True) (Looks.get_bind ?_ fun l => ?_) fun c _ => ?_
  · exact Looks.bind (Looks.ofExcept (fun _ _ => trivial) False.elim) fun _ _ => Looks.pure trivial
  · rw [Settings.load_relog]
  · dsimp only
    split
    · exact Looks.ofExcept (fun _ _ => trivial) False.elim
    · exact Looks.pure trivial

/-- The audit of a path does not depend on the log. -/
theorem audited_relog (w : World) (l : Log) (c : Config) (mode release : Option String) :
    audited (w.relog l) c mode release = audited w c mode release := by
  funext path
  rw [← (leads_auditAddon w { mode := mode } c path release).relog l,
    ← (leads_auditAddon (w.relog l) { mode := mode } c path release).verdict_fst]

/-- **The outcome of a run**: the configuration, then the audits of all paths, each on its own.
    What is printed or written on the way does not occur. -/
theorem verdict_run (q : Request) (w : World) :
    (run q).verdict w = (q.configure.verdict w).bind fun c =>
      q.releaseGiven.bind fun release => (q.paths.mapM (audited w c q.manner.mode release)).map
        Outcome.of := by
  -- what follows the configuration is not blind by itself: it may write a file, but only at its end
  have htail : ∀ c release w, Session.verdict (do
      let st := Style.of (← get) { limit := q.limit, showInfo := q.showInfo, toErrors := true }
      let audits ← auditAll q st release c q.paths
      conclude q st audits.2.settings audits.1 : Session Outcome) w
      = (q.paths.mapM (audited w c q.manner.mode release)).map Outcome.of := by
    intro c release w
    rw [Session.verdict_get_bind]
    dsimp only
    rw [Session.verdict_bind_of_ok (g := fun p : List Audited × Config => Outcome.of p.1)
      fun _ => verdict_conclude q rfl _ _, ← (leads_auditAll w q _ release q.paths c).verdict_fst]
    cases (auditAll q _ release c q.paths).verdict w <;> rfl
  unfold run
  obtain ⟨r, hconfigure, -⟩ := quiet_configure w q
  rw [hconfigure.verdict_bind, hconfigure.verdict]
  · congr 1
    funext c
    cases q.releaseGiven with
    | error f => rfl
    | ok release => exact htail c release w
  · intro c l
    cases q.releaseGiven with
    | error f => rfl
    | ok release =>
      refine (htail c release (w.relog l)).trans (Eq.trans ?_ (htail c release w).symm)
      rw [audited_relog]

end Audit

end AddonAudit
