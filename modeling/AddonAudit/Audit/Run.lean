/-
  AddonAudit.Audit.Run — auditing addons.

  Each addon is audited on its own; a run then sums up what was found.
-/
import AddonAudit.Audit.Check
import AddonAudit.Audit.Metrics
import AddonAudit.Coverage.Summary
import AddonAudit.Report.Printer

namespace AddonAudit.Audit

/-! ## §1. Requests -/

/-- What a run is asked to do. -/
structure Request where
  paths : List String := []
  manner : Check.Manner := {}
  config : Option String := none
  showInfo : Bool := false
  /-- The scope to use instead of the one in the settings. -/
  scope : Option String := none
  reportPath : Option String := none
  showCoverage : Bool := true
  /-- Whether addons without findings are named too. -/
  showAll : Bool := false
  release : Option String := none
  limit : Option Int := none

def given? (s : Option String) : Option String := s.filter (· != "")

/-- The configuration of a run, with the scope that was asked for. -/
def Request.configure (q : Request) : Session Config := do
  let config ← Config.load q.config
  let config := match given? q.scope with
    | some s => config.withScope s
    | none => config
  match given? q.release with
  | some v => Session.ofExcept (config.setRelease (.text v))
  | none => return config

/-- The version that was asked for, in its normal form. -/
def Request.releaseGiven (q : Request) : Except Fault (Option String) :=
  match given? q.release with
  | some v => do return some (← Release.normalize v)
  | none => return none

/-! ## §2. Auditing one addon -/

/-- An addon with what was found in it. -/
structure Audited where
  addon : Addon
  report : Report
  readings : List (String × Model.Reading)

/-- Runs all checks on an addon, one after another. -/
def runChecks (m : Check.Manner) (a : Addon) (config : Config) (r : Report) :
    List Check → Session (Report × Config)
  | [] => return (r, config)
  | c :: cs => do
    match ← Check.run m config a r c with
    | (.ok r, config) => runChecks m a config r cs
    | (.error f, _) => throw f

/-- Loads an addon and checks it. -/
def checkAddon (m : Check.Manner) (config : Config) (path : String) (release : Option String) :
    Session ((Addon × Report) × Config) := do
  let (addon, config) ← Addon.load config ((← get).resolve path) release
  let (report, config) ← runChecks m addon config { settings := config.settings } Check.all
  return ((addon, report), config)

/-- Checks an addon and reads its source files. -/
def auditAddon (m : Check.Manner) (config : Config) (path : String) (release : Option String) :
    Session (Audited × Config) := do
  let ((addon, report), config) ← checkAddon m config path release
  let readings ← Session.ofExcept (addon.readings (← get))
  return (⟨addon, report, readings⟩, config)

/-- What is printed about one addon. -/
def addonLines (st : Style) (q : Request) (changedOnly : Bool) (a : Audited) : List String :=
  if a.report.isVisible q.showInfo then a.report.lines st a.addon.name changedOnly
  else if q.showAll then [successLine st a.addon.name changedOnly]
  else []

/-- Audits the addons in order, and tells of each. -/
def auditAll (q : Request) (st : Style) (release : Option String) (config : Config) :
    List String → Session (List Audited × Config)
  | [] => return ([], config)
  | path :: rest => do
    let (a, config) ← auditAddon q.manner config path release
    if q.manner.verbose then st.print (addonLines st q config.settings.changedOnly a)
    let (more, config) ← auditAll q st release config rest
    return (a :: more, config)

/-! ## §3. The summary -/

/-- The reports that hold anything, by addon. -/
def reportsOf (as : List Audited) : List (String × Report) :=
  (as.filter fun a => !a.report.isEmpty).map fun a => (a.addon.name, a.report)

/-- Whether an addon has a finding that blocks. -/
def isBlocked (as : List Audited) : Bool := as.any (·.report.isBlocking)

/-- How many messages of a severity there are in all. -/
def totalOf (as : List Audited) (s : Severity) : Nat := (as.map (·.report.count s)).foldr (· + ·) 0

/-- What is printed at the end of a run. -/
def summaryLines (q : Request) (changedOnly : Bool) (as : List Audited) : List String :=
  ["", thickRule, "SOLT PRE-COMMIT VALIDATION", thickRule, "  Scope: " ++ scopeLabel changedOnly,
    "  Odoo version(s): " ++ ", ".intercalate (Text.sortedSet (as.map (·.addon.release))),
    "  Modules checked: " ++ toString as.length] ++
  as.map (fun a => "    - " ++ a.addon.name) ++
  ["", "  Errors: " ++ toString (totalOf as .error), "  Warnings: " ++
    toString (totalOf as .warning)] ++
  (if q.showInfo then ["  Info: " ++ toString (totalOf as .info)] else []) ++
  ["  Time: 0.00s"] ++
  (if isBlocked as then [] else ["", Style.green ++ "  ✓ All checks passed!" ++ Style.reset]) ++
  [thickRule]

/-- The metrics of the audited addons. -/
def coverageOf (as : List Audited) : Coverage.Summary where
  addons := as.map fun a =>
    Coverage.ofDeclarations Coverage.standardPolicy a.addon.name a.addon.folder
      (Model.declarations a.readings)
  issues := {
    errors := totalOf as .error
    warnings := totalOf as .warning
    info := totalOf as .info }

/-- Writes the coverage of audited addons; that it cannot be written is only told. -/
def saveCoverage (verbose : Bool) (as : List Audited) (path : String) : Session Unit := do
  match ← Session.attempt ((coverageOf as).save path) with
  | .ok _ => if verbose then Session.printLine ("\nCoverage report saved to: " ++ path)
  | .error f =>
    if verbose then Session.printLine ("\nFailed to generate coverage report: " ++ f.message)

/-! ## §4. A run -/

/-- What a run gave. -/
structure Outcome where
  /-- The reports that hold anything, by addon. -/
  reports : List (String × Report)
  blocked : Bool

/-- A run that is blocked fails. -/
def Outcome.exitCode (o : Outcome) : Int := if o.blocked then 1 else 0

def Outcome.of (as : List Audited) : Outcome := ⟨reportsOf as, isBlocked as⟩

/-- Sums up what was found, and writes down the coverage if that is asked for. -/
def conclude (q : Request) (st : Style) (s : Settings) (as : List Audited) : Session Outcome := do
  if !q.paths.isEmpty then (summaryLines q s.changedOnly as).forM Session.warnLine
  if q.manner.verbose && q.showCoverage then
    let metrics := Metrics.of (Model.Policy.ofSettings s)
      (as.flatMap fun a => a.readings.map (·.2.survey))
    (metrics.lines as.length).forM Session.printLine
  let outcome := Outcome.of as
  if outcome.blocked && q.manner.verbose then
    st.print ((outcome.reports.head?.map fun (_, r) => r.noticeLines st).getD [])
  if let some path := given? q.reportPath then saveCoverage q.manner.verbose as path
  return outcome

/-- A whole run: configuration, audits, metrics and report. -/
def run (q : Request) : Session Outcome := do
  let config ← q.configure
  let release ← Session.ofExcept q.releaseGiven
  let st := Style.of (← get) { limit := q.limit, showInfo := q.showInfo, toErrors := true }
  let (as, config) ← auditAll q st release config q.paths
  conclude q st config.settings as

end AddonAudit.Audit
