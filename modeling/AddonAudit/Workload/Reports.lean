/-
  AddonAudit.Workload.Reports — a workload that looks at reports.
-/
import AddonAudit.Report.Basic
import AddonAudit.Workload.Basic

namespace AddonAudit.Workload

/-- The severities of further checks follow each other. -/
def severityOf (i : Nat) : Severity :=
  match i % 3 with
  | 0 => .error
  | 1 => .warning
  | _ => .info

/-- Names of further checks with their severities. -/
def furtherChecks (count : Int) : List (String × Datum) :=
  (List.range count.toNat).map fun i => ("bench_check_" ++ toString i, .text (severityOf i).text)

/-- A report with two messages of every known check. -/
def fullReport (s : Settings) : Report :=
  s.severities.foldl (fun r (check, _) => r.add check.shown ["first", "second"]) { settings := s }

/-- Numbers by severity, in order of their names. -/
def bySeverity (number : Severity → Nat) : Datum :=
  .list ((Sample.counts (Severity.all.map fun s => (s.text, number s))).map countPair)

def reportViews (full empty : Report) : List Datum := [
  .bool full.isBlocking, .bool full.hasErrorsOrWarnings, .bool (full.isVisible true),
  .bool (full.isVisible false), .bool full.isEmpty, .bool empty.isEmpty, .bool empty.isBlocking,
  bySeverity full.count, bySeverity fun s => (full.ofSeverity s).length,
  .bool (empty.isVisible true), .bool empty.hasErrorsOrWarnings]

/-- Looks at a report with the findings of all checks and of further ones, two times. -/
def reportLooks (count : Int) : Session Workload := do
  let settings ← Session.ofExcept (Settings.ofDatum
    (Sample.tableOf [("severity", Sample.tableOf (furtherChecks count))]))
  return do
    let views := reportViews (fullReport settings) { settings }
    return .list (views ++ views)

end AddonAudit.Workload
