/-
  AddonAudit.Audit.Metrics — what a run says about the documentation of all addons together.
-/
import AddonAudit.Coverage.Analysis

namespace AddonAudit.Audit

/-- How many things were met, and how many of them are documented. -/
structure Metrics where
  models : Nat
  fields : Nat
  needLabel : Nat
  labelled : Nat
  needHelp : Nat
  helped : Nat
  methods : Nat
  documented : Nat

/-- The metrics of what source files declare. -/
def Metrics.of (p : Model.Policy) (surveys : List Model.Survey) : Metrics :=
  let models := surveys.flatMap (·.models)
  let fields := (surveys.flatMap fun s => s.fields.flatMap (·.2)).filter fun f =>
    !Text.startsWith f.name "_" && !f.related.truthy
  let needLabel := fields.filter fun f => !Datum.hasText p.skipLabel f.name
  let needHelp := fields.filter fun f => !Datum.hasText p.skipHelp f.name
  let methods := (surveys.flatMap fun s => s.methods.flatMap (·.2)).filter fun m =>
    Coverage.countsMethod p m.name
  { models := models.countP (·.2.isModel)
    fields := fields.length
    needLabel := needLabel.length
    labelled := needLabel.countP fun f => (Model.filled? f.label).isSome
    needHelp := needHelp.length
    helped := needHelp.countP fun f => (Model.filled? f.help).isSome
    methods := methods.length
    documented := methods.countP (·.docstring.isSome) }

/-- Whether there is nothing to measure. -/
def Metrics.isEmpty (m : Metrics) : Bool := m.needLabel == 0 && m.needHelp == 0 && m.methods == 0

/-- A share against its goal. -/
structure Goal where
  title : String
  part : Nat
  whole : Nat
  /-- The share in percent that should be reached. -/
  goal : Nat

/-- What is measured, with the share that is aimed at. -/
def Metrics.goals (m : Metrics) : List Goal :=
  [⟨"  Docstrings:          ", m.documented, m.methods, 80⟩,
   ⟨"  Fields with string:  ", m.labelled, m.needLabel, 90⟩,
   ⟨"  Fields with help:    ", m.helped, m.needHelp, 50⟩]

/-- A share in per cent, with one place. -/
def shareText (part whole : Nat) : String := Decimal.fixed 1 (Coverage.percent part whole)

/-- The line of a goal: its share, and whether it was reached. -/
def Goal.line (g : Goal) : String :=
  g.title ++ Text.padLeft (shareText g.part g.whole) 5 ++ "%  (" ++ toString g.part ++ "/" ++
    toString g.whole ++ ")  " ++
    (if g.goal.toFloat ≤ Coverage.percent g.part g.whole then "PASS" else "WARN") ++
    " (goal: >=" ++ toString g.goal ++ "%)"

/-- A named share as other programs read it. -/
def shareEntries (title : String) (part whole : Nat) : List String :=
  [title ++ "_cov=" ++ shareText part whole, title ++ "_documented=" ++ toString part,
   title ++ "_total=" ++ toString whole]

/-- The metrics as other programs read them. -/
def Metrics.record (m : Metrics) : String :=
  "METRICS:" ++ ",".intercalate (shareEntries "docstring" m.documented m.methods ++
    shareEntries "string" m.labelled m.needLabel ++ shareEntries "help" m.helped m.needHelp ++
    ["models=" ++ toString m.models])

def wideRule : String := Text.times "-" 60

/-- The lines of all goals, or none if there is nothing to measure. -/
def Metrics.lines (m : Metrics) (addons : Nat) : List String :=
  if m.isEmpty then []
  else
    ["", wideRule, "REPOSITORY COVERAGE (Informational)", wideRule,
      "  Modules analyzed: " ++ toString addons,
      "  Models: " ++ toString m.models ++ " | Total Fields: " ++ toString m.fields ++
        " | Public Methods: " ++ toString m.methods,
      "  Fields needing string: " ++ toString m.needLabel ++ " | Fields needing help: " ++
        toString m.needHelp, ""] ++
    m.goals.map Goal.line ++
    [wideRule, "These metrics are informational and do NOT block validation.", m.record, ""]

end AddonAudit.Audit
