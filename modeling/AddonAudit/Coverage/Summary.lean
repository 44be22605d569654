/-
  AddonAudit.Coverage.Summary — the metrics of several addons as a document.
-/
import AddonAudit.Coverage.Analysis
import AddonAudit.Json

namespace AddonAudit.Coverage

/-- How many issues were found, by where they come from. -/
structure Issues where
  errors : Nat := 0
  warnings : Nat := 0
  info : Nat := 0
  ruff : Datum := .int 0
  pylint : Datum := .int 0

/-- The metrics of several addons. -/
structure Summary where
  addons : List AddonMetrics := []
  issues : Issues := {}

namespace Summary

/-- The tally of all addons. -/
def tally (s : Summary) : Tally := Tally.sum (s.addons.map (·.tally))

def modelCount (s : Summary) : Nat := (s.addons.map (·.models.length)).foldr (· + ·) 0

end Summary

/-! ## Documents -/

def tableOf (entries : List (String × Datum)) :
    Datum := .table (entries.map fun (k, v) => (.text k, v))

def countOf (n : Nat) : Datum := .int n

/-- The part of a report about methods. -/
def methodsPart (t : Tally) : Datum :=
  tableOf [("total", countOf t.methods), ("documented", countOf t.documented),
    ("coverage", t.methodShare)]

/-- The part of a report about fields. -/
def fieldsPart (t : Tally) : Datum :=
  tableOf [("total", countOf t.fields), ("with_string", countOf t.labelled),
    ("with_help", countOf t.helped), ("string_coverage", t.labelShare),
    ("help_coverage", t.helpShare)]

/-- The part of a report about issues. -/
def issuesPart (i : Issues) : Datum :=
  tableOf [("errors", countOf i.errors), ("warnings", countOf i.warnings), ("info", countOf i.info),
    ("ruff", i.ruff), ("pylint", i.pylint)]

/-- The part of a report about one model. -/
def modelPart (m : ModelMetrics) : Datum :=
  let t := m.tally
  tableOf [("class_name", m.className), ("model_name", m.modelName), ("filename", m.file),
    ("method_coverage", t.methodShare), ("string_coverage", t.labelShare),
    ("help_coverage", t.helpShare)]

/-- The part of a report about one addon. -/
def addonPart (a : AddonMetrics) : Datum :=
  tableOf [("name", .text a.name), ("path", .text a.path),
    ("models_count", countOf a.models.length), ("methods", methodsPart a.tally),
    ("fields", fieldsPart a.tally),
    ("models", .list (a.models.map modelPart))]

/-- The whole report. -/
def Summary.document (s : Summary) : Datum :=
  tableOf [
    ("summary", tableOf [
      ("modules_count", countOf s.addons.length), ("models_count", countOf s.modelCount),
      ("methods", methodsPart s.tally), ("fields", fieldsPart s.tally),
      ("issues", issuesPart s.issues)]),
    ("modules", .list (s.addons.map addonPart))]

/-- How far a level of a written document is indented. -/
def usualIndent : Nat := 2

/-- The written document; data of some kinds cannot be written. -/
def Summary.text (s : Summary) : Except Fault String := do
  Json.checkWritable s.document
  return Json.writeIndented usualIndent s.document

/-- Writes the document to a file, making its folder if need be. -/
def Summary.save (s : Summary) (path : String) : Session Unit := do
  let path := Path.tidy path
  Session.ensureFolder (Path.parent path)
  Session.writeText path (← Session.ofExcept s.text)

end AddonAudit.Coverage
