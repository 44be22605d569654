/-
  AddonAudit.Benchmark.Table — the table of how much of each file is covered.
-/
import AddonAudit.Datum
import AddonAudit.Decimal.Fixed
import AddonAudit.Workspace.Path

namespace AddonAudit.Benchmark

/-! ## §1. What is known about a file -/

/-- How much of a file is covered. -/
structure FileCoverage where
  name : String
  statements : Datum
  missed : Datum
  percent : Float
  missing : List Datum

/-- A datum, or a default in place of one that is empty. -/
def orElse (d default : Datum) : Datum := if d.truthy then d else default

/-- The largest number of characters of a name. -/
def nameLimit : Nat := 60

/-- The name of a file as the table shows it: seen from a folder if its path is absolute, and
    cut. -/
def shownName (folder path : String) : String :=
  Text.take (if Path.isAbsolute path then Path.relative "/" path folder else path) nameLimit

/-- Reads what is known about a file. -/
def FileCoverage.read (folder : String) (file : Datum × Datum) : Except Fault FileCoverage := do
  let summary := orElse (← Datum.entry "summary" .null file.2) (.table [])
  let missing ← (orElse (← Datum.entry "missing_lines" .null file.2) (.list [])).parts
  return {
    name := shownName folder file.1.shown
    statements := ← Datum.entry "num_statements" (.int 0) summary
    missed := ← Datum.entry "missing_lines" (.int 0) summary
    percent := ← (← Datum.entry "percent_covered" (.float 0) summary).real
    missing }

/-! ## §2. The lines of the table -/

/-- How many lines that are not covered a row shows. -/
def missingLimit : Nat := 12

/-- Lines that are not covered, cut after the first ones. -/
def missingText (missing : List Datum) : String :=
  ",".intercalate ((missing.take missingLimit).map Datum.shown) ++
    (if missingLimit < missing.length then "…" else "")

/-- The columns of a row but for the last one. -/
def columns (width : Nat) (name statements missed percent : String) : String :=
  Text.padRight name width ++ "  " ++ Text.padLeft statements 5 ++ "  " ++ Text.padLeft missed 4 ++
    "  " ++ Text.padLeft percent 5

/-- A share of a hundred without decimal places. -/
def wholePercent (x : Float) : String := Decimal.fixed 0 x ++ "%"

def FileCoverage.row (width : Nat) (f : FileCoverage) : String :=
  columns width f.name f.statements.shown f.missed.shown (wholePercent f.percent) ++ "  " ++
    missingText f.missing

/-- What is known about all files together. -/
structure Totals where
  percent : Float
  covered : Int
  statements : Int

/-- A whole number in a table, or zero. -/
def wholeEntry (key : String) (d : Datum) : Except Fault Int := do
  match (← Datum.entry key (.int 0) d).number? with
  | some (.inl i) => return i
  | _ => return 0

/-- Reads what is known about all files together. -/
def Totals.read (report : Datum) : Except Fault Totals := do
  let totals := orElse (← Datum.entry "totals" .null report) (.table [])
  return {
    percent := ← (← Datum.entry "percent_covered" (.float 0) totals).real
    covered := ← wholeEntry "covered_lines" totals
    statements := ← wholeEntry "num_statements" totals }

def Totals.row (width : Nat) (t : Totals) : String :=
  columns width "TOTAL" (toString t.statements) (toString (t.statements - t.covered))
    (wholePercent t.percent)

/-- The least width of the column with names. -/
def leastWidth : Nat := 4

def tableLines (files : List FileCoverage) (totals : Totals) : List String :=
  let width := files.foldl (fun n f => max n f.name.length) leastWidth
  let rule := Text.times "-" (width + 42)
  let rows := (files.mergeSort fun a b => a.percent ≤ b.percent).map (·.row width)
  [columns width "Name" "Stmts" "Miss" "Cover" ++ "  Missing", rule] ++ rows ++
    [rule, totals.row width]

end AddonAudit.Benchmark
