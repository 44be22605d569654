/-
  AddonAudit.Benchmark.Round — rounds of measuring, and when to stop.
-/
import AddonAudit.Benchmark.SelfCheck
import AddonAudit.Benchmark.Share
import AddonAudit.Json

namespace AddonAudit.Benchmark

/-! ## §1. Earlier rounds -/

/-- The records of earlier rounds, one on each line that is not blank. -/
def readHistory (text : String) : Except Fault (List Datum) :=
  ((Text.linesOf text).filter (Text.strip · != "")).mapM Json.read

/-- The time since the last round, or zero before the first. -/
def sinceLast (history : List Datum) (now : Float) : Except Fault Float := do
  match history.getLast? with
  | none => return 0
  | some record =>
    match ← Datum.entry "ts" .null record with
    | .null => return 0
    | before => return Decimal.roundPlaces 2 (now - (← before.real))

/-- The numbers of low shares that earlier rounds recorded. -/
def lowHistory (history : List Datum) : Except Fault (List Int) :=
  history.filterMapM fun record => do
    match (← Datum.entry "n_below_repo_time" .null record).number? with
    | some (.inl n) => return some n
    | _ => return none

/-! ## §2. The record of a round -/

/-- What a round of measuring found. -/
structure Round where
  number : Nat
  time : Float
  /-- Seconds since the last round. -/
  wait : Float
  totals : Totals
  benchmarks : Nat
  /-- Names of benchmarks that failed, with their errors. -/
  errors : List (Datum × Datum)
  /-- Seconds that measuring took. -/
  duration : Float
  shares : Shares
  checks : List Checked

def tableOf (es : List (String × Datum)) : Datum := .table (es.map fun (k, v) => (.text k, v))

/-- What is remembered of a round. -/
def Round.record (r : Round) : Datum := tableOf [
  ("round", .int r.number),
  ("ts", .float r.time),
  ("wall_since_prev_s", .float r.wait),
  ("coverage_pct", .float r.totals.percent),
  ("covered_lines", .int r.totals.covered),
  ("num_statements", .int r.totals.statements),
  ("n_bench_fns", .int r.benchmarks),
  ("n_bench_errors", .int r.errors.length),
  ("cov_measure_s", .float r.duration),
  ("repo_time_pct", .table (r.shares.shares.map fun (name, share) => (name, .float share))),
  ("n_below_repo_time", (r.shares.low?.map fun n => .int n).getD .null),
  ("semcheck", .table (r.checks.map fun c => (c.name, .text c.verdict.name))),
  ("n_not_self_checking", .int (faultyCount r.checks))]

def errorLimit : Nat := 8

/-- The first errors, and how many more there are. -/
def errorLines (errors : List (Datum × Datum)) : List String :=
  if errors.isEmpty then []
  else ("\n" ++ toString errors.length ++ " bench error(s):") ::
    (errors.take errorLimit).map fun (name, text) => "  " ++ name.shown ++ ": " ++ text.shown

/-- The lines that tell files that should not have changed. -/
def modifiedLines (files : List String) : List String :=
  if files.isEmpty then []
  else ("\n** repo modified (" ++ toString files.length ++
    " file(s)) — revert these; only microbench.py is yours to edit:") :: files.map ("   " ++ ·)

/-- The line that closes a round. -/
def Round.closing (r : Round) : String :=
  "\n[round " ++ toString r.number ++ ": " ++ toString r.benchmarks ++ " benches, " ++
    Decimal.fixed 1 r.totals.percent ++ "% covered" ++ r.shares.closing ++ checkClosing r.checks ++
    ", measured in " ++ Decimal.fixed 1 r.duration ++ "s]"

/-! ## §3. When to stop -/

/-- Least coverage at which rounds may stop. -/
def enoughCoverage : Float := 60

/-- Rounds without improvement after which to stop. -/
def patience : Nat := 3

/-- Rounds since the least number was first reached, and that number. -/
def sinceBest (numbers : List Int) : Nat × Int :=
  let best := numbers.foldl min (numbers.headD 0)
  (numbers.length - 1 - numbers.findIdx (· == best), best)

/-- Why to stop after a round, given the numbers of low shares in earlier ones. -/
def Round.stop? (r : Round) (before : List Int) : Option String := do
  let low ← r.shares.low?
  if r.totals.percent < enoughCoverage then none
  else if low == 0 then some "0 below"
  else
    let (rounds, best) := sinceBest (before ++ [(low : Int)])
    if rounds < patience then none
    else some ("no improvement in " ++ toString rounds ++ " rounds; best " ++ toString best ++
      " below")

/-- The line that ends the rounds. -/
def stopLine (reason : String) : String :=
  "\n>>> STOP: repo_time converged (" ++ reason ++ "). Finalize microbench.py now. <<<"

end AddonAudit.Benchmark
