/-
  AddonAudit.Benchmark.SelfCheck — whether benchmarks measure what they claim to.

  A benchmark is run twice with the same parameters and then with others.  What it returns is known
  by fingerprints only.
-/
import AddonAudit.Benchmark.Table

namespace AddonAudit.Benchmark

/-! ## §1. Observations -/

/-- What was seen when a benchmark ran. -/
structure Observation where
  /-- The type of what it returns, or an error in angle brackets. -/
  returned : Datum
  /-- Fingerprints from runs with the same parameters. -/
  repeated : List Datum
  /-- Fingerprints from runs with different parameters. -/
  varied : List Datum
  parameters : List Datum
  /-- Milliseconds spent in the code under test. -/
  times : List Float
  /-- Shares of the time spent in the code under test. -/
  shares : List Float

/-- The numbers in a table that may be missing. -/
def numbersIn (key : String) (d : Datum) : Except Fault (List Float) := do
  (← (orElse (← Datum.entry key .null d) (.table [])).entries).mapM fun (_, x) => x.real

/-- Reads what was measured of a benchmark. -/
def Observation.read (d : Datum) : Except Fault Observation := do
  return {
    returned := ← Datum.entry "ret_type" .null d
    repeated := ← (orElse (← Datum.entry "fp_stable" .null d) (.list [])).parts
    varied := (← (orElse (← Datum.entry "fp_by_param" .null d) (.table [])).entries).map (·.2)
    parameters := ← (orElse (← Datum.entry "param_fps" .null d) (.list [])).parts
    times := ← numbersIn "repo_tt_ms" d
    shares := ← numbersIn "repo_frac" d }

/-- The middle of some numbers, or the mean of the two in the middle. -/
def median (xs : List Float) : Float :=
  let sorted := (xs.mergeSort fun a b => a ≤ b).toArray
  let half := sorted.size / 2
  let item (i : Nat) : Float := (sorted[i]?).getD 0
  if sorted.size % 2 == 1 then item half
  else if sorted.isEmpty then 0
  else (item (half - 1) + item half) / 2

def least : List Float → Float
  | [] => 0
  | x :: xs => xs.foldl (fun a b => if b < a then b else a) x

/-- The members of a list without repetitions. -/
def distinct (xs : List Datum) : List Datum := xs.foldl (fun seen x => Datum.addMember x seen) []

/-! ## §2. Verdicts -/

/-- What is wrong with a benchmark. -/
inductive Verdict where
  | ok
  /-- Nothing, but it was not run with different parameters. -/
  | okOneParameter
  /-- Files other than the benchmarks were changed. -/
  | modified
  | error
  | returnsNone
  /-- It returns something else each time. -/
  | unstable
  | returnsInput
  /-- It spends too little time in the code under test. -/
  | lowShare
  | tooFast
  /-- It returns the same whatever the parameters. -/
  | invariant
  deriving DecidableEq

def Verdict.name : Verdict → String
  | .ok => "ok"
  | .okOneParameter => "ok-unparam"
  | .modified => "repo-modified"
  | .error => "error"
  | .returnsNone => "returns-none"
  | .unstable => "unstable"
  | .returnsInput => "returns-input"
  | .lowShare => "low-repo-time"
  | .tooFast => "too-fast"
  | .invariant => "param-invariant"

def Verdict.isOk (v : Verdict) : Bool := v == .ok || v == .okOneParameter

/-- Least share of the time in the code under test. -/
def leastShare : Float := 0.5

/-- Least median of milliseconds in the code under test. -/
def leastTime : Float := 1.0

/-- Whether a type stands for an error: it is missing or in angle brackets. -/
def isErrorType (d : Datum) : Bool :=
  match d with
  | .text s => s == "" || Text.startsWith s "<"
  | d => !d.truthy

/-- What an observation says about a benchmark; the first fault counts. -/
def Observation.verdict (o : Observation) (modified : Bool) : Verdict :=
  if modified then .modified
  else if isErrorType o.returned then .error
  else if o.returned.same (.text "NoneType") then .returnsNone
  else if (distinct o.repeated).length != 1 then .unstable
  else if o.repeated.any fun f => o.parameters.any f.same then .returnsInput
  else if !o.shares.isEmpty && least o.shares < leastShare then .lowShare
  else if !o.times.isEmpty && median o.times < leastTime then .tooFast
  else if o.varied.length < 2 then .okOneParameter
  else if (distinct o.varied).length == 1 then .invariant
  else .ok

/-! ## §3. Lines -/

/-- A benchmark that was checked. -/
structure Checked where
  name : Datum
  observation : Observation
  verdict : Verdict

/-- Reads the checks of benchmarks; what is no table is left out. -/
def readChecks (modified : Bool) (d : Datum) : Except Fault (List Checked) := do
  let found ← (← Datum.entry "semcheck" (.table []) d).entries
  found.filterMapM fun (name, d) => do
    match d with
    | .table _ =>
      let observation ← Observation.read d
      return some { name, observation, verdict := observation.verdict modified }
    | _ => return none

/-- The line of a benchmark; a star asks for a fix. -/
def Checked.line (c : Checked) : String :=
  (if c.verdict.isOk then "    " else "  * ") ++ Text.padRight c.name.shown 32 ++ " " ++
    Text.padRight c.verdict.name 16 ++ " (" ++ (orElse c.observation.returned (.text "?")).shown ++
    ", repo " ++
    wholePercent (100 * least c.observation.shares) ++ ") " ++
    Decimal.fixed 1 (median c.observation.times) ++ "ms"

def legend : List String := [
  "\nself-check (* = fix needed):",
  "  returns-none: run() has no return — collect and return the call results",
  "  unstable: seed RNG in setup; avoid time/uuid/id in the return",
  "  returns-input: return repo output, not the parameter value",
  "  low-repo-time: <50% of run() time is in repo code — move glue to setup",
  "  param-invariant: return something derived from run()'s work, not setup",
  "  repo-modified: revert edits to repo files (git checkout -- <path>)"]

/-- How many benchmarks cannot stay as they are. -/
def faultyCount (cs : List Checked) : Nat := (cs.filter (!·.verdict.isOk)).length

/-- The lines of all benchmarks, those that cannot stay as they are first. -/
def checkLines (cs : List Checked) : List String :=
  if cs.isEmpty then []
  else legend ++ (cs.filter (!·.verdict.isOk) ++ cs.filter (·.verdict.isOk)).map Checked.line

/-- What the closing line of a round says about checks. -/
def checkClosing (cs : List Checked) : String :=
  if cs.isEmpty then ""
  else ", " ++ toString (faultyCount cs) ++ "/" ++ toString cs.length ++ " not self-checking"

end AddonAudit.Benchmark
