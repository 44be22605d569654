/-
  AddonAudit.Benchmark.Share — how much of the time of each benchmark the code under test takes.
-/
import AddonAudit.Datum
import AddonAudit.Decimal.Fixed

namespace AddonAudit.Benchmark

/-- Share of a hundred below which the time of a benchmark is spent in other code. -/
def shareLimit : Float := 45

/-- The shares of benchmarks, and the other code that takes the most time in each. -/
structure Shares where
  /-- Shares of a hundred by the name of the benchmark; negative ones could not be measured. -/
  shares : List (Datum × Float) := []
  /-- Shares of other code by the name of the benchmark. -/
  others : Datum := .table []

/-- Reads the shares of all benchmarks. -/
def Shares.read (d : Datum) : Except Fault Shares := do
  let shares ← (← Datum.entry "repo_time_pct" (.table []) d).entries
  let shares ← shares.mapM fun (name, share) => do return (name, ← share.real)
  return { shares, others := ← Datum.entry "hot_ext" (.table []) d }

namespace Shares

/-- The shares that could be measured. -/
def measured (s : Shares) : List Float := (s.shares.map (·.2)).filter (0 ≤ ·)

def lowCount (s : Shares) : Nat := (s.measured.filter (· < shareLimit)).length

/-- How many shares are too low, if any could be measured. -/
def low? (s : Shares) : Option Nat := if s.measured.isEmpty then none else some s.lowCount

/-- One piece of other code with its share. -/
def otherText (d : Datum) : Option String :=
  match d with
  | .list [share, name] =>
    match share.real with
    | .ok x => some (name.shown ++ " " ++ Decimal.fixed 0 x ++ "%")
    | .error _ => none
  | _ => none

/-- The other code that takes the most time in a benchmark. -/
def othersText (s : Shares) (name : Datum) : String :=
  match s.others with
  | .table es =>
    match Datum.lookup name es with
    | some (.list xs) =>
      if xs.isEmpty then "" else " (hot: " ++ " ".intercalate (xs.filterMap otherText) ++ ")"
    | _ => ""
  | _ => ""

/-- The line of a benchmark with its share. -/
def line (s : Shares) (name : Datum) (share : Float) : String :=
  let isLow := 0 ≤ share && share < shareLimit
  let shown := Decimal.fixed 1 (if share < 0 then 0 else share)
  (if isLow then "  * " else "    ") ++ Text.padRight name.shown 32 ++ " " ++
    Text.padLeft shown 5 ++ "%" ++
    (if share < 0 then "  <error>" else if isLow then s.othersText name else "")

/-- The lines of all benchmarks, the lowest share first. -/
def lines (s : Shares) : List String :=
  if s.shares.isEmpty then []
  else "\nrepo_time (target 50%; * = below 45%):" ::
    (s.shares.mergeSort fun a b => a.2 ≤ b.2).map fun (name, share) => s.line name share

/-- What the closing line of a round says about shares. -/
def closing (s : Shares) : String :=
  if s.shares.isEmpty then ""
  else ", " ++ toString s.lowCount ++ "/" ++ toString s.measured.length ++ " below repo_time 45%"

end Shares

end AddonAudit.Benchmark
