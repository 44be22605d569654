/-
  AddonAudit.Workload.Basic — workloads: computations that are measured.

  A workload is prepared once, in a folder of its own, and then run as often as one likes.  What a
  run gives tells a change of the results from one run to the next.
-/
import AddonAudit.Findings
import AddonAudit.Sample.Addon

namespace AddonAudit

/-! ## §1. Workloads -/

/-- What a prepared workload does when it runs. -/
abbrev Workload := Session Datum

namespace Workload

/-- Runs a computation; what it prints is dropped. -/
def silently {α : Type} (x : Session α) : Session α := do
  let before ← Session.see (·.log)
  let a ← x
  modify fun w => { w with log := { w.log with out := before.out, err := before.err } }
  return a

/-- Runs a computation with some variables set; afterwards they are as before. -/
def within {α : Type} (entries : List (String × String)) (x : Session α) : Session α := do
  let before ← Session.see (·.env)
  modify fun w => entries.foldl (fun w (name, value) => w.setVariable name (some value)) w
  let a ← x
  modify fun w => { w with env := before }
  return a

/-- Runs a prepared workload several times. -/
def repeated (load : Workload) : (runs : Nat) → Session (List Datum)
  | 0 => return []
  | n + 1 => do
    let d ← load
    return d :: (← repeated load n)

/-! ## §2. Results -/

def countPair : String × Nat → Datum
  | (name, n) => .list [.text name, .int n]

/-- How many findings there are of every kind, in order of their names. -/
def tallied (found : Findings) : List Datum :=
  (Sample.counts (found.map fun (check, messages) => (check, messages.length))).map countPair

end Workload

end AddonAudit
