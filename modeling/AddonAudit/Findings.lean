/-
  AddonAudit.Findings — groups that keep the order in which their keys were first met, and the
  findings of checks: messages grouped by the name of the check.
-/

namespace AddonAudit

/-- Values in groups, by key and in the order of the keys. -/
abbrev Groups (κ α : Type) := List (κ × List α)

namespace Groups

variable {κ α : Type} [BEq κ]

/-- Adds values to the group of a key: a known key keeps its place, a new one goes to the end. -/
def append (key : κ) (values : List α) : Groups κ α → Groups κ α
  | [] => [(key, values)]
  | (k, vs) :: rest =>
    if k == key then (k, vs ++ values) :: rest else (k, vs) :: append key values rest

/-- Adds one value to its group. -/
def add (key : κ) (value : α) (groups : Groups κ α) : Groups κ α := append key [value] groups

/-- The values of a key; none when it was never met. -/
def get (key : κ) : Groups κ α → List α
  | [] => []
  | (k, vs) :: rest => if k == key then vs else get key rest

/-- Groups values by a key that each of them may have. -/
def of (key : α → Option κ) (values : List α) : Groups κ α :=
  values.foldl
    (fun groups v =>
      match key v with
      | some k => add k v groups
      | none => groups)
    []

end Groups

/-- Messages by the name of the check that found them. -/
abbrev Findings := Groups String String

/-- One message of a check. -/
structure Finding where
  check : String
  message : String

/-- Findings by the check that made them. -/
def Findings.ofList (found : List Finding) : Findings :=
  found.foldl (fun fs f => Groups.add f.check f.message fs) []

end AddonAudit
