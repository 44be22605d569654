/-
  AddonAudit.Branch.Policy — the naming policy of branches.

  A name has a type and a release version, and in strict mode a ticket.  Types, tickets and further
  protected names come from the settings.
-/
import AddonAudit.Pattern.Match
import AddonAudit.Pattern.Reader
import AddonAudit.Settings

namespace AddonAudit.Branch

/-! ## §1. Standard names -/

/-- The types that are allowed by themselves. -/
def standardTypes : List String :=
  ["feature", "fix", "hotfix", "bugfix", "release", "refactor", "docs", "test", "chore", "imp",
   "improvement", "perf", "style", "ci", "build", "deps", "config", "security", "ux", "ui", "infra",
   "ops", "release-candidate", "revert", "migration"]

/-- Branches that are never looked at. -/
def protectedNames : List String :=
  ["main", "master", "develop", "development", "staging", "production", "HEAD"]

/-- A version is a number and `.0`. -/
def versionPattern : String := "\\d+\\.0"

/-- Patterns of branches that are never looked at: those of a release. -/
def protectedPatterns : List String :=
  ["^" ++ versionPattern ++ "$", "^" ++ versionPattern ++ "\\.\\d+.*$"]

/-- Tickets that may start with any capital letters. -/
def anyTicket : String := "[A-Z]+"

/-! ## §2. Policies -/

/-- A naming policy. -/
structure Policy where
  strict : Datum
  tickets : Datum
  types : Datum
  /-- Further branches that are never looked at. -/
  spared : Option Datum
  sparedPatterns : List Datum
  /-- The patterns of allowed names by type, in the order in which they are tried. -/
  patterns : List (String × List Pattern.Node)

/-- Whether tickets may start with anything. -/
def allowsAnyTicket (tickets : Datum) : Bool := tickets.same (.list [.text anyTicket])

/-! ## §3. Patterns of a policy -/

/-- A ticket's start as a pattern that stands for itself. -/
def ticketPattern : Datum → Except Fault String
  | .text s => .ok (Pattern.quote s)
  | .bytes bs => .ok (Pattern.quote (String.ofList (bs.map fun b => Char.ofNat b.toNat)))
  | d => .error (.notBytes d.kind)

/-- The pattern of what tickets may start with. -/
def ticketsPattern (tickets : Datum) : Except Fault String := do
  if allowsAnyTicket tickets then return anyTicket
  let parts ← (← tickets.parts).mapM ticketPattern
  return "(" ++ "|".intercalate parts ++ ")"

/-- The texts of an entry, each of which has to be one. -/
def textsOf (d : Datum) : Except Fault (List String) := do
  let parts ← match d.parts with
    | .ok ps => pure ps
    | .error _ => throw .notJoinable
  go 0 parts
where
  /-- Takes the items of a list as texts. -/
  go (i : Nat) : List Datum → Except Fault (List String)
    | [] => .ok []
    | .text s :: rest => do return s :: (← go (i + 1) rest)
    | d :: _ => .error (.notText i d.kind)

/-- The pattern of the names of a type. -/
def typePattern (strict : Bool) (tickets type : String) : String :=
  let withTicket := versionPattern ++ "-" ++ tickets ++ "-\\d+-.+"
  if type == "release" then "^release/\\d+\\.\\d+(\\.\\d+)*$"
  else if strict then "^" ++ type ++ "/" ++ withTicket ++ "$"
  else "^" ++ type ++ "/(" ++ withTicket ++ "|" ++ versionPattern ++ "-.+)$"

/-- Sets the pattern of a type in its place, or at the end. -/
def setPattern (type : String) (p : List Pattern.Node) :
    List (String × List Pattern.Node) → List (String × List Pattern.Node)
  | [] => [(type, p)]
  | (t, q) :: rest => if t == type then (t, p) :: rest else (t, q) :: setPattern type p rest

/-- Reads a pattern; one that cannot be read is a fault. -/
def readPattern (pattern : String) : Except Fault (List Pattern.Node) :=
  (Pattern.read pattern).mapError (Pattern.Problem.fault pattern)

/-- The patterns of all types, and of the two forms that have no type in front. -/
def patternsOf (strict : Bool) (tickets : String) (types : List String) :
    Except Fault (List (String × List Pattern.Node)) := do
  let byType ← types.foldlM (fun acc t => do
    return setPattern t (← readPattern (typePattern strict tickets t)) acc) []
  let versionFirst ← readPattern ("^" ++ versionPattern ++ "-(" ++ "|".intercalate types ++ ")-.+$")
  let revert ← readPattern "^revert-\\d+-.+$"
  return setPattern "github-revert" revert (setPattern "version-type" versionFirst byType)

/-! ## §4. Reading a policy -/

/-- The patterns of branches that are never looked at, with those of the settings. -/
def sparedOf (config : Datum) : Except Fault (List Datum) :=
  let standard := textData protectedPatterns
  if !config.truthy then .ok standard
  else match config with
    | .list xs => (Datum.list (standard ++ xs)).setOf
    | d => .error (.notAppendable d.kind)

/-- The policy of a section of the settings; tickets and mode may be given otherwise. -/
def Policy.ofSection (tickets : Datum) (strict : Option Bool) : Datum → Except Fault Policy
  | .table es => do
    let entry (key : String) (default : Datum) : Datum := (Datum.lookupText key es).getD default
    let strict := match strict with
      | some b => .bool b
      | none => entry "strict" (.bool false)
    let set := entry "ticket_prefixes" (.list [])
    let tickets := if tickets.truthy then tickets
      else if set.truthy then set
      else .list [.text anyTicket]
    let types := entry "allowed_types" (.list (textData standardTypes))
    let sparedPatterns ← sparedOf (entry "protected_patterns" (.list []))
    let ticketsText ← ticketsPattern tickets
    let patterns ← patternsOf strict.truthy ticketsText (← textsOf types)
    return {
      strict, tickets, types, sparedPatterns, patterns
      spared := Datum.lookupText "protected_branches" es }
  | d => .error (.noOperation d.kind "get")

/-- The policy of a settings file. -/
def Policy.load (w : World) (tickets : Datum) (config : Option String) (strict : Option Bool) :
    Except Fault Policy := do
  match ← settingsDocument w config with
  | .table es =>
    Policy.ofSection tickets strict ((Datum.lookupText "branch_naming" es).getD (.table []))
  | d => throw (.noOperation d.kind "get")

end AddonAudit.Branch
