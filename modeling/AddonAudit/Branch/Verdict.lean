/-
  AddonAudit.Branch.Verdict — whether a branch name follows the policy.
-/
import AddonAudit.Branch.Policy
import AddonAudit.Branch.Version

namespace AddonAudit.Branch

/-! ## §1. Spared branches -/

/-- Whether a datum holds a text: as an item, as a key, or inside a text. -/
def holdsText (d : Datum) (s : String) : Except Fault Bool :=
  match d with
  | .text t => .ok (Text.contains t s)
  | .list xs => .ok (Datum.hasText xs s)
  | .tuple xs => .ok (Datum.hasText xs s)
  | .set xs => .ok (Datum.hasText xs s)
  | .table es => .ok (Datum.hasText (es.map (·.1)) s)
  | .bytes _ => .error .bytesNeeded
  | d => .error (.noMembership d.kind)

/-- Whether one of some patterns matches; those that cannot be read match nothing. -/
def anyMatches (name : String) : List Datum → Except Fault Bool
  | [] => .ok false
  | .text p :: rest =>
    match Pattern.read p with
    | .ok tree => if Pattern.matchesAt tree name then .ok true else anyMatches name rest
    | .error .tooLarge => .error .tooManyRepetitions
    | .error _ => anyMatches name rest
  | .bytes _ :: _ => .error .bytesPattern
  | _ :: _ => .error .notPattern

/-- Whether a branch is never looked at. -/
def Policy.spares (p : Policy) (name : String) : Except Fault Bool := do
  if protectedNames.contains name then return true
  if ← holdsText (p.spared.getD (.list [])) name then return true
  anyMatches name p.sparedPatterns

/-! ## §2. What is wrong with a name -/

/-- How many types a message shows. -/
def shownTypes : Nat := 10

/-- The types that are shown, and how many there are. -/
def firstTypes : Datum → Except Fault (List Datum × Nat)
  | .list xs => .ok (xs.take shownTypes, xs.length)
  | .tuple xs => .ok (xs.take shownTypes, xs.length)
  | .text s => .ok ((s.toList.take shownTypes).map fun c => .text c.toString, s.length)
  | .table _ => .error (.unhashable "slice")
  | d => .error (.notIndexed d.kind)

/-- The types as a message lists them. -/
def typesText (types : Datum) : Except Fault String := do
  let (shown, count) ← firstTypes types
  let names ← textsOf (.list shown)
  return ", ".intercalate names ++
    (if shownTypes < count then ", ... (+" ++ toString (count - shownTypes) ++ " more)" else "")

def firstTicket : Datum → Except Fault Datum
  | .list (x :: _) => .ok x
  | .tuple (x :: _) => .ok x
  | .text s =>
    match s.toList with
    | c :: _ => .ok (.text c.toString)
    | [] => .error (.noIndex "string")
  | .table es =>
    match Datum.lookup (.int 0) es with
    | some d => .ok d
    | none => .error (.noKey "0")
  | .list [] => .error (.noIndex "list")
  | .tuple [] => .error (.noIndex "tuple")
  | d => .error (.notIndexed d.kind)

/-- What is said of an invalid name in strict mode. -/
def strictMessage (p : Policy) (name types : String) : Except Fault String := do
  let tickets ← if allowsAnyTicket p.tickets then pure "Any UPPERCASE prefix (e.g., SOLT, PROJ)"
    else do pure (", ".intercalate (← textsOf p.tickets))
  let first ← firstTicket p.tickets
  let example_ := if first.same (.text anyTicket) then "PROJ" else first.shown
  return "
[ERROR] Invalid branch name: '" ++ name ++ "'

Mode: STRICT (version AND ticket required)

Branch names must follow this pattern:
  <type>/<odoo-version>-<TICKET>-<number>-<description>

Valid types: " ++ types ++ "
Ticket prefixes: " ++ tickets ++ "

Examples:
  [OK] feature/17.0-" ++ example_ ++ "-123-add-new-feature
  [OK] fix/18.0-" ++ example_ ++ "-456-correct-bug
  [OK] hotfix/17.0-" ++ example_ ++ "-789-urgent-fix
  [OK] 17.0-hotfix-urgent-fix
  [OK] release/17.0.1.0

Invalid (missing version or ticket):
  [X] feature/" ++ example_ ++ "-123-something  (missing version)
  [X] feature/add-something                   (missing version and ticket)
  [X] feature/17.0-add-something              (missing ticket in strict mode)
"

/-- What is said of an invalid name otherwise. -/
def flexibleMessage (name types : String) : String := "
[ERROR] Invalid branch name: '" ++ name ++ "'

Mode: FLEXIBLE (version required, ticket optional)

Branch names must follow one of these patterns:
  <type>/<odoo-version>-<TICKET>-<number>-<description>  (recommended)
  <type>/<odoo-version>-<description>
  <odoo-version>-<type>-<description>

Valid types: " ++ types ++ "

Examples:
  [OK] feature/17.0-SOLT-123-add-new-feature  (version + ticket)
  [OK] fix/18.0-PROJ-456-correct-bug          (version + ticket)
  [OK] feature/17.0-add-new-feature           (version only)
  [OK] hotfix/18.0-urgent-fix                 (version only)
  [OK] 17.0-hotfix-urgent-fix                 (version-type format)
  [OK] release/17.0.1.0

Invalid (missing Odoo version):
  [X] feature/add-something          (missing version)
  [X] feature/SOLT-123-something     (missing version)
  [X] Feature/17.0-something         (uppercase type)
"

/-- The names of all spared branches in order; data of other kinds cannot be ordered. -/
def sparedNames (p : Policy) : Except Fault (List String) := do
  let more := p.spared.getD (.list [])
  if !more.truthy then return Text.sortedSet protectedNames
  let members ← more.setOf
  let texts ← members.mapM fun d =>
    match d with
    | .text s => .ok s
    | d => .error (.notComparable .less d.kind "str")
  return Text.sortedSet (protectedNames ++ texts)

/-- What is said of an invalid name, with the names that are spared. -/
def errorMessage (p : Policy) (name : String) : Except Fault String := do
  let types ← typesText p.types
  let head ← if p.strict.truthy then strictMessage p name types
    else pure (flexibleMessage name types)
  let spared ← sparedNames p
  return head ++ "
Protected branches (no validation required):
  " ++ ", ".intercalate spared ++ "

Protected patterns (Odoo version branches):
  * 17.0, 18.0, 19.0 (direct version)
  * 17.0.1.0 (version with patch)
"

/-! ## §3. The verdict -/

/-- Whether a name is valid, and what to say about it. -/
structure Verdict where
  valid : Bool
  message : String
deriving DecidableEq

/-- The type of the first pattern that matches a name. -/
def Policy.typeOf? (p : Policy) (name : String) : Option String :=
  (p.patterns.find? fun (_, tree) => Pattern.matchesAt tree name).map (·.1)

/-- Names that are spared are valid. -/
def sparedVerdict (name : String) : Verdict :=
  match versionOf name with
  | some v => ⟨true, "Protected Odoo " ++ v ++ " branch '" ++ name ++ "' - skipped validation"⟩
  | none => ⟨true, "Protected branch '" ++ name ++ "' - skipped validation"⟩

/-- The verdict on a branch of an allowed type. -/
def typedVerdict (type name : String) : Verdict :=
  match versionOf name with
  | some v => ⟨true, "Valid " ++ type ++ " branch for Odoo " ++ v ++ ": " ++ name⟩
  | none => ⟨true, "Valid " ++ type ++ " branch: " ++ name⟩

/-- Judges a name: it is spared, it matches a pattern, or it is invalid. -/
def Policy.judge (p : Policy) (name : String) : Except Fault Verdict := do
  if ← p.spares name then return sparedVerdict name
  match p.typeOf? name with
  | some type => return typedVerdict type name
  | none => return ⟨false, ← errorMessage p name⟩

/-- The name of the current branch; none if it cannot be told. -/
def current : Session (Option String) := do
  match ← Session.attempt (Session.runChecked ["git", "rev-parse", "--abbrev-ref",
    "HEAD"] none) with
  | .ok r => return some (Text.strip r.out)
  | .error (.commandFailed _ _) => return none
  | .error f => throw f

end AddonAudit.Branch
