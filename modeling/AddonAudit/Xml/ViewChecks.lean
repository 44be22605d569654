/-
  AddonAudit.Xml.ViewChecks — checks on the expressions and attributes of views.

  Files that are missing or malformed are passed over.
-/
import AddonAudit.Decimal.Whole
import AddonAudit.Text.Word
import AddonAudit.Xml.RecordChecks

namespace AddonAudit.Xml

/-! ## §1. Words and numbers in expressions -/

/-- Variables that expressions may no longer use. -/
def oldVariables : List String := ["active_id", "active_ids", "active_model"]

/-- Whether a text starts with a word, and no word character follows it. -/
def startsWithWord (cs : List Char) (word : String) : Bool :=
  word.toList.isPrefixOf cs && !(cs.drop word.length).head?.any Text.isWord

/-- The uses of old variables in the rest of an expression, in order; a use starts behind no word
    character.  `skip` characters belong to a use that was found. -/
def oldVariablesFrom : (skip : Nat) → (inWord : Bool) → List Char → List String
  | _, _, [] => []
  | skip + 1, _, c :: cs => oldVariablesFrom skip (Text.isWord c) cs
  | 0, inWord, c :: cs =>
    match if inWord then none else oldVariables.find? (startsWithWord (c :: cs)) with
    | some word => word :: oldVariablesFrom (word.length - 1) (Text.isWord c) cs
    | none => oldVariablesFrom 0 (Text.isWord c) cs

def oldVariableUses (value : String) : List String := oldVariablesFrom 0 false value.toList

/-- Quotation marks of either kind. -/
def isQuote (c : Char) : Bool := c == '\x27' || c == '"'

/-- The runs of digits between two quotes; a quote that closes one number opens no other. -/
def quotedNumbers : (fuel : Nat) → List Char → List (List Char)
  | 0, _ => []
  | _, [] => []
  | fuel + 1, c :: cs =>
    if isQuote c then
      let digits := cs.takeWhile Text.isDecimal
      match cs.drop digits.length with
      | q :: rest =>
        if !digits.isEmpty && isQuote q then digits :: quotedNumbers fuel rest
        else quotedNumbers fuel cs
      | [] => []
    else quotedNumbers fuel cs

/-- Numbers up to this one are taken for values of other kinds. -/
def idThreshold : Nat := 100

/-- Whether a number is too large to be anything but an identifier. -/
def isLikelyId (digits : List Char) : Except Fault Bool :=
  let ds := digits.filterMap Text.decimalValue?
  if Decimal.maxDigits < ds.length then .error (.tooManyDigits ds.length)
  else .ok (idThreshold < Decimal.valueOfDigits ds)

/-! ## §2. Checks on attributes -/

def Document.elements (d : Document) : List Element :=
  match d.root? with
  | some root => root.selfAndDescendants
  | none => []

/-- The elements that have an attribute, with its value. -/
def Document.having (d : Document) (attr : String) : List (Element × String) :=
  d.elements.filterMap fun e => (e.get? attr).map fun v => (e, v)

def alertRoles : List String := ["alert", "alertdialog", "status"]

def alertsWithoutRole (d : Document) : List Finding :=
  (d.having "class").filterMap fun (e, classes) =>
    if Text.contains classes "alert-" && !Text.contains classes "alert-link" &&
        !alertRoles.contains (e.get "role" "") then
      some (d.finding "xml_alert_missing_role" e
        ("Element with class \"" ++ classes ++
          "\" should have role=\"alert\", role=\"alertdialog\", or role=\"status\""))
    else none

def expressionAttributes : List String :=
  ["context", "domain", "attrs", "options", "filter_domain", "default", "eval"]

def oldVariablesIn (d : Document) : List Finding :=
  expressionAttributes.flatMap fun attr =>
    (d.having attr).flatMap fun (e, value) =>
      (oldVariableUses value).map fun word =>
        d.finding "xml_deprecated_active_id_usage" e
          ("Deprecated use of \"" ++ word ++ "\" in " ++ attr ++ "=\"" ++ Text.take value 50 ++
          "...\"")

/-- Numbers in one expression that look like identifiers of records. -/
def hardcodedIn (d : Document) (attr : String) (e : Element) (value : String) :
    Except Fault (List Finding) := do
  if Text.contains value "ref(" then return []
  let numbers ← (quotedNumbers (value.length + 1) value.toList).filterM isLikelyId
  return numbers.map fun digits =>
    d.finding "xml_hardcoded_id" e
      ("Possible hardcoded ID \"" ++ String.ofList digits ++ "\" in " ++ attr ++
        ", consider using ref()")

/-- Numbers that look like identifiers of records. -/
def hardcodedIds (d : Document) : Except Fault (List Finding) := do
  let found ← ["domain", "context", "eval"].mapM fun attr =>
    (d.having attr).mapM fun (e, value) => hardcodedIn d attr e value
  return found.flatten.flatten

/-- Uses of a directive that writes text as it is. -/
def rawUses (d : Document) : List Finding :=
  (d.having "t-raw").map fun (e, value) =>
    d.finding "xml_deprecated_t_raw" e
      ("Deprecated t-raw=\"" ++ value ++ "\", use t-out with markup() instead")

/-! ## §3. Priorities of views -/

/-- A view that inherits from another one. -/
structure Heir where
  id : Option String
  line : Nat
  ref : String
  priority : String

def defaultPriority : String := "16"

/-- The priority that a field gives: its expression, else its text, else the default. -/
def priorityOf (field : Option Element) : String :=
  match field with
  | none => defaultPriority
  | some f => f.get "eval" (if f.text == "" then defaultPriority else f.text)

/-- The view of a record that inherits from another one. -/
def heirOf (record : Element) : Option Heir :=
  let fields (name : String) := (record.named "field").filter (·.hasValue "name" name)
  match fields "inherit_id" with
  | [] => none
  | parent :: _ =>
    some ⟨record.get? "id", record.line, parent.get "ref" "", priorityOf (fields "priority").head?⟩

def heirs (d : Document) : List Heir :=
  (d.elements.filter fun e => e.isNamed "record" &&
    e.hasValue "model" "ir.ui.view").filterMap heirOf

/-- The identifiers of views, all of which need one. -/
def heirNames (vs : List Heir) : Except Fault (List String) :=
  vs.zipIdx.mapM fun (v, i) =>
    match v.id with
    | some id => .ok id
    | none => .error (.notText i "NoneType")

def samePriorities (d : Document) : Except Fault (List Finding) := do
  let groups := Groups.of (fun v : Heir => some (v.ref, v.priority)) (heirs d)
  let found ← groups.mapM fun ((ref, priority), vs) =>
    match vs with
    | first :: _ :: _ => do
      let names ← heirNames vs
      return [(⟨"xml_duplicate_view_priority",
        place d.file.path first.line ++ " Views (" ++ ", ".intercalate names ++
          ") inherit from \"" ++ ref ++ "\" with same priority " ++ priority⟩ : Finding)]
    | _ => return []
  return found.flatten

/-! ## §4. All checks -/

def checkViews (ds : List Document) : Except Fault (List Finding) := do
  let priorities ← ds.mapM samePriorities
  let ids ← ds.mapM hardcodedIds
  return ds.flatMap alertsWithoutRole ++ ds.flatMap oldVariablesIn ++ priorities.flatten ++
    ids.flatten ++ ds.flatMap rawUses

def checkViewFiles (w : World) (files : List DataFile) : Except Fault Findings := do
  let ds ← files.mapM (readDocument w)
  return Findings.ofList (← checkViews ds)

end AddonAudit.Xml
