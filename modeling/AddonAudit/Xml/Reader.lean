/-
  AddonAudit.Xml.Reader — XML files as trees.
-/
import AddonAudit.Xml.DocumentType

namespace AddonAudit.Xml

/-! ## §1. The declaration -/

/-- Reads the value of an entry of the declaration in either kind of quotes. -/
def declaredValue (p : Char → Bool) : Reading String := do
  optionalSpaces
  expect "="
  optionalSpaces
  let double ← accept "\""
  if !double then expect "\x27"
  let value ← takeRun p
  expect (if double then "\"" else "\x27")
  return String.ofList value

/-- Judges a version: later ones than the first are warned about, unknown ones refused. -/
def checkVersion (version : String) : Reading Unit := do
  match version.toList with
  | a :: '.' :: rest =>
    require (a.isDigit && rest.all Char.isDigit)
    if version != "1.0" then
      require (a == '1')
      warn
  | _ => refuse

def isEncodingName (s : String) : Bool :=
  match s.toList with
  | c :: cs => c.isAlpha && cs.all fun c => c.isAlphanum || c == '.' || c == '_' || c == '-'
  | [] => false

/-- Reads the declaration after its opening and gives the encoding that it names. -/
def xmlDeclaration : Reading (Option String) := do
  requiredSpaces
  expect "version"
  checkVersion (← declaredValue fun c => c.isDigit || c == '.')
  let gap ← spaces
  let encoding ← if ← accept "encoding" then do
      require gap
      let name ← declaredValue fun c => c.isAlphanum || c == '.' || c == '_' || c == '-'
      require (isEncodingName name)
      pure (some name)
    else pure none
  let gap ← if encoding.isSome then spaces else pure gap
  if ← accept "standalone" then
    require gap
    let value ← declaredValue Char.isAlpha
    require (value == "yes" || value == "no")
    optionalSpaces
  expect "?>"
  return encoding

/-- Whether a text starts with a declaration. -/
def hasDeclaration (cs : List Char) : Bool :=
  "<?xml".toList.isPrefixOf cs && ((cs[5]?).map isSpace).getD false

/-! ## §2. Documents -/

/-- Skips blanks, comments and instructions. -/
def misc : (fuel : Nat) → Reading Unit
  | 0 => refuse
  | fuel + 1 => do
    optionalSpaces
    if ← accept "<!--" then
      discard comment
      misc fuel
    else if ← accept "<?" then
      discard instruction
      misc fuel
    else return

/-- Reads what may stand in front of the root element. -/
def prolog (fuel : Nat) : Reading Unit := do
  if hasDeclaration (← remaining) then
    skip 5
    discard xmlDeclaration
  misc fuel
  if ← accept "<!DOCTYPE" then
    documentType
    misc fuel

def document : Reading Element := do
  let fuel := (← remaining).length + 1
  prolog fuel
  expect "<"
  let root ← rootElement
  misc fuel
  require (← remaining).isEmpty
  require (!(← get).alarm)
  match (root.number 0).1.element? with
  | some e => return e
  | none => refuse

/-! ## §3. Files -/

/-- The encoding that a file without a mark declares; without a declaration it is UTF-8. -/
def declaredEncoding? (bytes : List UInt8) : Option Encoding :=
  let cs := bytes.map fun b => Char.ofNat b.toNat
  if hasDeclaration cs then
    match xmlDeclaration.run { rest := cs.drop 5 } with
    | some (some name, _) => encodingOf? name
    | some (none, _) => some .utf8
    | none => none
  else some .utf8

def decode? (bytes : List UInt8) : Option (List Char) :=
  match detect bytes with
  | (some e, rest) => decodeAs? e rest
  | (none, _) => (declaredEncoding? bytes).bind (decodeAs? · bytes)

/-- The root element of a file that is well-formed. -/
def read? (bytes : ByteArray) : Option Element := do
  let cs ← decode? bytes.toList
  let (e, _) ← document.run { rest := cs }
  return e

end AddonAudit.Xml
