/-
  AddonAudit.Xml.DocumentType — document type declarations.

  Declarations are read for what they say about entities and attributes; nothing is validated, and
  nothing outside the document is read.
-/
import AddonAudit.Xml.Content

namespace AddonAudit.Xml

/-! ## §1. Identifiers and models -/

def isPublicChar (c : Char) : Bool :=
  c.isAlphanum || "-\x27()+,./:=?;!*#@$_% \r\n".toList.contains c

/-- Reads an identifier of something outside the document, if there is one; the system part may be
    left out where `allowBare` says so. -/
def externalId (allowBare : Bool) : Reading Bool := do
  if ← accept "SYSTEM" then
    requiredSpaces
    discard quotedText
    return true
  else if ← accept "PUBLIC" then
    requiredSpaces
    let id ← quotedText
    require (id.all isPublicChar)
    let gap ← spaces
    let more := ((← remaining).head?.map fun c => c == '"' || c == '\x27').getD false
    if more then
      require gap
      discard quotedText
    else require allowBare
    return true
  else return false

/-- Skips the sign that tells how often a part may occur. -/
def occurrence : Reading Unit := do
  match (← remaining).head? with
  | some c => if c == '?' || c == '*' || c == '+' then skip 1
  | none => pure ()

/-- Reads the parts of a group after its opening bracket; one kind of sign separates them. -/
def group : (fuel : Nat) → (separator : Option Char) → Reading Unit
  | 0, _ => refuse
  | fuel + 1, separator => do
    optionalSpaces
    if ← accept "(" then group fuel none
    else
      require ((← shortName) != "")
      if ← accept ":" then require ((← shortName) != "")
      occurrence
    optionalSpaces
    match ← remaining with
    | ')' :: _ =>
      skip 1
      occurrence
    | c :: _ =>
      require (c == ',' || c == '|')
      require (separator.isNone || separator == some c)
      skip 1
      group fuel (some c)
    | [] => refuse

/-- Reads the names of a mixed model after its keyword. -/
def mixedNames : (fuel : Nat) → (any : Bool) → Reading Unit
  | 0, _ => refuse
  | fuel + 1, any => do
    optionalSpaces
    if ← accept "|" then
      optionalSpaces
      discard longName
      mixedNames fuel true
    else
      expect ")"
      let star ← accept "*"
      require (star || !any)

/-- Reads what an element may hold. -/
def contentModel : Reading Unit := do
  if ← accept "EMPTY" then return
  if ← accept "ANY" then return
  expect "("
  let fuel := (← remaining).length + 1
  let outer ← get
  optionalSpaces
  if ← accept "#PCDATA" then mixedNames fuel false
  else
    set outer
    group fuel none

/-! ## §2. Entities -/

/-- The value of an entity: characters by number are resolved, other references stay. -/
def entityLiteral : (fuel : Nat) → List Char → Reading (List Char)
  | 0, _ => refuse
  | fuel + 1, before => do
    match ← remaining with
    | [] => return before.reverse
    | '%' :: _ => refuse
    | '&' :: '#' :: _ =>
      skip 1
      match ← reference with
      | .char c => entityLiteral fuel (c :: before)
      | .entity _ => refuse
    | '&' :: _ =>
      skip 1
      let name ← longName
      expect ";"
      entityLiteral fuel ((';' :: name.toList.reverse) ++ '&' :: before)
    | c :: _ =>
      skip 1
      entityLiteral fuel (c :: before)

def entityDeclaration : Reading Unit := do
  requiredSpaces
  let isParameter ← accept "%"
  if isParameter then requiredSpaces
  let name ← longName
  if name.toList.contains ':' then raise
  requiredSpaces
  let entity ← if ← externalId false then do
      let gap ← spaces
      if ← accept "NDATA" then
        require (gap && !isParameter)
        requiredSpaces
        discard longName
      pure Entity.external
    else do
      let text := unifyLines (← quotedText)
      pure (Entity.internal (← within text (entityLiteral (text.length + 1) [])))
  optionalSpaces
  expect ">"
  modify fun s =>
    let d := s.declared
    let known := if isParameter then d.parameters else d.entities
    if (known.lookup name).isSome then s
    else if isParameter then
      { s with declared := { d with parameters := d.parameters ++ [(name, entity)] } }
    else { s with declared := { d with entities := d.entities ++ [(name, entity)] } }

/-! ## §3. Attributes -/

/-- Reads the values that an attribute may have, after the opening bracket. -/
def enumeration : (fuel : Nat) → Reading Unit
  | 0 => refuse
  | fuel + 1 => do
    optionalSpaces
    let token ← takeRun fun c => isNameChar c || c == ':'
    require !token.isEmpty
    optionalSpaces
    if ← accept "|" then enumeration fuel else expect ")"

/-- Types of attributes whose blanks are not significant, longest names first. -/
def tokenTypes : List String :=
  ["IDREFS", "IDREF", "ID", "ENTITIES", "ENTITY", "NMTOKENS", "NMTOKEN"]

/-- The first of some words that the text starts with. -/
def acceptAny : List String → Reading Bool
  | [] => return false
  | w :: ws => do if ← accept w then return true else acceptAny ws

/-- Reads the type of an attribute and tells whether its blanks are significant. -/
def attributeType : Reading Bool := do
  if ← accept "CDATA" then return true
  if ← acceptAny tokenTypes then return false
  if ← accept "NOTATION" then requiredSpaces
  expect "("
  enumeration ((← remaining).length + 1)
  return false

def attributeDefault : Reading (Option String) := do
  if ← accept "#REQUIRED" then return none
  if ← accept "#IMPLIED" then return none
  if ← accept "#FIXED" then requiredSpaces
  return some (← attributeValue)

def attributeRules (owner : String) : (fuel : Nat) → Reading Unit
  | 0 => refuse
  | fuel + 1 => do
    optionalSpaces
    if ← accept ">" then return
    let name ← longName
    requiredSpaces
    let isText ← attributeType
    requiredSpaces
    let value ← attributeDefault
    let value := if isText then value else value.map collapse
    modify fun s =>
      let d := s.declared
      if d.attributes.any (fun r => r.owner == owner && r.name == name) then s
      else
        { s with declared := { d with attributes := d.attributes ++ [⟨owner, name, isText, value⟩] } }
    if ← accept ">" then return
    requiredSpaces
    attributeRules owner fuel

/-! ## §4. The declarations -/

/-- Puts the text of a parameter entity in front of what remains. -/
def parameterReference : Reading Unit := do
  let name ← longName
  expect ";"
  let d := (← get).declared
  modify fun s => { s with declared := { s.declared with isOpen := true } }
  match d.parameters.lookup name with
  | some (.internal text) =>
    let flat := text.map fun c => if isSpace c then ' ' else c
    modify fun s => { s with rest := ' ' :: flat ++ ' ' :: s.rest }
  | some .external => pure ()
  | none => warn

/-- Reads declarations up to the closing bracket. -/
def declarations : (fuel : Nat) → Reading Unit
  | 0 => refuse
  | fuel + 1 => do
    optionalSpaces
    if ← accept "]" then return
    if ← accept "<!ELEMENT" then
      requiredSpaces
      discard longName
      requiredSpaces
      contentModel
      optionalSpaces
      expect ">"
    else if ← accept "<!ENTITY" then entityDeclaration
    else if ← accept "<!ATTLIST" then
      requiredSpaces
      let owner ← longName
      let gap ← spaces
      require (gap || (← startsWith ">"))
      attributeRules owner ((← remaining).length + 1)
    else if ← accept "<!NOTATION" then
      requiredSpaces
      discard longName
      requiredSpaces
      require (← externalId true)
      optionalSpaces
      expect ">"
    else if ← accept "<!--" then discard comment
    else if ← accept "<?" then discard instruction
    else if ← accept "%" then parameterReference
    else refuse
    declarations fuel

/-- Reads a document type declaration after its keyword. -/
def documentType : Reading Unit := do
  optionalSpaces
  discard longName
  optionalSpaces
  let isExternal ← externalId false
  if isExternal then
    modify fun s => { s with declared := { s.declared with isOpen := true } }
  optionalSpaces
  if ← accept "[" then
    declarations ((← remaining).length * 2 + 100)
    optionalSpaces
  expect ">"

end AddonAudit.Xml
