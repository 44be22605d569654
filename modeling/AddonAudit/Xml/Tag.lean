/-
  AddonAudit.Xml.Tag — start tags: attributes, their values and the namespaces of names.
-/
import AddonAudit.Xml.Scan

namespace AddonAudit.Xml

/-! ## §1. Attribute values -/

/-- Reads the characters of a value up to a quote, or to the end of the text.  Blanks become spaces;
    references are resolved, entities by `expand`. -/
def valueChars (expand : String → Reading (List Char)) (quote : Option Char) :
    (fuel : Nat) → List Char → Reading (List Char)
  | 0, _ => refuse
  | fuel + 1, before => do
    match ← remaining with
    | [] => if quote.isSome then refuse else return before.reverse
    | c :: rest =>
      if some c == quote then return before.reverse
      else if c == '<' then refuse
      else if c == '&' then
        skip 1
        match ← reference with
        | .char r => valueChars expand quote fuel (r :: before)
        | .entity name =>
          let text ← expand name
          valueChars expand quote fuel (text.reverse ++ before)
      else if c == '\r' && rest.head? == some '\n' then
        skip 2
        valueChars expand quote fuel (' ' :: before)
      else
        require (isChar c)
        skip 1
        valueChars expand quote fuel ((if isSpace c then ' ' else c) :: before)

/-- How deep entities may be nested. -/
def maxEntityDepth : Nat := 40

def entityValue : (depth : Nat) → String → Reading (List Char)
  | 0, _ => refuse
  | depth + 1, name => do
    match ← entityText name with
    | none => return []
    | some text => within text (valueChars (entityValue depth) none (text.length + 1) [])

def attributeValue : Reading String := do
  match ← remaining with
  | q :: rest =>
    require (q == '"' || q == '\x27')
    skip 1
    let cs ← valueChars (entityValue maxEntityDepth) (some q) (rest.length + 1) []
    skip 1
    return String.ofList cs
  | [] => refuse

/-! ## §2. Attributes -/

/-- Drops spaces at the ends and makes runs of spaces one. -/
def collapse (s : String) : String :=
  " ".intercalate ((Text.splitAt ' ' s).filter (· != ""))

/-- Whether blanks in an attribute of an element are significant. -/
def isTextAttribute (d : Declarations) (element name : String) : Bool :=
  match d.attributes.find? fun r => r.owner == element && r.name == name with
  | some r => r.isText
  | none => true

/-- The attributes of an element with the declared defaults of those that are left out. -/
def withDefaults (d : Declarations) (element : String) (given : List (Label × String)) :
    List (Label × String) :=
  given ++ (d.attributes.filterMap fun r =>
    match r.default with
    | some v =>
      if r.owner == element && !given.any (·.1.written == r.name) then
        some (labelOf r.name, v)
      else none
    | none => none)
where
  /-- Splits a written name at its colon. -/
  labelOf (written : String) : Label :=
    match Text.splitAt ':' written with
    | [front, name] => ⟨some front, name⟩
    | _ => ⟨none, written⟩

/-- Reads the attributes of an element up to the end of its tag. -/
def attributes (element : String) : (fuel : Nat) → List (Label × String) →
    Reading (List (Label × String))
  | 0, _ => refuse
  | fuel + 1, before => do
    if (← startsWith ">") || (← startsWith "/>") then return before
    let name ← label
    optionalSpaces
    expect "="
    optionalSpaces
    let value ← attributeValue
    require (!before.any (·.1 == name))
    let value := if isTextAttribute (← get).declared element name.written then value
      else collapse value
    if name == ⟨some "xml", "space"⟩ && value != "default" && value != "preserve" then warn
    let found := before ++ [(name, value)]
    if (← startsWith ">") || (← startsWith "/>") then return found
    requiredSpaces
    attributes element fuel found

/-! ## §3. Namespaces -/

/-- The namespace of names that start with `xml:`. -/
def xmlSpace : String := "http://www.w3.org/XML/1998/namespace"

/-- The namespace that no name may have. -/
def xmlnsSpace : String := "http://www.w3.org/2000/xmlns/"

/-- What a text is as the address of a namespace. -/
inductive Address where
  | absolute
  | relative
  | invalid
  deriving DecidableEq

/-- Characters that an address may hold, the escape sign apart. -/
def isAddressChar (c : Char) : Bool :=
  c.isAlphanum || "-._~:/?#[]@!$&\x27()*+,;=".toList.contains c

/-- Whether every escape sign is followed by two hexadecimal digits and all else may be there. -/
def isAddressText : List Char → Bool
  | [] => true
  | '%' :: a :: b :: rest => Decimal.isHexDigit a && Decimal.isHexDigit b && isAddressText rest
  | c :: rest => isAddressChar c && isAddressText rest

/-- Judges an address: it is absolute when it starts with a scheme. -/
def addressOf (s : String) : Address :=
  let cs := s.toList
  let scheme := cs.takeWhile fun c => c.isAlphanum || c == '+' || c == '-' || c == '.'
  if !isAddressText cs then .invalid
  else if cs[scheme.length]? == some ':' then
    if (scheme.head?.map Char.isAlpha).getD false then .absolute else .invalid
  else .relative

/-- The namespaces in force: addresses by the front part of names. -/
abbrev Scope := List (Option String × String)

/-- Takes a namespace declaration into account. -/
def declareSpace (scope : Scope) (front : Option String) (address : String) : Reading Scope := do
  match front with
  | none =>
    if address != "" then
      match addressOf address with
      | .invalid => raise
      | .relative => warn
      | .absolute => pure ()
    if address == xmlSpace || address == xmlnsSpace then
      raise
      return scope
    else return (none, address) :: scope
  | some "xml" =>
    if address != xmlSpace then raise
    return scope
  | some "xmlns" =>
    raise
    return scope
  | some f =>
    if address == xmlSpace || address == xmlnsSpace || address == "" then
      raise
      return scope
    else
      match addressOf address with
      | .invalid => raise
      | .relative => warn
      | .absolute => pure ()
      return (some f, address) :: scope

/-- The namespace declaration that an attribute is. -/
def spaceDeclared? (l : Label) : Option (Option String) :=
  match l.front with
  | some "xmlns" => some (some l.label)
  | some _ => none
  | none => if l.label == "xmlns" then some none else none

/-- Takes all namespace declarations among attributes into account. -/
def declareSpaces (scope : Scope) : List (Label × String) → Reading Scope
  | [] => return scope
  | (l, v) :: rest =>
    match spaceDeclared? l with
    | some front => do declareSpaces (← declareSpace scope front v) rest
    | none => declareSpaces scope rest

/-- The name of a label with a front part; an unknown front part raises an alarm and stays. -/
def frontedName (scope : Scope) (front name : String) : Reading Name := do
  if front == "xml" then return ⟨some xmlSpace, name⟩
  match scope.lookup (some front) with
  | some address => return ⟨some address, name⟩
  | none =>
    raise
    return ⟨none, front ++ ":" ++ name⟩

def elementName (scope : Scope) (l : Label) : Reading Name :=
  match l.front with
  | some f => frontedName scope f l.label
  | none =>
    match scope.lookup none with
    | some address => return ⟨if address == "" then none else some address, l.label⟩
    | none => return ⟨none, l.label⟩

/-- The attributes of an element by their names; two of one name in a namespace raise an alarm. -/
def attributeNames (scope : Scope) : List (Label × String) → List (Name × String) →
    Reading (List (Name × String))
  | [], before => return before
  | (l, v) :: rest, before => do
    if (spaceDeclared? l).isSome then attributeNames scope rest before
    else
      let name ← match l.front with
        | some f => frontedName scope f l.label
        | none => pure ⟨none, l.label⟩
      if before.any (·.1 == name) then
        raise
        attributeNames scope rest before
      else attributeNames scope rest (before ++ [(name, v)])

/-! ## §4. Start tags -/

/-- A start tag with the line of its end. -/
structure StartTag where
  written : String
  line : Nat
  name : Name
  attributes : List (Name × String)
  scope : Scope
  isClosed : Bool

/-- Reads a start tag after its opening sign. -/
def startTag (scope : Scope) : Reading StartTag := do
  let l ← label
  optionalSpaces
  let given ← attributes l.written ((← remaining).length + 1) []
  let all := withDefaults (← get).declared l.written given
  let line := (← get).line
  let inner ← declareSpaces scope all
  let named ← attributeNames inner all []
  let name ← elementName inner l
  let isClosed ← accept "/>"
  if !isClosed then expect ">"
  return ⟨l.written, line, name, named, inner, isClosed⟩

end AddonAudit.Xml
