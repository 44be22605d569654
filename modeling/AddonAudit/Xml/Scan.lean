/-
  AddonAudit.Xml.Scan — reading XML text piece by piece.

  A scan holds the text that remains, the current line, and what was declared so far.  Reading ends
  at once where a document is not well-formed.  Lesser faults only leave an alarm behind, which the
  next warning silences: a document is accepted when it is read to its end and no alarm is left.
-/
import AddonAudit.Decimal.Reading
import AddonAudit.Xml.Characters
import AddonAudit.Xml.Tree

namespace AddonAudit.Xml

/-! ## §1. Scans -/

/-- What an entity stands for. -/
inductive Entity where
  | internal (text : List Char)
  | external

/-- A declared attribute of an element, both by their names as written. -/
structure AttributeRule where
  owner : String
  name : String
  /-- Whether blanks in the value are significant. -/
  isText : Bool
  /-- The value of the attribute where it is left out. -/
  default : Option String

/-- What a document type declares. -/
structure Declarations where
  entities : List (String × Entity) := []
  parameters : List (String × Entity) := []
  attributes : List AttributeRule := []
  /-- Whether there may be declarations outside the document. -/
  isOpen : Bool := false

/-- The state of reading. -/
structure Scan where
  rest : List Char
  line : Nat := 1
  /-- Whether the last lesser fault was more than a warning. -/
  alarm : Bool := false
  declared : Declarations := {}

/-- Reading a part of a document; there is no result where it is not well-formed. -/
abbrev Reading := StateT Scan Option

/-- The document is not well-formed. -/
def refuse {α : Type} : Reading α := StateT.lift none

/-- Goes on only under a condition. -/
def require (b : Bool) : Reading Unit := if b then pure () else refuse

def raise : Reading Unit := modify fun s => { s with alarm := true }

def warn : Reading Unit := modify fun s => { s with alarm := false }

/-! ## §2. Characters and words -/

def remaining : Reading (List Char) := do return (← get).rest

def lineFeeds (cs : List Char) : Nat := cs.foldl (fun n c => if c == '\n' then n + 1 else n) 0

/-- Moves past `n` characters. -/
def skip (n : Nat) : Reading Unit :=
  modify fun s => { s with rest := s.rest.drop n, line := s.line + lineFeeds (s.rest.take n) }

def startsWith (word : String) : Reading Bool := do return word.toList.isPrefixOf (← remaining)

/-- Moves past a word if the text starts with it. -/
def accept (word : String) : Reading Bool := do
  if ← startsWith word then
    skip word.length
    return true
  else return false

/-- Moves past a word that has to come. -/
def expect (word : String) : Reading Unit := do require (← accept word)

/-- Reads the longest run of characters of a class. -/
def takeRun (p : Char → Bool) : Reading (List Char) := do
  let run := (← remaining).takeWhile p
  skip run.length
  return run

/-- Skips blanks and tells whether there were any. -/
def spaces : Reading Bool := do return !(← takeRun isSpace).isEmpty

def optionalSpaces : Reading Unit := discard spaces

/-- Skips blanks of which there has to be one. -/
def requiredSpaces : Reading Unit := do require (← spaces)

/-- Reads up to a closing word and moves past it; everything before has to be characters. -/
def takeUntil (closing : String) : Reading (List Char) := do
  match Text.cutFirst? closing.toList (← remaining) with
  | some (before, _) =>
    require (before.all isChar)
    skip (before.length + closing.length)
    return before
  | none => refuse

def quotedText : Reading (List Char) := do
  match ← remaining with
  | '"' :: _ =>
    skip 1
    takeUntil "\""
  | '\x27' :: _ =>
    skip 1
    takeUntil "\x27"
  | _ => refuse

/-- Line ends of every kind become a single line feed. -/
def unifyLines (cs : List Char) : List Char := Text.unifyNewlines cs

/-! ## §3. Names -/

/-- Reads a name without colons; the empty text stands for none. -/
def shortName : Reading String := do
  match ← remaining with
  | c :: _ => if isNameStart c then return String.ofList (← takeRun isNameChar) else return ""
  | [] => return ""

/-- Reads a name that may hold colons. -/
def longName : Reading String := do
  match ← remaining with
  | c :: _ =>
    if isNameStart c || c == ':' then
      return String.ofList (← takeRun fun c => isNameChar c || c == ':')
    else refuse
  | [] => refuse

/-- A name as it is written: with the part before its colon, if it has one. -/
structure Label where
  front : Option String
  label : String
  deriving DecidableEq

def Label.written (l : Label) : String :=
  match l.front with
  | some f => f ++ ":" ++ l.label
  | none => l.label

/-- Reads a name with at most one colon inside; colons anywhere else raise an alarm. -/
def label : Reading Label := do
  let first ← shortName
  if first == "" then
    let name ← longName
    raise
    return ⟨none, name⟩
  else if ← accept ":" then
    let second ← shortName
    if second == "" then
      raise
      let rest ← takeRun fun c => isNameChar c || c == ':'
      return ⟨none, first ++ ":" ++ String.ofList rest⟩
    else if ← startsWith ":" then
      raise
      let rest ← takeRun fun c => isNameChar c || c == ':'
      return ⟨some first, second ++ String.ofList rest⟩
    else return ⟨some first, second⟩
  else return ⟨none, first⟩

/-! ## §4. References -/

/-- A reference: a character by its number or an entity by its name. -/
inductive Reference where
  | char (c : Char)
  | entity (name : String)

/-- The character of a number, if documents may hold it. -/
def charOf? (n : Nat) : Option Char :=
  if n.isValidChar && isChar (Char.ofNat n) then some (Char.ofNat n) else none

def charNumber (base : Nat) (isDigit : Char → Bool) : Reading Reference := do
  let digits ← takeRun isDigit
  require !digits.isEmpty
  expect ";"
  match charOf? (Decimal.digitsValue base digits) with
  | some c => return .char c
  | none => refuse

/-- The entities that need no declaration. -/
def predefined : List (String × Char) :=
  [("lt", '<'), ("gt", '>'), ("amp", '&'), ("quot", '"'), ("apos", '\x27')]

def reference : Reading Reference := do
  if ← accept "#x" then charNumber 16 Decimal.isHexDigit
  else if ← accept "#" then charNumber 10 Char.isDigit
  else
    let name ← longName
    expect ";"
    match predefined.lookup name with
    | some c => return .char c
    | none => return .entity name

/-- The entity of a name.  One that is not declared is refused, or only raises an alarm where it may
    be declared elsewhere. -/
def entityText (name : String) : Reading (Option (List Char)) := do
  match (← get).declared.entities.lookup name with
  | some (.internal text) => return some text
  | some .external => refuse
  | none =>
    require (← get).declared.isOpen
    raise
    return none

/-- Reads another text in place of the one that remains, to its end, and returns to it. -/
def within {α : Type} (text : List Char) (read : Reading α) : Reading α := do
  let outer ← get
  set { outer with rest := text, line := 1 }
  let a ← read
  require (← remaining).isEmpty
  modify fun s => { s with rest := outer.rest, line := outer.line }
  return a

end AddonAudit.Xml
