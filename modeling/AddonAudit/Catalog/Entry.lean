/-
  AddonAudit.Catalog.Entry — entries of a message catalog.

  An entry has a message and its translation, with comments, places, flags and earlier wordings.
  `commentLines` are the lines that stand before the message when an entry is written; they tell on
  which line the message itself is.
-/
import AddonAudit.Fault
import AddonAudit.Text.Wrap

namespace AddonAudit.Catalog

/-! ## §1. Entries -/

/-- An earlier wording of a message. -/
structure Previous where
  context : Option String := none
  id : Option String := none
  plural : Option String := none

/-- An entry of a catalog. -/
structure Entry where
  /-- The line on which the entry starts; zero for the first one. -/
  line : Nat
  comment : String := ""
  note : String := ""
  /-- Files and lines in which the message occurs. -/
  places : List (String × String) := []
  flags : List String := []
  previous : Previous := {}
  context : Option String := none
  id : String := ""
  plural : String := ""
  text : String := ""
  forms : List (Int × String) := []
  obsolete : Bool := false

/-! ## §2. Escapes -/

/-- The character that a letter stands for after a backslash. -/
def escapes : List (Char × Char) :=
  [('\\', '\\'), ('n', '\n'), ('t', '\t'), ('r', '\r'), ('v', '\x0b'), ('b', '\x08'), ('f', '\x0c'),
   ('"', '"')]

/-- Replaces escapes by the characters they stand for; other backslashes stay. -/
def unescapeChars : List Char → List Char
  | [] => []
  | '\\' :: c :: cs =>
    match escapes.lookup c with
    | some d => d :: unescapeChars cs
    | none => '\\' :: unescapeChars (c :: cs)
  | c :: cs => c :: unescapeChars cs

/-- Replaces escapes by the characters they stand for. -/
def unescape (s : String) : String := String.ofList (unescapeChars s.toList)

/-- A character as it is written between quotes. -/
def escapeChar (c : Char) : List Char :=
  match escapes.find? (·.2 == c) with
  | some (letter, _) => ['\\', letter]
  | none => [c]

/-- Replaces special characters by their escapes. -/
def escape (s : String) : String := String.ofList (s.toList.flatMap escapeChar)

/-! ## §3. The lines before the message -/

/-- The width to which texts are wrapped. -/
def lineWidth : Nat := 78

/-- The lines of a comment with a mark before each; long ones are wrapped. -/
def markedLines (mark comment : String) : List String :=
  if comment == "" then []
  else (Text.splitAt '\n' comment).flatMap fun line =>
    if lineWidth < line.length + mark.length then Text.wrap lineWidth mark true line
    else [mark ++ line]

/-- The line of places; a long one is wrapped, and not at hyphens. -/
def placeLines (places : List (String × String)) : List String :=
  if places.isEmpty then []
  else
    let listed := " ".intercalate (places.map fun (file, line) =>
      if line == "" then file else file ++ ":" ++ line)
    if lineWidth < listed.length + 3 then
      (Text.wrap lineWidth "#: " true (Text.replace listed "-" "*")).map (Text.replace · "*" "-")
    else ["#: " ++ listed]

/-- The pieces in which a field is written: line by line, wrapped if it is long, or in one. -/
def fieldPieces (nameLength : Nat) (field : String) : List String :=
  if 1 < (Text.linesOf field).length then "" :: Text.linesOf field
  else
    let special := (field.toList.filter fun c => escapes.any (·.2 == c)).length
    if lineWidth + special < field.length + nameLength + 3 then
      "" :: (Text.wrap (lineWidth - 2) "" false (escape field)).map unescape
    else [field]

def previousLines (name : String) (field : Option String) : List String :=
  match field with
  | none => []
  | some f =>
    match fieldPieces ("previous_".length + name.length) f with
    | first :: rest =>
      ("#| " ++ name ++ " \"" ++ escape first ++ "\"") :: rest.map fun l => "#| \"" ++ escape l ++
        "\""
    | [] => []

/-- The lines that stand before the message when an entry is written. -/
def Entry.commentLines (e : Entry) : List String :=
  markedLines "#. " e.comment ++ markedLines "# " e.note ++ placeLines e.places ++
    (if e.flags.isEmpty then [] else ["#, " ++ ", ".intercalate e.flags]) ++
    previousLines "msgctxt" e.previous.context ++ previousLines "msgid" e.previous.id ++
    previousLines "msgid_plural" e.previous.plural

/-- The line in which the message of an entry stands. -/
def Entry.messageLine (e : Entry) : Nat := e.line + e.commentLines.length

/-! ## §4. Equality of entries -/

def sortedPlaces (places : List (String × String)) : List (String × String) :=
  places.mergeSort fun a b => decide (a.1 < b.1) || (a.1 == b.1 && decide (a.2 ≤ b.2))

/-- Whether two texts are equal; one that is missing and one that is there cannot be compared. -/
def sameText (a b : String) : Except Fault Bool :=
  if a == "" && b != "" then .error (.notComparable .greater "int" "str")
  else if a != "" && b == "" then .error (.notComparable .greater "str" "int")
  else .ok (a == b)

/-- Whether two entries are equal; what comes first decides. -/
def Entry.same (a b : Entry) : Except Fault Bool := do
  if a.obsolete != b.obsolete || sortedPlaces a.places != sortedPlaces b.places then return false
  if !(← sameText (a.context.getD "") (b.context.getD "")) then return false
  if !(← sameText a.plural b.plural) then return false
  return a.forms.map (·.2) == b.forms.map (·.2) && a.id == b.id && a.text == b.text

end AddonAudit.Catalog
