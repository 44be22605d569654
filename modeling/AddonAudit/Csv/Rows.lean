/-
  AddonAudit.Csv.Rows — rows of comma separated tables.

  A field in quotes may hold commas, line ends and doubled quotes.  Whatever follows a closing quote
  belongs to the field as it is.  A quote that is never closed ends with the table.
-/
import AddonAudit.Text.Basic

namespace AddonAudit.Csv

/-! ## §1. The state inside a row -/

/-- Where the next character stands. -/
inductive Place where
  | rowStart
  | fieldStart
  | field
  | quoted
  /-- After a quote inside a quoted field. -/
  | afterQuote
  | rowEnd
  deriving DecidableEq

/-- A row that is being read: finished fields and the current one, each the last part first. -/
structure Partial where
  place : Place := .rowStart
  fields : List String := []
  field : List Char := []
  size : Nat := 0

/-- A field that is longer than the limit. -/
inductive Problem where
  | fieldTooLong

/-- The most characters that a field may have. -/
def fieldLimit : Nat := 131072

def Problem.message : Problem → String
  | .fieldTooLong => "field larger than field limit (" ++ toString fieldLimit ++ ")"

/-! ## §2. One character -/

namespace Partial

/-- Adds a character to the current field. -/
def add (p : Partial) (place : Place) (c : Char) : Except Problem Partial :=
  if fieldLimit ≤ p.size then .error .fieldTooLong
  else .ok { p with place, field := c :: p.field, size := p.size + 1 }

/-- Ends the current field. -/
def save (p : Partial) (place : Place) : Partial :=
  { place, fields := String.ofList p.field.reverse :: p.fields, field := [], size := 0 }

/-- Takes one more character. -/
def take (p : Partial) (c : Char) : Except Problem Partial :=
  match p.place with
  | .rowEnd => .ok p
  | .rowStart =>
    if c == '\n' then .ok { p with place := .rowEnd } else fieldStart p c
  | .fieldStart => fieldStart p c
  | .field =>
    if c == '\n' then .ok (p.save .rowEnd)
    else if c == ',' then .ok (p.save .fieldStart)
    else p.add .field c
  | .quoted => if c == '"' then .ok { p with place := .afterQuote } else p.add .quoted c
  | .afterQuote =>
    if c == '"' then p.add .quoted c
    else if c == ',' then .ok (p.save .fieldStart)
    else if c == '\n' then .ok (p.save .rowEnd)
    else p.add .field c
where
  /-- Takes in the first character of a field. -/
  fieldStart (p : Partial) (c : Char) : Except Problem Partial :=
    if c == '\n' then .ok (p.save .rowEnd)
    else if c == '"' then .ok { p with place := .quoted }
    else if c == ',' then .ok (p.save .fieldStart)
    else p.add .field c

/-- Ends a line: a row goes on only inside quotes. -/
def endLine (p : Partial) : Partial :=
  match p.place with
  | .quoted => p
  | .rowStart => p
  | .rowEnd => { p with place := .rowStart }
  | _ => p.save .rowStart

def row (p : Partial) : List String := p.fields.reverse

end Partial

/-! ## §3. Rows -/

/-- A row and the number of the line on which it ends. -/
structure Row where
  fields : List String
  line : Nat

/-- The rows that were read, and what stopped the reading. -/
abbrev Rows := List Row × Option Problem

/-- Reads lines with their line feeds; `line` is the number of the last one read. -/
def rowsFrom (line : Nat) (p : Partial) : List (List Char) → Rows
  | [] => (if p.place == .quoted then [⟨(p.save .rowStart).row, line⟩] else [], none)
  | l :: rest =>
    match l.foldlM Partial.take p with
    | .error e => ([], some e)
    | .ok p =>
      let p := p.endLine
      if p.place == .rowStart then
        let (rows, problem) := rowsFrom (line + 1) {} rest
        (⟨p.row, line + 1⟩ :: rows, problem)
      else rowsFrom (line + 1) p rest

/-- The rows of a text. -/
def rows (text : List Char) : Rows := rowsFrom 0 {} (Text.feedLines text)

/-- The field of a row under a name: the last column of that name counts, and it has to be there. -/
def Row.get? (header : List String) (name : String) (r : Row) : Option String :=
  let columns := (List.range header.length).filter fun i => header[i]? == some name
  columns.getLast?.bind fun i => r.fields[i]?

end AddonAudit.Csv
