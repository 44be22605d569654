/-
  AddonAudit.Text.Quoted — texts and bytes in quotes, with everything unprintable escaped.

  A text stands in apostrophes unless it holds an apostrophe and no quotation mark.
-/
import AddonAudit.Text.Printable

namespace AddonAudit.Text

/-- `n` in hexadecimal with at least `width` digits. -/
def hexPadded (width n : Nat) : String :=
  let digits := String.ofList (Nat.toDigits 16 n)
  String.ofList (List.replicate (width - digits.length) '0') ++ digits

/-- The quotation mark for a text: apostrophes, unless only they would need escaping. -/
def quoteFor (hasApostrophe hasMark : Bool) : Char :=
  if hasApostrophe && !hasMark then '"' else '\x27'

def quotedChar (q c : Char) : String :=
  if c == q || c == '\\' then "\\" ++ c.toString
  else if c == '\n' then "\\n"
  else if c == '\r' then "\\r"
  else if c == '\t' then "\\t"
  else if isPrintable c then c.toString
  else if c.toNat < 0x100 then "\\x" ++ hexPadded 2 c.toNat
  else if c.toNat < 0x10000 then "\\u" ++ hexPadded 4 c.toNat
  else "\\U" ++ hexPadded 8 c.toNat

def quoted (s : String) : String :=
  let cs := s.toList
  let q := quoteFor (cs.contains '\x27') (cs.contains '"')
  q.toString ++ String.join (cs.map (quotedChar q)) ++ q.toString

def quotedByte (q : Char) (b : UInt8) : String :=
  let c := Char.ofNat b.toNat
  if b < 128 then
    if c == q || c == '\\' then "\\" ++ c.toString
    else if c == '\n' then "\\n"
    else if c == '\r' then "\\r"
    else if c == '\t' then "\\t"
    else if isPrintable c then c.toString
    else "\\x" ++ hexPadded 2 b.toNat
  else "\\x" ++ hexPadded 2 b.toNat

def quotedBytes (bs : List UInt8) : String :=
  let q := quoteFor (bs.contains 39) (bs.contains 34)
  "b" ++ q.toString ++ String.join (bs.map (quotedByte q)) ++ q.toString

def quotedList (xs : List String) : String :=
  "[" ++ ", ".intercalate (xs.map quoted) ++ "]"

end AddonAudit.Text
