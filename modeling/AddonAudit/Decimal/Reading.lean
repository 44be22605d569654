/-
  AddonAudit.Decimal.Reading — the values of digits, and the doubles that decimal texts stand for.
-/
import AddonAudit.Text.Basic
import AddonAudit.Text.Digit

namespace AddonAudit.Decimal

/-- The value of a digit in any base up to sixteen. -/
def digitValue (c : Char) : Nat :=
  if c.isDigit then c.toNat - 48
  else if 'a' ≤ c && c ≤ 'f' then c.toNat - 87
  else if 'A' ≤ c && c ≤ 'F' then c.toNat - 55
  else 0

def digitsValue (base : Nat) (cs : List Char) : Nat :=
  cs.foldl (fun n c => n * base + digitValue c) 0

/-- The double nearest to `digits · 10 ^ exponent`; far exponents are infinite or zero. -/
def decimalFloat (digits : List Char) (exponent : Int) : Float :=
  let m := digitsValue 10 digits
  if m == 0 then 0.0
  else
    let magnitude := exponent + digits.length
    if 400 < magnitude then (1.0 / 0.0 : Float)
    else if magnitude < -400 then 0.0
    else match exponent with
      | .ofNat e => Float.ofScientific m false e
      | .negSucc e => Float.ofScientific m true (e + 1)

def exponentValue : List Char → Int
  | '-' :: cs => -(digitsValue 10 cs : Int)
  | '+' :: cs => digitsValue 10 cs
  | cs => digitsValue 10 cs

/-- The value of a decimal number with a point or an exponent. -/
def floatValue (cs : List Char) : Float :=
  let isMark (c : Char) : Bool := c == 'e' || c == 'E'
  let mantissa := cs.takeWhile (!isMark ·)
  let exponent := exponentValue ((cs.dropWhile (!isMark ·)).drop 1)
  let whole := mantissa.takeWhile (· != '.')
  let part := (mantissa.dropWhile (· != '.')).drop 1
  decimalFloat (whole ++ part) (exponent - part.length)

/-- Hexadecimal digits in either case. -/
def isHexDigit (c : Char) : Bool := c.isDigit || ('a' ≤ c && c ≤ 'f') || ('A' ≤ c && c ≤ 'F')

/-- Reads exactly `n` hexadecimal digits. -/
def takeHex? (n : Nat) (cs : List Char) : Option (Nat × List Char) :=
  let ds := cs.take n
  if ds.length == n && ds.all isHexDigit then some (digitsValue 16 ds, cs.drop n) else none

/-- Whether a text is a number with digits on at least one side of an optional point and an optional
    exponent. -/
def isRealText (cs : List Char) : Bool :=
  let whole := cs.takeWhile Char.isDigit
  let rest := cs.drop whole.length
  let part := match rest with
    | '.' :: ds => ds.takeWhile Char.isDigit
    | _ => []
  let rest := if rest.head? == some '.' then rest.drop (part.length + 1) else rest
  let isExponent := match rest with
    | [] => true
    | e :: ds =>
      let ds := if ds.head? == some '+' || ds.head? == some '-' then ds.drop 1 else ds
      (e == 'e' || e == 'E') && !ds.isEmpty && ds.all Char.isDigit
  !(whole.isEmpty && part.isEmpty) && isExponent

/-- Drops underscores that stand between digits; there is no result if one stands elsewhere. -/
def joinDigits? : List Char → Option (List Char)
  | [] => some []
  | ['_'] => none
  | '_' :: _ => none
  | c :: '_' :: d :: cs =>
    if c.isDigit && d.isDigit then (joinDigits? (d :: cs)).map (c :: ·) else none
  | c :: cs => (joinDigits? cs).map (c :: ·)

/-- The double of a number as people type it: with blanks around it, a sign, digits of any script,
    single underscores between digits, or as a word for infinity or no number. -/
def readReal? (s : String) : Option Float :=
  let cs := (Text.stripChars s.toList).map fun c =>
    match Text.decimalValue? c with
    | some d => Char.ofNat (48 + d)
    | none => c
  let negative := cs.head? == some '-'
  let cs := if negative || cs.head? == some '+' then cs.drop 1 else cs
  let word := String.ofList (cs.map Char.toLower)
  let value : Option Float :=
    if word == "inf" || word == "infinity" then some (1.0 / 0.0)
    else if word == "nan" then some (0.0 / 0.0)
    else match joinDigits? cs with
      | some ds => if isRealText ds then some (floatValue ds) else none
      | none => none
  value.map fun x => if negative then -x else x

end AddonAudit.Decimal
