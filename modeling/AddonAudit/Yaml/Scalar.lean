/-
  AddonAudit.Yaml.Scalar — what scalars stand for.

  The form of a plain scalar decides its kind: truth values, numbers in several bases, dates,
  nothing, or else a text.
-/
import AddonAudit.Datum
import AddonAudit.Decimal.Whole
import AddonAudit.Text.Case
import AddonAudit.Yaml.Token

namespace AddonAudit.Yaml

/-! ## §1. Forms -/

/-- The kinds that the form of a plain scalar can tell. -/
inductive Form where
  | truth
  | real
  | whole
  | merge
  | nothing
  | date
  | equals
  | text
  deriving DecidableEq

def unsigned : List Char → List Char
  | '-' :: cs => cs
  | '+' :: cs => cs
  | cs => cs

def isDigitMark (c : Char) : Bool := c.isDigit || c == '_'

/-- Digits with underscores, the first of them a digit of a class. -/
def isNumeral (first : Char → Bool) : List Char → Bool
  | c :: cs => first c && cs.all isDigitMark
  | [] => false

def isNonzero (c : Char) : Bool := c.isDigit && c != '0'

/-- Numbers below sixty with one or two digits. -/
def isSixtieth (cs : List Char) : Bool :=
  match cs with
  | [d] => d.isDigit
  | [t, d] => t.isDigit && t ≤ '5' && d.isDigit
  | _ => false

def allOf (p : Char → Bool) (cs : List Char) : Bool := !cs.isEmpty && cs.all p

/-- Whether a text without sign has the form of a whole number. -/
def isWholeForm (cs : List Char) : Bool :=
  match cs with
  | ['0'] => true
  | '0' :: 'b' :: ds => allOf (fun c => c == '0' || c == '1' || c == '_') ds
  | '0' :: 'x' :: ds => allOf (fun c => Decimal.isHexDigit c || c == '_') ds
  | '0' :: ds => allOf (fun c => ('0' ≤ c && c ≤ '7') || c == '_') ds
  | _ =>
    match Text.splitWhere (· == ':') cs with
    | [n] => isNumeral isNonzero n
    | n :: parts => isNumeral isNonzero n && parts.all isSixtieth
    | [] => false

/-- Whether a text is an exponent with its sign, or empty. -/
def isExponent : List Char → Bool
  | [] => true
  | e :: s :: ds => (e == 'e' || e == 'E') && (s == '-' || s == '+') && allOf Char.isDigit ds
  | _ => false

/-- Whether a text is digits and underscores with an optional exponent. -/
def isFraction (cs : List Char) : Bool := isExponent (cs.dropWhile isDigitMark)

/-- Whether a text has the form of a real number. -/
def isRealForm (cs : List Char) : Bool :=
  let bare := unsigned cs
  let word := String.ofList bare
  if [".inf", ".Inf", ".INF"].contains word then true
  else if [".nan", ".NaN", ".NAN"].contains (String.ofList cs) then true
  else match cs with
    | '.' :: d :: ds => d.isDigit && isFraction ds
    | _ =>
      let front := bare.takeWhile (· != '.')
      match bare.drop front.length with
      | _ :: part =>
        match Text.splitWhere (· == ':') front with
        | [n] => isNumeral Char.isDigit n && isFraction part
        | n :: parts => isNumeral Char.isDigit n && parts.all isSixtieth && part.all isDigitMark
        | [] => false
      | [] => false

def truthWords : List (String × Bool) :=
  [("yes", true), ("no", false), ("true", true), ("false", false), ("on", true), ("off", false)]

/-- Whether a text is a word in lower case, in upper case, or with a capital letter. -/
def isWordForm (word : String) (cs : List Char) : Bool :=
  let w := word.toList
  cs == w || cs == w.map Char.toUpper ||
    match w with
    | c :: rest => cs == c.toUpper :: rest
    | [] => false

/-- Whether a text has the form of a truth value. -/
def isTruthForm (cs : List Char) : Bool := truthWords.any fun (w, _) => isWordForm w cs

/-! ## §2. Whole numbers -/

def digitsIn (base : Nat) (mark : Char) (text : List Char) : Except Fault Int :=
  let cs := match text with
    | '0' :: m :: rest => if m.toLower == mark then rest else text
    | _ => text
  let isDigit (c : Char) : Bool := Decimal.isHexDigit c && Decimal.digitValue c < base
  if allOf isDigit cs then .ok (Decimal.digitsValue base cs)
  else .error (.notWhole base (String.ofList text))

def decimalIn (text : List Char) : Except Fault Int :=
  match Decimal.readWhole (String.ofList text) with
  | .ok n => .ok n
  | .error .malformed => .error (.notWhole 10 (String.ofList text))
  | .error (.tooLong n) => .error (.tooManyDigits n)

/-- The value of parts in base sixty, the last one least. -/
def sixtieths (parts : List Int) : Int := parts.foldl (fun n d => n * 60 + d) 0

def wholeOf (text : String) : Except Fault Datum := do
  let cs := text.toList.filter (· != '_')
  if cs.isEmpty then throw (.noIndex "string")
  let negative := cs.head? == some '-'
  let cs := unsigned cs
  let n ← match cs with
    | ['0'] => pure 0
    | '0' :: 'b' :: ds => digitsIn 2 'b' ds
    | '0' :: 'x' :: ds => digitsIn 16 'x' ds
    | '0' :: _ => digitsIn 8 'o' cs
    | [] => throw (.noIndex "string")
    | _ =>
      if cs.contains ':' then do pure (sixtieths (← (Text.splitWhere (· == ':') cs).mapM decimalIn))
      else decimalIn cs
  return .int (if negative then -n else n)

/-! ## §3. Real numbers -/

def realIn (text : List Char) : Except Fault Float :=
  match Decimal.readReal? (String.ofList text) with
  | some x => .ok x
  | none => .error (.notReal (String.ofList text))

/-- The value of parts in base sixty, added from the last one on. -/
def realSixtieths (parts : List Float) : Float :=
  (parts.reverse.foldl (fun (acc : Float × Float) d => (acc.1 + d * acc.2, acc.2 * 60))
    (0.0, 1.0)).1

def realOf (text : String) : Except Fault Datum := do
  let cs := Text.lowerChars (text.toList.filter (· != '_'))
  if cs.isEmpty then throw (.noIndex "string")
  let negative := cs.head? == some '-'
  let cs := unsigned cs
  let x ← match String.ofList cs with
    | ".inf" => pure (1.0 / 0.0)
    | ".nan" => pure (0.0 / 0.0)
    | _ =>
      if cs.contains ':' then do pure (realSixtieths
        (← (Text.splitWhere (· == ':') cs).mapM realIn))
      else realIn cs
  return .float (if negative then -x else x)

/-! ## §4. Dates -/

/-- Reads between `least` and `most` digits. -/
def digits? (least most : Nat) (cs : List Char) : Option (Nat × List Char) :=
  let ds := (cs.take most).takeWhile Char.isDigit
  if least ≤ ds.length then some (Decimal.digitsValue 10 ds, cs.drop ds.length) else none

def sign? (c : Char) : List Char → Option (List Char)
  | d :: cs => if c == d then some cs else none
  | [] => none

/-- The parts of a time of day: hour, minute, second, microseconds and distance. -/
structure TimeParts where
  hour : Nat
  minute : Nat
  second : Nat
  micro : Nat
  offset : Option Int

/-- Reads the distance from universal time, which may be missing. -/
def offset? (cs : List Char) : Option (Option Int) :=
  match cs.dropWhile fun c => c == ' ' || c == '\t' with
  | [] => if cs.isEmpty then some none else none
  | ['Z'] => some (some 0)
  | s :: rest =>
    if s != '-' && s != '+' then none
    else do
      let (h, rest) ← digits? 1 2 rest
      let m ← match rest with
        | [] => some 0
        | ':' :: rest =>
          match digits? 2 2 rest with
          | some (m, []) => some m
          | _ => none
        | _ => none
      let total : Int := h * 60 + m
      return some (if s == '-' then -total else total)

/-- The microseconds of a fraction: its first six digits, filled up with zeros. -/
def microseconds (digits : List Char) : Nat :=
  Decimal.digitsValue 10 ((digits ++ List.replicate 6 '0').take 6)

def time? (cs : List Char) : Option TimeParts := do
  let (hour, cs) ← digits? 1 2 cs
  let (minute, cs) ← digits? 2 2 (← sign? ':' cs)
  let (second, cs) ← digits? 2 2 (← sign? ':' cs)
  let fraction := match cs with
    | '.' :: rest => rest.takeWhile Char.isDigit
    | _ => []
  let cs := if cs.head? == some '.' then cs.drop (fraction.length + 1) else cs
  let offset ← offset? cs
  return ⟨hour, minute, second, if fraction.isEmpty then 0 else microseconds fraction, offset⟩

/-- Reads what separates a date from a time: a letter or blanks. -/
def timeStart? (cs : List Char) : Option (List Char) :=
  match cs with
  | c :: rest =>
    if c == 'T' || c == 't' then some rest
    else
      let rest := cs.dropWhile fun c => c == ' ' || c == '\t'
      if rest.length < cs.length then some rest else none
  | [] => none

/-- Reads a date and the time that may follow it. -/
def dateParts? (cs : List Char) : Option ((Nat × Nat × Nat) × Option TimeParts) := do
  let (y, cs) ← digits? 4 4 cs
  let (m, cs) ← digits? 1 2 (← sign? '-' cs)
  let (d, cs) ← digits? 1 2 (← sign? '-' cs)
  if cs.isEmpty then return ((y, m, d), none)
  let t ← time? (← timeStart? cs)
  return ((y, m, d), some t)

/-- Whether a text has the form of a date; without a time, month and day have two digits. -/
def isDateForm (cs : List Char) : Bool :=
  match dateParts? cs with
  | some (_, some _) => true
  | some (_, none) => cs.length == 10
  | none => false

def isLeap (y : Nat) : Bool := (y % 4 == 0 && y % 100 != 0) || y % 400 == 0

def daysIn (y m : Nat) : Nat :=
  if m == 2 then (if isLeap y then 29 else 28)
  else if [4, 6, 9, 11].contains m then 30
  else 31

/-- The date or point in time of a scalar. -/
def dateOf (text : String) : Except Fault Datum := do
  match dateParts? text.toList with
  | none => throw (.noOperation "NoneType" "groupdict")
  | some ((y, m, d), t) =>
    if let some o := t.bind (·.offset) then
      if 1440 ≤ o.natAbs then throw (.badDate (offsetRange o))
    if y == 0 then throw (.badDate "year 0 is out of range")
    if m == 0 || 12 < m then throw (.badDate "month must be in 1..12")
    if d == 0 || daysIn y m < d then throw (.badDate "day is out of range for month")
    match t with
    | none => return .date y m d
    | some t =>
      if 24 ≤ t.hour then throw (.badDate "hour must be in 0..23")
      if 60 ≤ t.minute then throw (.badDate "minute must be in 0..59")
      if 60 ≤ t.second then throw (.badDate "second must be in 0..59")
      return .moment ⟨y, m, d, t.hour, t.minute, t.second, t.micro, t.offset⟩
where
  /-- The wording for a distance of a day or more. -/
  offsetRange (minutes : Int) : String :=
    "offset must be a timedelta strictly between -timedelta(hours=24) and timedelta(hours=24), not "
      ++ Text.dropTrailing (· == ')') (Text.drop (offsetWritten minutes) 18) ++ ")"

/-! ## §5. Bytes and truth values -/

/-- The truth value of a word in any case. -/
def truthOf (text : String) : Except Fault Datum :=
  let word := Text.lower text
  match truthWords.lookup word with
  | some b => .ok (.bool b)
  | none => .error (.noKey (Text.quoted word))

/-- The value of a digit in base sixty-four. -/
def sixBits? (c : Char) : Option Nat :=
  if 'A' ≤ c && c ≤ 'Z' then some (c.toNat - 65)
  else if 'a' ≤ c && c ≤ 'z' then some (c.toNat - 71)
  else if c.isDigit then some (c.toNat + 4)
  else if c == '+' then some 62
  else if c == '/' then some 63
  else none

/-- The bytes of a text in base sixty-four: `held` bits are left over, `filled` of four digits read;
    other characters are passed over. -/
def bytesOf? : (held filled pads : Nat) → List Char → Option (List UInt8)
  | _, filled, _, [] => if filled == 0 then some [] else none
  | held, filled, pads, c :: cs =>
    if c == '=' then
      if 2 ≤ filled && 4 ≤ filled + pads + 1 then some []
      else bytesOf? held filled (if 2 ≤ filled then pads + 1 else pads) cs
    else match sixBits? c with
      | none => bytesOf? held filled pads cs
      | some v =>
        match filled with
        | 0 => bytesOf? v 1 0 cs
        | 1 => (bytesOf? (v % 16) 2 0 cs).map ((held * 4 + v / 16).toUInt8 :: ·)
        | 2 => (bytesOf? (v % 4) 3 0 cs).map ((held * 16 + v / 4).toUInt8 :: ·)
        | _ => (bytesOf? 0 0 0 cs).map ((held * 64 + v).toUInt8 :: ·)

def formOf (text : String) : Form :=
  let cs := text.toList
  if isTruthForm cs then .truth
  else if isRealForm cs then .real
  else if isWholeForm (unsigned cs) then .whole
  else if text == "<<" then .merge
  else if text == "" || text == "~" || isWordForm "null" cs then .nothing
  else if isDateForm cs then .date
  else if text == "=" then .equals
  else .text

end AddonAudit.Yaml
