/-
  AddonAudit.Json — JSON texts.

  Reading keeps the order of object entries; a repeated key keeps its first place and its last
  value. Writing comes in two layouts, on one line and indented.
-/
import AddonAudit.Datum

namespace AddonAudit.Json

/-! ## §1. Strings and numbers -/

/-- A problem and the text that remains where it was met. -/
abbrev Problem := JsonProblem × List Char

/-- Blanks between tokens. -/
def isGap (c : Char) : Bool := c == ' ' || c == '\t' || c == '\n' || c == '\r'

def skipGap (cs : List Char) : List Char := cs.dropWhile isGap

/-- The character that a letter after a backslash stands for. -/
def escapeLetter? : Char → Option Char
  | '"' => some '"'
  | '\\' => some '\\'
  | '/' => some '/'
  | 'b' => some '\x08'
  | 'f' => some '\x0c'
  | 'n' => some '\n'
  | 'r' => some '\r'
  | 't' => some '\t'
  | _ => none

/-- The character of one code unit, or of two that form a pair, with what follows. -/
def unitChar (n : Nat) (rest : List Char) : Char × List Char :=
  if 0xd800 ≤ n && n < 0xdc00 then
    match rest with
    | '\\' :: 'u' :: more =>
      match Decimal.takeHex? 4 more with
      | some (m, after) =>
        if 0xdc00 ≤ m && m < 0xe000 then
          (Char.ofNat (0x10000 + (n - 0xd800) * 0x400 + (m - 0xdc00)), after)
        else ('�', rest)
      | none => ('�', rest)
    | _ => ('�', rest)
  else if 0xdc00 ≤ n && n < 0xe000 then ('�', rest)
  else (Char.ofNat n, rest)

/-- Reads a string after its opening quote; `opening` is the text from that quote on. -/
def readString (opening : List Char) : (fuel : Nat) → List Char → List Char →
    Except Problem (String × List Char)
  | 0, _, _ => .error (.unterminated, opening)
  | _ + 1, _, [] => .error (.unterminated, opening)
  | _ + 1, acc, '"' :: rest => .ok (String.ofList acc.reverse, rest)
  | fuel + 1, acc, '\\' :: rest =>
    match rest with
    | [] => .error (.unterminated, opening)
    | 'u' :: more =>
      match Decimal.takeHex? 4 more with
      | some (n, after) =>
        let (c, after) := unitChar n after
        readString opening fuel (c :: acc) after
      | none => .error (.badUnicodeEscape, more)
    | e :: more =>
      match escapeLetter? e with
      | some c => readString opening fuel (c :: acc) more
      | none => .error (.badEscape, '\\' :: rest)
  | fuel + 1, acc, c :: rest =>
    if c.toNat < 32 then .error (.controlCharacter, c :: rest)
    else readString opening fuel (c :: acc) rest

/-- The fraction at the front, with its point. -/
def takeFraction : List Char → List Char
  | '.' :: cs =>
    let ds := cs.takeWhile Char.isDigit
    if ds.isEmpty then [] else '.' :: ds
  | _ => []

/-- The exponent at the front, with its mark and sign. -/
def takeExponent : List Char → List Char
  | [] => []
  | e :: cs =>
    if e == 'e' || e == 'E' then
      let sign := cs.takeWhile (fun c => c == '+' || c == '-') |>.take 1
      let ds := (cs.drop sign.length).takeWhile Char.isDigit
      if ds.isEmpty then [] else e :: sign ++ ds
    else []

/-- The whole part at the front: a zero, or digits that start with another one. -/
def takeWhole : List Char → List Char
  | '0' :: _ => ['0']
  | cs => cs.takeWhile Char.isDigit

/-- Reads a number: a whole one, or one with a fraction or exponent. -/
def readNumber? (cs : List Char) : Option (Datum × List Char) :=
  let negative := cs.head? == some '-'
  let cs := if negative then cs.drop 1 else cs
  let whole := takeWhole cs
  if whole.isEmpty then none
  else
    let rest := cs.drop whole.length
    let fraction := takeFraction rest
    let rest := rest.drop fraction.length
    let exponent := takeExponent rest
    let rest := rest.drop exponent.length
    if fraction.isEmpty && exponent.isEmpty then
      let n : Int := Decimal.digitsValue 10 whole
      some (.int (if negative then -n else n), rest)
    else
      let x := Decimal.floatValue (whole ++ fraction ++ exponent)
      some (.float (if negative then -x else x), rest)

/-! ## §2. Values -/

/-- The words that stand for values. -/
def words : List (String × Datum) :=
  [("null", .null), ("true", .bool true), ("false", .bool false), ("NaN", .float (0.0 / 0.0)),
   ("Infinity", .float (1.0 / 0.0)), ("-Infinity", .float (-1.0 / 0.0))]

/-- Reads a word that stands for a value. -/
def readWord? (cs : List Char) : Option (Datum × List Char) :=
  words.findSome? fun (w, d) =>
    if w.toList.isPrefixOf cs then some (d, cs.drop w.length) else none

mutual
/-- Reads a value.  The fuel bounds the number of steps. -/
def readValue : (fuel : Nat) → List Char → Except Problem (Datum × List Char)
  | 0, cs => .error (.noValue, cs)
  | fuel + 1, cs =>
    match cs with
    | '"' :: rest => do
      let (s, rest) ← readString cs cs.length [] rest
      .ok (.text s, rest)
    | '[' :: rest =>
      match skipGap rest with
      | ']' :: rest => .ok (.list [], rest)
      | rest => readItems fuel [] rest
    | '\x7b' :: rest =>
      match skipGap rest with
      | '\x7d' :: rest => .ok (.table [], rest)
      | rest => readEntries fuel [] rest
    | _ =>
      match (readWord? cs).or (readNumber? cs) with
      | some r => .ok r
      | none => .error (.noValue, cs)

/-- Reads the items of an array, the ones before them in reverse. -/
def readItems : (fuel : Nat) → List Datum → List Char → Except Problem (Datum × List Char)
  | 0, _, cs => .error (.noValue, cs)
  | fuel + 1, before, cs => do
    let (d, rest) ← readValue fuel cs
    match skipGap rest with
    | ']' :: rest => .ok (.list (d :: before).reverse, rest)
    | ',' :: rest => readItems fuel (d :: before) (skipGap rest)
    | rest => .error (.noComma, rest)

/-- Reads the entries of an object, the ones before them in order. -/
def readEntries : (fuel : Nat) → List (Datum × Datum) → List Char →
    Except Problem (Datum × List Char)
  | 0, _, cs => .error (.noKey, cs)
  | fuel + 1, before, cs =>
    match cs with
    | '"' :: rest => do
      let (k, rest) ← readString cs cs.length [] rest
      match skipGap rest with
      | ':' :: rest =>
        let (v, rest) ← readValue fuel (skipGap rest)
        let entries := Datum.insert (.text k) v before
        match skipGap rest with
        | '\x7d' :: rest => .ok (.table entries, rest)
        | ',' :: rest => readEntries fuel entries (skipGap rest)
        | rest => .error (.noComma, rest)
      | rest => .error (.noColon, rest)
    | _ => .error (.noKey, cs)
end

/-! ## §3. Documents -/

/-- The fault of a problem: its position counts from zero, lines and columns from one. -/
def faultAt (text : List Char) (p : Problem) : Fault :=
  let before := text.take (text.length - p.2.length)
  let line := before.foldl (fun n c => if c == '\n' then n + 1 else n) 1
  let column := (before.reverse.takeWhile (· != '\n')).length + 1
  .badJson p.1 line column before.length

/-- Reads a text that holds one value. -/
def read (text : String) : Except Fault Datum :=
  let cs := text.toList
  let result : Except Problem Datum := do
    if cs.head? == some '\ufeff' then .error (.byteOrderMark, cs)
    let (d, rest) ← readValue (2 * cs.length + 2) (skipGap cs)
    match skipGap rest with
    | [] => .ok d
    | rest => .error (.extraData, rest)
  match result with
  | .ok d => .ok d
  | .error p => .error (faultAt cs p)

/-! ## §4. Writing -/

def unitEscape (n : Nat) : String := "\\u" ++ Text.hexPadded 4 n

/-- A character inside quotes; everything outside printable ASCII is escaped. -/
def writeChar (c : Char) : String :=
  if c == '"' then "\\\""
  else if c == '\\' then "\\\\"
  else if c == '\n' then "\\n"
  else if c == '\r' then "\\r"
  else if c == '\t' then "\\t"
  else if c == '\x08' then "\\b"
  else if c == '\x0c' then "\\f"
  else
    let n := c.toNat
    if 32 ≤ n && n < 127 then c.toString
    else if n < 0x10000 then unitEscape n
    else
      let m := n - 0x10000
      unitEscape (0xd800 + m / 0x400) ++ unitEscape (0xdc00 + m % 0x400)

/-- A text between quotes. -/
def writeText (s : String) : String :=
  s.toList.foldl (fun acc c => acc ++ writeChar c) "\"" ++ "\""

/-- A double: the fewest digits that read back, or a word. -/
def writeFloat (x : Float) : String :=
  match Decimal.Binary.ofFloat x with
  | .finite _ _ _ => Decimal.shortest x
  | _ => if x == 1.0 / 0.0 then "Infinity" else if x == -1.0 / 0.0 then "-Infinity" else "NaN"

/-- A key, which is always written as a text. -/
def writeKey : Datum → String
  | .text s => writeText s
  | .int i => writeText (toString i)
  | .bool b => writeText (if b then "true" else "false")
  | .null => writeText "null"
  | .float x => writeText (writeFloat x)
  | d => writeText d.written

/-- How parts of a value are laid out. -/
structure Layout where
  /-- Blanks per level, or everything on one line. -/
  indent : Option Nat

/-- What stands before an item at a level. -/
def Layout.lead (l : Layout) (level : Nat) : String :=
  match l.indent with
  | some n => "\n" ++ Text.times " " (n * level)
  | none => ""

/-- What stands between two items at a level. -/
def Layout.between (l : Layout) (level : Nat) : String :=
  match l.indent with
  | some _ => "," ++ l.lead level
  | none => ", "

mutual
def writeAt (l : Layout) (level : Nat) : Datum → String
  | .null => "null"
  | .bool b => if b then "true" else "false"
  | .int i => toString i
  | .float x => writeFloat x
  | .text s => writeText s
  | .list xs => writeList l level xs
  | .tuple xs => writeList l level xs
  | .set xs => writeList l level xs
  | .table [] => "\x7b\x7d"
  | .table es =>
    "\x7b" ++ l.lead (level + 1) ++ (l.between (level + 1)).intercalate
      (writeEntries l (level + 1) es) ++ l.lead level ++ "\x7d"
  | .complex re im => writeText (complexText re im)
  | .bytes bs => writeText (Text.quotedBytes bs)
  | .ellipsis => writeText "Ellipsis"
  | .date y m d => writeText (dateText y m d)
  | .moment m => writeText m.shown

def writeList (l : Layout) (level : Nat) : List Datum → String
  | [] => "[]"
  | xs =>
    "[" ++ l.lead (level + 1) ++ (l.between (level + 1)).intercalate (writeItems l (level + 1) xs)
      ++ l.lead level ++ "]"

def writeItems (l : Layout) (level : Nat) : List Datum → List String
  | [] => []
  | x :: xs => writeAt l level x :: writeItems l level xs

def writeEntries (l : Layout) (level : Nat) : List (Datum × Datum) → List String
  | [] => []
  | (k, v) :: es => (writeKey k ++ ": " ++ writeAt l level v) :: writeEntries l level es
end

mutual
/-- The kind of the first part of a value that cannot be written. -/
def unwritable? : Datum → Option String
  | .list xs => unwritableItem? xs
  | .tuple xs => unwritableItem? xs
  | .table es => unwritableValue? es
  | .set xs => some (Datum.set xs).kind
  | .complex re im => some (Datum.complex re im).kind
  | .bytes bs => some (Datum.bytes bs).kind
  | .ellipsis => some Datum.ellipsis.kind
  | .date y m d => some (Datum.date y m d).shortKind
  | .moment m => some (Datum.moment m).shortKind
  | _ => none

def unwritableItem? : List Datum → Option String
  | [] => none
  | x :: xs => (unwritable? x).or (unwritableItem? xs)

/-- The same for the values of an object. -/
def unwritableValue? : List (Datum × Datum) → Option String
  | [] => none
  | (_, v) :: es => (unwritable? v).or (unwritableValue? es)
end

/-- Fails on a value with a part that cannot be written. -/
def checkWritable (d : Datum) : Except Fault Unit :=
  match unwritable? d with
  | some kind => .error (.notWritable kind)
  | none => .ok ()

/-- A value on one line. -/
def write (d : Datum) : String := writeAt ⟨none⟩ 0 d

/-- A value with one item a line, indented by `n` blanks a level. -/
def writeIndented (n : Nat) (d : Datum) : String := writeAt ⟨some n⟩ 0 d

end AddonAudit.Json
