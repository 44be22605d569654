/-
  AddonAudit.Placeholder.Braces — brace placeholders in messages.

  A translated message is tried with stand-ins for the arguments of the source message: numbers for
  the positions, zero for every name.  A field may go into its argument by attributes and indices,
  convert it to a text, and lay it out by a format, which may hold fields of its own.
-/
import AddonAudit.Decimal.Fixed
import AddonAudit.Decimal.Whole
import AddonAudit.Fault

namespace AddonAudit.Braces

/-! ## §1. Why arguments do not fit -/

/-- Why arguments do not fit a message. -/
inductive Misfit where
  | loneClosing
  | loneOpening
  | openingInName
  | noConversion
  | noColon
  | openFormat
  | openField
  | tooManyDigits
  | manualThenAutomatic
  | automaticThenManual
  | noIndex (i : Nat)
  | noName (name : String)
  | emptyAttribute
  | openIndex
  | afterIndex
  | noAttribute (kind name : String)
  | notIndexed (kind : String)
  | indexMustBeInteger
  | indexOutOfRange
  | unknownConversion (c : Char)
  | tooDeep
  | bothSeparators
  | noPrecision
  | badFormat (format kind : String)
  | noSeparator (separator type : Char)
  | unknownType (type : Char) (kind : String)
  | precisionOnInteger
  | zeroOnInteger
  | signOnCharacter
  | alternateOnCharacter
  | notCharacter
  | precisionTooBig
  | spaceOnText
  | signOnText
  | zeroOnText
  | alternateOnText
  | numericAlignment
  | noFormat (kind : String)
  deriving DecidableEq

/-- A character as a message shows it, with its code where it is not plain ASCII. -/
def shownChar (c : Char) : String :=
  if 32 < c.toNat && c.toNat < 128 then c.toString else "\\x" ++ Text.hexPadded 1 c.toNat

def Misfit.cause : Misfit → String × String
  | .loneClosing => ("ValueError", "Single '\x7d' encountered in format string")
  | .loneOpening => ("ValueError", "Single '\x7b' encountered in format string")
  | .openingInName => ("ValueError", "unexpected '\x7b' in field name")
  | .noConversion => ("ValueError", "end of string while looking for conversion specifier")
  | .noColon => ("ValueError", "expected ':' after conversion specifier")
  | .openFormat => ("ValueError", "unmatched '\x7b' in format spec")
  | .openField => ("ValueError", "expected '\x7d' before end of string")
  | .tooManyDigits => ("ValueError", "Too many decimal digits in format string")
  | .manualThenAutomatic =>
    ("ValueError", "cannot switch from manual field specification to automatic field numbering")
  | .automaticThenManual =>
    ("ValueError", "cannot switch from automatic field numbering to manual field specification")
  | .noIndex i =>
    ("IndexError", "Replacement index " ++ toString i ++ " out of range for positional args tuple")
  | .noName n => ("KeyError", n)
  | .emptyAttribute => ("ValueError", "Empty attribute in format string")
  | .openIndex => ("ValueError", "Missing ']' in format string")
  | .afterIndex => ("ValueError", "Only '.' or '[' may follow ']' in format field specifier")
  | .noAttribute kind n =>
    ("AttributeError", "'" ++ kind ++ "' object has no attribute '" ++ n ++ "'")
  | .notIndexed kind => ("TypeError", "'" ++ kind ++ "' object is not subscriptable")
  | .indexMustBeInteger => ("TypeError", "string indices must be integers, not 'str'")
  | .indexOutOfRange => ("IndexError", "string index out of range")
  | .unknownConversion c => ("ValueError", "Unknown conversion specifier " ++
      (if 32 < c.toNat && c.toNat < 127 then c.toString else "\\x" ++ Text.hexPadded 1 c.toNat))
  | .tooDeep => ("ValueError", "Max string recursion exceeded")
  | .bothSeparators => ("ValueError", "Cannot specify both ',' and '_'.")
  | .noPrecision => ("ValueError", "Format specifier missing precision")
  | .badFormat f kind =>
    ("ValueError", "Invalid format specifier '" ++ f ++ "' for object of type '" ++ kind ++ "'")
  | .noSeparator s t =>
    ("ValueError", "Cannot specify '" ++ s.toString ++ "' with '" ++ shownChar t ++ "'.")
  | .unknownType t kind =>
    ("ValueError", "Unknown format code '" ++ shownChar t ++ "' for object of type '" ++ kind ++
      "'")
  | .precisionOnInteger => ("ValueError", "Precision not allowed in integer format specifier")
  | .zeroOnInteger =>
    ("ValueError", "Negative zero coercion (z) not allowed in integer format specifier")
  | .signOnCharacter => ("ValueError", "Sign not allowed with integer format specifier 'c'")
  | .alternateOnCharacter =>
    ("ValueError", "Alternate form (#) not allowed with integer format specifier 'c'")
  | .notCharacter => ("OverflowError", "%c arg not in range(0x110000)")
  | .precisionTooBig => ("ValueError", "precision too big")
  | .spaceOnText => ("ValueError", "Space not allowed in string format specifier")
  | .signOnText => ("ValueError", "Sign not allowed in string format specifier")
  | .zeroOnText =>
    ("ValueError", "Negative zero coercion (z) not allowed in string format specifier")
  | .alternateOnText => ("ValueError", "Alternate form (#) not allowed in string format specifier")
  | .numericAlignment => ("ValueError", "'=' alignment not allowed in string format specifier")
  | .noFormat kind => ("TypeError", "unsupported format string passed to " ++ kind ++ ".__format__")

def Misfit.written (m : Misfit) : String := m.cause.1 ++ "(" ++ Text.quoted m.cause.2 ++ ")"

/-! ## §2. Parts of a message -/

/-- A field of a message. -/
structure Field where
  name : List Char
  conversion : Option Char := none
  format : List Char := []
  /-- Whether the format holds fields of its own. -/
  nested : Bool := false

/-- A stretch of plain text with the field after it, if there is one. -/
structure Part where
  plain : List Char
  field : Option Field

/-- Splits a field's text after its name; indices in brackets belong to the name whatever they hold.
    `inIndex` tells whether an index is open. -/
def splitName (inIndex : Bool) : List Char → Except Misfit (List Char × List Char)
  | [] => .ok ([], [])
  | c :: cs =>
    if inIndex then (splitName (c != ']') cs).map fun (n, rest) => (c :: n, rest)
    else if c == '\x7b' then .error .openingInName
    else if c == '\x7d' || c == ':' || c == '!' then .ok ([], c :: cs)
    else (splitName (c == '[') cs).map fun (n, rest) => (c :: n, rest)

/-- Splits a text after the brace that closes a format; `depth` more have to be closed before. -/
def splitFormat : (depth : Nat) → List Char → Except Misfit (List Char × List Char)
  | _, [] => .error .openFormat
  | depth, c :: cs =>
    if c == '\x7d' then
      match depth with
      | 0 => .ok ([], cs)
      | d + 1 => (splitFormat d cs).map fun (f, rest) => (c :: f, rest)
    else if c == '\x7b' then (splitFormat (depth + 1) cs).map fun (f, rest) => (c :: f, rest)
    else (splitFormat depth cs).map fun (f, rest) => (c :: f, rest)

def readFormat (name : List Char) (conversion : Option Char) (cs : List Char) :
    Except Misfit (Field × List Char) := do
  let (format, rest) ← splitFormat 0 cs
  return (⟨name, conversion, format, format.contains '\x7b'⟩, rest)

/-- Reads a field after its opening brace. -/
def readField (cs : List Char) : Except Misfit (Field × List Char) := do
  let (name, rest) ← splitName false cs
  match rest with
  | '\x7d' :: rest => return ({ name }, rest)
  | ':' :: rest => readFormat name none rest
  | '!' :: [] => throw .noConversion
  | '!' :: c :: '\x7d' :: rest => return ({ name, conversion := some c }, rest)
  | '!' :: c :: ':' :: rest => readFormat name (some c) rest
  | '!' :: _ :: [] => throw .openFormat
  | '!' :: _ :: _ => throw .noColon
  | _ => throw .openField

def isBrace (c : Char) : Bool := c == '\x7b' || c == '\x7d'

/-- Reads plain text up to a doubled brace or a field. -/
def readPart (cs : List Char) : Except Misfit (Part × List Char) := do
  let plain := cs.takeWhile (!isBrace ·)
  match cs.drop plain.length with
  | [] => return (⟨plain, none⟩, [])
  | '\x7d' :: '\x7d' :: rest => return (⟨plain ++ ['\x7d'], none⟩, rest)
  | '\x7d' :: _ => throw .loneClosing
  | '\x7b' :: '\x7b' :: rest => return (⟨plain ++ ['\x7b'], none⟩, rest)
  | [_] => throw .loneOpening
  | _ :: rest =>
    let (f, rest) ← readField rest
    return (⟨plain, some f⟩, rest)

/-- The names of the fields of a line; none if it cannot be read. -/
def fieldNames? : (fuel : Nat) → List Char → Option (List String)
  | 0, _ => some []
  | _ + 1, [] => some []
  | fuel + 1, cs =>
    match readPart cs with
    | .error _ => none
    | .ok (p, rest) =>
      let own := p.field.toList.map fun f => String.ofList f.name
      (fieldNames? fuel rest).map (own ++ ·)

/-! ## §3. Values -/

/-- A value that a field stands for. -/
inductive Value where
  | number (n : Nat)
  | text (s : String)
  /-- Something that is only known by its kind. -/
  | object (kind : String)

def Value.kind : Value → String
  | .number _ => "int"
  | .text _ => "str"
  | .object kind => kind

def Value.shown : Value → String
  | .number n => toString n
  | .text s => s
  | .object kind => "<" ++ kind ++ ">"

def numberOperations : List String :=
  ["as_integer_ratio", "bit_count", "bit_length", "conjugate", "from_bytes", "to_bytes", "__ceil__",
   "__dir__", "__floor__", "__format__", "__getnewargs__", "__getstate__", "__init_subclass__",
   "__new__", "__reduce__", "__reduce_ex__", "__round__", "__sizeof__", "__subclasshook__",
   "__trunc__"]

def numberOperators : List String :=
  ["__abs__", "__add__", "__and__", "__bool__", "__delattr__", "__divmod__", "__eq__", "__float__",
   "__floordiv__", "__ge__", "__getattribute__", "__gt__", "__hash__", "__index__", "__init__",
   "__int__", "__invert__", "__le__", "__lshift__", "__lt__", "__mod__", "__mul__", "__ne__",
     "__neg__",
   "__or__", "__pos__", "__pow__", "__radd__", "__rand__", "__rdivmod__", "__repr__",
   "__rfloordiv__", "__rlshift__", "__rmod__", "__rmul__", "__ror__", "__rpow__", "__rrshift__",
   "__rshift__", "__rsub__", "__rtruediv__", "__rxor__", "__setattr__", "__str__", "__sub__",
   "__truediv__", "__xor__"]

def Value.getAttribute (v : Value) (name : String) : Except Misfit Value :=
  match v with
  | .number n =>
    if name == "real" || name == "numerator" then .ok (.number n)
    else if name == "imag" then .ok (.number 0)
    else if name == "denominator" then .ok (.number 1)
    else if numberOperations.contains name then .ok (.object "builtin_function_or_method")
    else if numberOperators.contains name then .ok (.object "method-wrapper")
    else if name == "__class__" then .ok (.object "type")
    else if name == "__doc__" then .ok (.text "number")
    else .error (.noAttribute "int" name)
  | v =>
    if name == "__class__" then .ok (.object "type") else .error (.noAttribute v.kind name)

/-- The item of a value at an index, which is a number or a name. -/
def Value.getItem (v : Value) (index : Option Nat) : Except Misfit Value :=
  match v with
  | .text s =>
    match index with
    | none => .error .indexMustBeInteger
    | some i =>
      match s.toList.drop i with
      | c :: _ => .ok (.text c.toString)
      | [] => .error .indexOutOfRange
  | v => .error (.notIndexed v.kind)

/-! ## §4. Formats -/

def maxNumber : Nat := 9223372036854775807

/-- Reads digits of any script. -/
def readNumber (cs : List Char) : Except Misfit (Option Nat × List Char) :=
  let digits := cs.takeWhile Text.isDecimal
  let value := Decimal.valueOfDigits (digits.filterMap Text.decimalValue?)
  if digits.isEmpty then .ok (none, cs)
  else if maxNumber < value then .error .tooManyDigits
  else .ok (some value, cs.drop digits.length)

/-- How a value is laid out. -/
structure Format where
  fill : Char := ' '
  align : Option Char := none
  sign : Option Char := none
  /-- Whether a negative zero loses its sign. -/
  zero : Bool := false
  alternate : Bool := false
  width : Option Nat := none
  separator : Option Char := none
  precision : Option Nat := none
  type : Option Char := none

/-- Whether a character says how to align. -/
def isAlignment (c : Char) : Bool := c == '<' || c == '>' || c == '=' || c == '^'

/-- Reads an alignment, with a fill character before it. -/
def readAlignment : List Char → Format × Bool × List Char
  | f :: a :: cs =>
    if isAlignment a then ({ fill := f, align := some a }, true, cs)
    else if isAlignment f then ({ align := some f }, false, a :: cs)
    else ({}, false, f :: a :: cs)
  | [a] => if isAlignment a then ({ align := some a }, false, []) else ({}, false, [a])
  | [] => ({}, false, [])

/-- Reads a separator of digit groups; there can be only one. -/
def readSeparator (cs : List Char) : Except Misfit (Option Char × List Char) :=
  match cs with
  | ',' :: '_' :: _ => .error .bothSeparators
  | '_' :: ',' :: _ => .error .bothSeparators
  | ',' :: cs => .ok (some ',', cs)
  | '_' :: cs => .ok (some '_', cs)
  | cs => .ok (none, cs)

def readPrecision (cs : List Char) : Except Misfit (Option Nat × List Char) :=
  match cs with
  | '.' :: cs => do
    match ← readNumber cs with
    | (some n, rest) => return (some n, rest)
    | (none, _) => throw .noPrecision
  | cs => .ok (none, cs)

/-- Whether digit groups can be separated under a type. -/
def separates (separator type : Char) : Bool :=
  ['d', 'e', 'f', 'g', 'E', 'G', '%', 'F'].contains type ||
    (separator == '_' && ['b', 'o', 'x', 'X'].contains type)

/-- Reads a format for a value of a kind; `numeric` kinds are aligned to the right by themselves. -/
def readFormatOf (kind : String) (numeric : Bool) (standard : Char) (cs : List Char) :
    Except Misfit Format := do
  let (f, filled, rest) := readAlignment cs
  let (sign, rest) := match rest with
    | c :: r => if c == ' ' || c == '+' || c == '-' then (some c, r) else (none, rest)
    | [] => (none, rest)
  let (zero, rest) := match rest with
    | 'z' :: r => (true, r)
    | r => (false, r)
  let (alternate, rest) := match rest with
    | '#' :: r => (true, r)
    | r => (false, r)
  let (padded, rest) := match rest with
    | '0' :: r => if filled then (false, rest) else (true, r)
    | r => (false, r)
  let fill := if padded then '0' else f.fill
  let align := if padded && f.align.isNone && numeric then some '=' else f.align
  let (width, rest) ← readNumber rest
  let (separator, rest) ← readSeparator rest
  let (precision, rest) ← readPrecision rest
  match rest with
  | _ :: _ :: _ => throw (.badFormat (String.ofList cs) kind)
  | rest =>
    let type := rest.head?
    match separator with
    | some s =>
      if !separates s (type.getD standard) then throw (.noSeparator s (type.getD standard))
    | none => pure ()
    return { fill, align, sign, zero, alternate, width, separator, precision, type }

/-! ## §5. Layout -/

/-- Fills a text up to the width of a format. -/
def Format.pad (f : Format) (standard : Char) (sign body : List Char) : List Char :=
  let missing := f.width.getD 0 - (sign.length + body.length)
  let fill (n : Nat) : List Char := List.replicate n f.fill
  match f.align.getD standard with
  | '<' => sign ++ body ++ fill missing
  | '^' => fill (missing / 2) ++ sign ++ body ++ fill (missing - missing / 2)
  | '=' => sign ++ fill missing ++ body
  | _ => fill missing ++ sign ++ body

/-- Separates groups of `size` digits, counted from the right. -/
def groupDigits (size : Nat) (separator : Char) (digits : List Char) : List Char :=
  go 0 digits.reverse []
where
  /-- Adds digits in front, with a separator after every full group. -/
  go (count : Nat) : List Char → List Char → List Char
    | [], acc => acc
    | d :: ds, acc =>
      if count == size then go 1 ds (d :: separator :: acc) else go (count + 1) ds (d :: acc)

/-- The digits of a whole number under a type, with the mark of its base. -/
def wholeDigits (type : Char) (alternate : Bool) (n : Nat) : List Char × List Char :=
  let mark (s : String) : List Char := if alternate then s.toList else []
  match type with
  | 'b' => (mark "0b", Nat.toDigits 2 n)
  | 'o' => (mark "0o", Nat.toDigits 8 n)
  | 'x' => (mark "0x", Nat.toDigits 16 n)
  | 'X' => (mark "0X", (Nat.toDigits 16 n).map Char.toUpper)
  | _ => ([], Nat.toDigits 10 n)

/-- A sign for a number that is not negative. -/
def Format.plus (f : Format) : List Char :=
  match f.sign with
  | some '+' => ['+']
  | some ' ' => [' ']
  | _ => []

/-- The least exponent, and the number rounded to `places` digits after the first. -/
def scaled (places n : Nat) : Nat × Nat :=
  let exponent := (Nat.toDigits 10 n).length - 1
  if exponent ≤ places then (exponent, n * Nat.pow 10 (places - exponent))
  else
    let unit := Nat.pow 10 (exponent - places)
    let q := n / unit
    let r := n % unit
    let q := if unit < 2 * r || (unit == 2 * r && q % 2 == 1) then q + 1 else q
    if q == Nat.pow 10 (places + 1) then (exponent + 1, q / 10) else (exponent, q)

/-- A mantissa of digits and an exponent of at least two. -/
def scientific (mark : Char) (places n : Nat) : List Char :=
  let (exponent, digits) := scaled places n
  let ds := (Decimal.placesText places digits).toList
  let tail := (Nat.toDigits 10 exponent)
  ds ++ mark :: '+' :: (if tail.length < 2 then '0' :: tail else tail)

/-- Drops zeros at the end of a fraction, and the point if nothing is left after it. -/
def trimFraction (cs : List Char) : List Char :=
  if cs.contains '.' then Text.dropTailWhile (· == '.') (Text.dropTailWhile (· == '0') cs) else cs

/-- A number with a given count of digits, with an exponent only where it is large. -/
def general (mark : Char) (digits n : Nat) : List Char :=
  let digits := max digits 1
  let (exponent, rounded) := scaled (digits - 1) n
  if exponent < digits then trimFraction (Decimal.placesText (digits - 1 - exponent) rounded).toList
  else
    let tail := Nat.toDigits 10 exponent
    trimFraction (Decimal.placesText (digits - 1) rounded).toList ++
      mark :: '+' :: (if tail.length < 2 then '0' :: tail else tail)

/-- The digits of a number under a type for reals. -/
def realDigits (type : Char) (precision n : Nat) : List Char :=
  match type with
  | 'e' => scientific 'e' precision n
  | 'E' => scientific 'E' precision n
  | 'g' => general 'e' precision n
  | 'G' => general 'E' precision n
  | '%' => (Decimal.placesText precision (n * 100 * Nat.pow 10 precision)).toList ++ ['%']
  | _ => (Decimal.placesText precision (n * Nat.pow 10 precision)).toList

def layNumber (n : Nat) (spec : List Char) : Except Misfit String := do
  let f ← readFormatOf "int" true 'd' spec
  let type := f.type.getD 'd'
  let grouped (size : Nat) (ds : List Char) : List Char :=
    match f.separator with
    | some s => groupDigits size s ds
    | none => ds
  if ['e', 'E', 'f', 'F', 'g', 'G', '%'].contains type then
    if 2147483647 < f.precision.getD 6 then throw .precisionTooBig
    let ds := realDigits type (f.precision.getD 6) n
    let whole := ds.takeWhile Char.isDigit
    return String.ofList (f.pad '>' f.plus (grouped 3 whole ++ ds.drop whole.length))
  else if ['b', 'c', 'd', 'o', 'x', 'X', 'n'].contains type then
    if f.precision.isSome then throw .precisionOnInteger
    if f.zero then throw .zeroOnInteger
    if type == 'c' then
      if f.sign.isSome then throw .signOnCharacter
      if f.alternate then throw .alternateOnCharacter
      if 0x110000 ≤ n then throw .notCharacter
      return String.ofList (f.pad '<' [] [Char.ofNat n])
    let (mark, ds) := wholeDigits type f.alternate n
    let size := if type == 'd' || type == 'n' then 3 else 4
    return String.ofList (f.pad '>' (f.plus ++ mark) (grouped size ds))
  else throw (.unknownType type "int")

def layText (s : String) (spec : List Char) : Except Misfit String := do
  let f ← readFormatOf "str" false 's' spec
  match f.type with
  | none => pure ()
  | some 's' => pure ()
  | some t => throw (.unknownType t "str")
  match f.sign with
  | none => pure ()
  | some ' ' => throw .spaceOnText
  | some _ => throw .signOnText
  if f.zero then throw .zeroOnText
  if f.alternate then throw .alternateOnText
  if f.align == some '=' then throw .numericAlignment
  let body := match f.precision with
    | some p => s.toList.take p
    | none => s.toList
  return String.ofList (f.pad '<' [] body)

/-- Lays out a value; an empty format leaves it as it is. -/
def Value.lay (v : Value) (spec : List Char) : Except Misfit String :=
  if spec.isEmpty then .ok v.shown
  else match v with
    | .number n => layNumber n spec
    | .text s => layText s spec
    | .object kind => .error (.noFormat kind)

/-! ## §6. Looking up arguments -/

/-- The arguments of a message: how many there are by position, and the names of the others. -/
structure Arguments where
  positions : Nat
  names : List String
  deriving DecidableEq

/-- How fields are numbered so far. -/
inductive Numbering where
  | undecided
  | automatic (next : Nat)
  | manual

/-- The index that a text of digits stands for; digits at its front must not be too many. -/
def indexOf? (cs : List Char) : Except Misfit (Option Nat) := do
  let (n, rest) ← readNumber cs
  return if rest.isEmpty then n else none

/-- Decides the index of a field with the first part of its name: none if it is a name. -/
def number (first : List Char) (state : Numbering) : Except Misfit (Option Nat × Numbering) := do
  match ← indexOf? first with
  | some i =>
    match state with
    | .automatic _ => throw .automaticThenManual
    | _ => return (some i, .manual)
  | none =>
    if !first.isEmpty then return (none, state)
    match state with
    | .undecided => return (some 0, .automatic 1)
    | .automatic next => return (some next, .automatic (next + 1))
    | .manual => throw .manualThenAutomatic

/-- Follows the attributes and indices of a name; `fuel` bounds its length. -/
def follow : (fuel : Nat) → Value → List Char → Except Misfit Value
  | 0, v, _ => .ok v
  | _ + 1, v, [] => .ok v
  | fuel + 1, v, '.' :: cs => do
    let name := cs.takeWhile fun c => c != '.' && c != '['
    if name.isEmpty then throw .emptyAttribute
    follow fuel (← v.getAttribute (String.ofList name)) (cs.drop name.length)
  | fuel + 1, v, '[' :: cs => do
    let index := cs.takeWhile (· != ']')
    if (cs.drop index.length).isEmpty then throw .openIndex
    let i ← indexOf? index
    if index.isEmpty then throw .emptyAttribute
    follow fuel (← v.getItem i) (cs.drop (index.length + 1))
  | _ + 1, _, _ :: _ => .error .afterIndex

/-- The value of a field's name. -/
def Arguments.get (a : Arguments) (name : List Char) (state : Numbering) :
    Except Misfit (Value × Numbering) := do
  let first := name.takeWhile fun c => c != '.' && c != '['
  let rest := name.drop first.length
  let (index, state) ← number first state
  let v ← match index with
    | some i => if i < a.positions then pure (Value.number i) else throw (.noIndex i)
    | none =>
      if a.names.contains (String.ofList first) then pure (Value.number 0)
      else throw (.noName (String.ofList first))
  return (← follow (rest.length + 1) v rest, state)

/-- Converts a value to a text, if that is asked for. -/
def convert (v : Value) : Option Char → Except Misfit Value
  | none => .ok v
  | some c =>
    if c == 's' then .ok (.text v.shown)
    else if c == 'r' || c == 'a' then
      .ok (.text (match v with
        | .text s => Text.quoted s
        | v => v.shown))
    else .error (.unknownConversion c)

/-! ## §7. Filling a message -/

/-- Goes through a message and lays out its fields; `fuel` bounds the length, `depth` how far
    formats may hold fields of their own. -/
def fillFrom (a : Arguments) : (depth fuel : Nat) → Numbering → List Char →
    Except Misfit (String × Numbering)
  | 0, _, _, _ => .error .tooDeep
  | _ + 1, 0, state, _ => .ok ("", state)
  | _ + 1, _ + 1, state, [] => .ok ("", state)
  | depth + 1, fuel + 1, state, cs => do
    let (part, rest) ← readPart cs
    match part.field with
    | none =>
      let (tail, state) ← fillFrom a (depth + 1) fuel state rest
      return (String.ofList part.plain ++ tail, state)
    | some f =>
      let (v, state) ← a.get f.name state
      let v ← convert v f.conversion
      let (spec, state) ← if f.nested then fillFrom a depth (f.format.length + 1) state f.format
        else pure (String.ofList f.format, state)
      let laid ← v.lay spec.toList
      let (tail, state) ← fillFrom a (depth + 1) fuel state rest
      return (String.ofList part.plain ++ laid ++ tail, state)

def fill (message : String) (a : Arguments) : Except Misfit Unit := do
  let _ ← fillFrom a 2 (message.length + 1) .undecided message.toList

/-! ## §8. The verdict on a translation -/

/-- The names of the fields of a message, line by line; lines that cannot be read have none. -/
def placeholders (message : String) : List String :=
  (Text.linesOfChars message.toList).flatMap fun line =>
    (fieldNames? (line.length + 1) line).getD []

/-- The least number of positions that a name asks for: zero for a field without name, none for one
    that is no number. -/
def positions? (name : String) : Except Fault (Option Int) :=
  if name == "" then .ok (some 0)
  else if name.toList.all Text.isDigitLike then
    match Decimal.readWhole name with
    | .ok n => .ok (some (n + 1))
    | .error .malformed => .error (.notWhole 10 name)
    | .error (.tooLong n) => .error (.tooManyDigits n)
  else .ok none

def argumentsOf (message : String) : Except Fault Arguments := do
  let found ← (placeholders message).mapM fun n => do return (n, ← positions? n)
  let numbered := found.filterMap (·.2)
  let most := numbered.foldl max (0 : Int)
  return {
    positions := if most == 0 then numbered.length else most.toNat
    names := ((found.filter (·.2.isNone)).map (·.1)).eraseDups }

/-- The most arguments that a call takes by position, however much memory there is. -/
def maxPositions : Nat := 1152921504606846972

/-- How many arguments an ordinary machine can hold. -/
def usualCapacity : Nat := 4294967296

/-- How many arguments can be handed over by position on a machine that can hold `capacity` of
    them. -/
def room (capacity : Nat) : Nat := min capacity maxPositions

/-- A translation has to take the arguments of its source, if the source takes them itself.  A
    source that asks for more than can be handed over does not. -/
def check (source translated : String) (capacity : Nat := usualCapacity) :
    Except Fault (Except Misfit Unit) := do
  let a ← argumentsOf source
  if a.positions == 0 && a.names.isEmpty then return .ok ()
  if room capacity < a.positions then return .ok ()
  match fill source a with
  | .error _ => return .ok ()
  | .ok _ => return fill translated a

end AddonAudit.Braces
