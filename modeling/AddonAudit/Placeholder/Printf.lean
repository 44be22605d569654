/-
  AddonAudit.Placeholder.Printf — percent placeholders in messages.

  A translated message is tried with stand-ins for the arguments of the source message: an empty
  text for `%s`, zero for every other placeholder.  `fill` walks through a message and says whether
  arguments fit; the filled text itself is never needed.
-/
import AddonAudit.Fault
import AddonAudit.Text.Basic
import AddonAudit.Text.Digit
import AddonAudit.Text.Word

namespace AddonAudit.Printf

/-! ## §1. Stand-ins -/

/-- A stand-in for an argument. -/
inductive Sample where
  | text
  | number
  deriving DecidableEq

/-- The arguments of a message. -/
inductive Arguments where
  | listed (samples : List Sample)
  | named (samples : List (String × Sample))
  deriving DecidableEq

def Arguments.isEmpty : Arguments → Bool
  | .listed xs => xs.isEmpty
  | .named xs => xs.isEmpty

/-! ## §2. Finding placeholders -/

/-- A placeholder as it is found in a line: its name, if it has one, and the stand-in for it. -/
structure Placeholder where
  name : Option String
  sample : Sample

def sampleOf (type : Char) : Sample := if type == 's' then .text else .number

/-- Type letters: word characters and the at sign. -/
def isType (c : Char) : Bool := Text.isWord c || c == '@'

def lengthMarks : List Char := "hh|h|l|ll".toList

/-- Reads a type letter, after the marks of a length or without them. -/
def typeAfterLength? (cs : List Char) : Option (Char × List Char) :=
  let typed : List Char → Option (Char × List Char)
    | c :: rest => if isType c then some (c, rest) else none
    | [] => none
  match Text.afterFront? lengthMarks cs with
  | some rest => (typed rest).or (typed cs)
  | none => typed cs

/-- Reads a type letter after at most `n` digits, the more the better. -/
def typeAfterDigits? (digits : Nat) (after : List Char → Option (Char × List Char))
    (cs : List Char) : Option (Char × List Char) :=
  (after (cs.drop digits)).or
    (match digits with
      | 0 => none
      | d + 1 =>
        match cs.drop d with
        | c :: rest => some (c, rest)
        | [] => none)

/-- Reads a precision, if there is one, and a type letter. -/
def typeAfterWidth? (cs : List Char) : Option (Char × List Char) :=
  match cs with
  | '.' :: rest =>
    match (rest.takeWhile Text.isDecimal).length with
    | 0 => none
    | 1 => typeAfterLength? (rest.drop 1)
    | n => typeAfterDigits? n typeAfterLength? rest
  | _ => typeAfterLength? cs

/-- Reads flags, width, precision, length and type letter.  A digit is a type letter too where the
    placeholder would have none otherwise. -/
def typeLetter? (cs : List Char) : Option (Char × List Char) :=
  let cs := cs.dropWhile fun c => c == '+' || c == '#' || c == '-'
  typeAfterDigits? (cs.takeWhile Text.isDecimal).length typeAfterWidth? cs

def numbered? (sign : Char) (cs : List Char) : Option (List Char) :=
  let digits := cs.takeWhile Text.isDecimal
  match digits, cs.drop digits.length with
  | _ :: _, c :: rest => if c == sign then some rest else none
  | _, _ => none

/-- Reads a name in parentheses. -/
def keyed? (cs : List Char) : Option (String × List Char) :=
  match cs with
  | '(' :: rest =>
    let name := rest.takeWhile Text.isWord
    match name, rest.drop name.length with
    | _ :: _, ')' :: rest => some (String.ofList name, rest)
    | _, _ => none
  | _ => none

/-- Reads what follows a percent sign: a number between percent signs, a number or name before the
    type, or the type alone. -/
def placeholder? (cs : List Char) : Option (Placeholder × List Char) :=
  match numbered? '%' cs with
  | some rest => some (⟨none, .number⟩, rest)
  | none =>
    let plain (name : Option String) (cs : List Char) : Option (Placeholder × List Char) :=
      (typeLetter? cs).map fun (c, rest) => (⟨name, sampleOf c⟩, rest)
    let leading := match numbered? '$' cs with
      | some rest => plain none rest
      | none =>
        match keyed? cs with
        | some (name, rest) => plain (some name) rest
        | none => none
    leading.or (plain none cs)

/-- The placeholders of a line, from left to right; `fuel` bounds the length. -/
def placeholdersFrom : (fuel : Nat) → List Char → List Placeholder
  | 0, _ => []
  | _ + 1, [] => []
  | fuel + 1, '%' :: cs =>
    match placeholder? cs with
    | some (p, rest) => p :: placeholdersFrom fuel rest
    | none => placeholdersFrom fuel cs
  | fuel + 1, _ :: cs => placeholdersFrom fuel cs

/-- The placeholders of a message, line by line; doubled percent signs are none. -/
def placeholders (message : String) : List Placeholder :=
  (Text.linesOfChars (Text.replaceChars ['%', '%'] [] message.toList)).flatMap fun line =>
    placeholdersFrom (line.length + 1) line

/-- Sets a named stand-in in its place, or at the end. -/
def setNamed (name : String) (s : Sample) : List (String × Sample) → List (String × Sample)
  | [] => [(name, s)]
  | (n, t) :: rest => if n == name then (n, s) :: rest else (n, t) :: setNamed name s rest

/-- The arguments that a message asks for: those by position, or if there are none those by name. -/
def argumentsOf (message : String) : Arguments :=
  let found := placeholders message
  let listed := (found.filter (·.name.isNone)).map (·.sample)
  if !listed.isEmpty then .listed listed
  else .named (found.foldl (fun acc p =>
    match p.name with
    | some n => setNamed n p.sample acc
    | none => acc) [])

/-! ## §3. Why arguments do not fit -/

/-- What stands for an argument when a message is filled. -/
inductive Value where
  | sample (s : Sample)
  /-- All named arguments together. -/
  | table

def Value.kind : Value → String
  | .sample .text => "str"
  | .sample .number => "int"
  | .table => "dict"

/-- Why arguments do not fit a message. -/
inductive Misfit where
  | tooFew
  | tooMany
  /-- A name is asked for, and arguments have none. -/
  | needsNames
  | noName (name : String)
  | openName
  | starNeedsNumber
  | widthTooBig
  | precisionTooBig
  | precisionTooLarge
  /-- The message ends inside a placeholder. -/
  | unfinished
  | unknownType (c : Char) (index : Nat)
  | needsReal (type : Char) (kind : String)
  | needsInteger (type : Char) (kind : String)
  | needsFloat (kind : String)
  | needsCharacter
  deriving DecidableEq

def Misfit.written : Misfit → String
  | .tooFew => cause "TypeError" "not enough arguments for format string"
  | .tooMany => cause "TypeError" "not all arguments converted during string formatting"
  | .needsNames => cause "TypeError" "format requires a mapping"
  | .noName n => cause "KeyError" n
  | .openName => cause "ValueError" "incomplete format key"
  | .starNeedsNumber => cause "TypeError" "* wants int"
  | .widthTooBig => cause "ValueError" "width too big"
  | .precisionTooBig => cause "ValueError" "precision too big"
  | .precisionTooLarge => cause "OverflowError" "precision too large"
  | .unfinished => cause "ValueError" "incomplete format"
  | .unknownType c index =>
    let shown := if 31 ≤ c.toNat && c.toNat ≤ 126 then c else '?'
    cause "ValueError" ("unsupported format character '" ++ shown.toString ++ "' (0x" ++
      Text.hexPadded 1 c.toNat ++ ") at index " ++ toString index)
  | .needsReal t kind =>
    cause "TypeError" ("%" ++ t.toString ++ " format: a real number is required, not " ++ kind)
  | .needsInteger t kind =>
    cause "TypeError" ("%" ++ t.toString ++ " format: an integer is required, not " ++ kind)
  | .needsFloat kind => cause "TypeError" ("must be real number, not " ++ kind)
  | .needsCharacter => cause "TypeError" "%c requires int or char"
where
  cause (kind text : String) : String := kind ++ "(" ++ Text.quoted text ++ ")"

/-! ## §4. One placeholder -/

/-- Where the next argument comes from. -/
inductive Supply where
  | listed (left : List Sample)
  /-- One value, unless it is used up, and the names that can be asked for. -/
  | named (value : Option Value) (samples : List (String × Sample))

def Supply.ofArguments : Arguments → Supply
  | .listed xs => .listed xs
  | .named xs => .named (some .table) xs

def Supply.next : Supply → Except Misfit (Value × Supply)
  | .listed (x :: xs) => .ok (.sample x, .listed xs)
  | .listed [] => .error .tooFew
  | .named (some v) names => .ok (v, .named none names)
  | .named none _ => .error .tooFew

/-- A message that is being filled: what is left of it, where that starts, and the arguments. -/
structure Cursor where
  rest : List Char
  index : Nat
  supply : Supply

def Cursor.drop (c : Cursor) (n : Nat) :
    Cursor := { c with rest := c.rest.drop n, index := c.index + n }

/-- The characters up to the parenthesis that closes a name, and how many there are with it. -/
def nameUpTo : (depth : Nat) → List Char → Option (List Char)
  | _, [] => none
  | depth, ')' :: cs =>
    match depth with
    | 0 => some []
    | d + 1 => (nameUpTo d cs).map (')' :: ·)
  | depth, '(' :: cs => (nameUpTo (depth + 1) cs).map ('(' :: ·)
  | depth, c :: cs => (nameUpTo depth cs).map (c :: ·)

/-- Reads a name in parentheses and looks its argument up. -/
def readName (c : Cursor) : Except Misfit Cursor :=
  match c.rest with
  | '(' :: rest =>
    match c.supply with
    | .listed _ => .error .needsNames
    | .named _ names =>
      match nameUpTo 0 rest with
      | none => .error .openName
      | some name =>
        match names.lookup (String.ofList name) with
        | none => .error (.noName (String.ofList name))
        | some s =>
          .ok { c.drop (name.length + 2) with supply := .named (some (.sample s)) names }
  | _ => .ok c

def isFlag (c : Char) : Bool := c == '-' || c == '+' || c == ' ' || c == '#' || c == '0'

/-- Reads a width or precision: a star takes the next argument, digits are a number up to a
    limit. -/
def readSize (limit : Nat) (tooBig : Misfit) (c : Cursor) : Except Misfit (Nat × Cursor) :=
  match c.rest with
  | '*' :: _ => do
    match ← c.supply.next with
    | (.sample .number, supply) => return (0, { c.drop 1 with supply })
    | _ => throw .starNeedsNumber
  | rest =>
    let digits := rest.takeWhile Char.isDigit
    let value := digits.foldl (fun n d => n * 10 + (d.toNat - 48)) 0
    if limit < value then .error tooBig else .ok (value, c.drop digits.length)

def readPrecision (c : Cursor) : Except Misfit (Nat × Cursor) :=
  match c.rest with
  | '.' :: _ => readSize 2147483647 .precisionTooBig (c.drop 1)
  | _ => .ok (0, c)

/-- Passes over one mark of a length. -/
def skipLength (c : Cursor) : Cursor :=
  match c.rest with
  | m :: _ => if m == 'h' || m == 'l' || m == 'L' then c.drop 1 else c
  | [] => c

def fits (type : Char) (index precision : Nat) (v : Value) : Except Misfit Unit :=
  if type == 's' || type == 'r' || type == 'a' then .ok ()
  else if type == 'd' || type == 'i' || type == 'u' then
    match v with
    | .sample .number => if 2147483644 < precision then .error .precisionTooLarge else .ok ()
    | v => .error (.needsReal type v.kind)
  else if type == 'o' || type == 'x' || type == 'X' then
    match v with
    | .sample .number => if 2147483644 < precision then .error .precisionTooLarge else .ok ()
    | v => .error (.needsInteger type v.kind)
  else if ['e', 'E', 'f', 'F', 'g', 'G'].contains type then
    match v with
    | .sample .number => .ok ()
    | v => .error (.needsFloat v.kind)
  else if type == 'c' then
    match v with
    | .sample .number => .ok ()
    | _ => .error .needsCharacter
  else .error (.unknownType type index)

/-- Fills the placeholder after a percent sign. -/
def fillOne (c : Cursor) : Except Misfit Cursor := do
  let c ← readName c
  let flags := (c.rest.takeWhile isFlag).length
  let (_, c) ← readSize 9223372036854775807 .widthTooBig (c.drop flags)
  let (precision, c) ← readPrecision c
  let c := skipLength c
  match c.rest with
  | [] => throw .unfinished
  | type :: _ =>
    let (v, supply) ← c.supply.next
    fits type c.index precision v
    return { c.drop 1 with supply }

/-! ## §5. Filling a message -/

/-- Whether arguments that are left are too many. -/
def Supply.finish : Supply → Except Misfit Unit
  | .listed (_ :: _) => .error .tooMany
  | _ => .ok ()

/-- Goes through a message; `fuel` bounds its length. -/
def fillFrom : (fuel : Nat) → Cursor → Except Misfit Unit
  | 0, c => c.supply.finish
  | fuel + 1, c =>
    match c.rest with
    | [] => c.supply.finish
    | '%' :: '%' :: _ => fillFrom fuel (c.drop 2)
    | '%' :: _ => do fillFrom fuel (← fillOne (c.drop 1))
    | _ :: _ => fillFrom fuel (c.drop 1)

def fill (message : String) (arguments : Arguments) : Except Misfit Unit :=
  fillFrom (message.length + 1) ⟨message.toList, 0, .ofArguments arguments⟩

/-! ## §6. The verdict on a translation -/

/-- A translation has to take the arguments of its source, if the source takes them itself. -/
def check (source translated : String) : Except Misfit Unit :=
  let arguments := argumentsOf source
  if arguments.isEmpty then .ok ()
  else match fill source arguments with
    | .error _ => .ok ()
    | .ok _ => fill translated arguments

end AddonAudit.Printf
