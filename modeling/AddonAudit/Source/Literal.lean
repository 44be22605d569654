/-
  AddonAudit.Source.Literal — the values of number and string tokens.

  A string token may be raw, a byte string or a formatted string.  Formatted strings are not
  evaluated: they are cut into the expressions between braces, which the grammar has to accept.
-/
import AddonAudit.Source.Token
import AddonAudit.Source.Tree
import AddonAudit.Text.Names

namespace AddonAudit.Source

open Decimal

/-! ## §1. Numbers -/

def numberValue (s : String) : Datum :=
  match s.toList.filter (· != '_') with
  | '0' :: 'x' :: cs => .int (digitsValue 16 cs)
  | '0' :: 'X' :: cs => .int (digitsValue 16 cs)
  | '0' :: 'o' :: cs => .int (digitsValue 8 cs)
  | '0' :: 'O' :: cs => .int (digitsValue 8 cs)
  | '0' :: 'b' :: cs => .int (digitsValue 2 cs)
  | '0' :: 'B' :: cs => .int (digitsValue 2 cs)
  | cs =>
    if cs.getLast? == some 'j' || cs.getLast? == some 'J' then .complex 0.0 (floatValue cs.dropLast)
    else if cs.all Char.isDigit then .int (digitsValue 10 cs)
    else .float (floatValue cs)

/-! ## §2. Escapes -/

/-- The octal digits at the front, at most `n` of them. -/
def takeOctal : Nat → List Char → List Char
  | n + 1, c :: cs => if '0' ≤ c && c ≤ '7' then c :: takeOctal n cs else []
  | _, _ => []

def letterEscape? (c : Char) : Option Char :=
  match c with
  | '\\' => some '\\'
  | '\x27' => some '\x27'
  | '"' => some '"'
  | 'a' => some '\x07'
  | 'b' => some '\x08'
  | 'f' => some '\x0c'
  | 'n' => some '\n'
  | 'r' => some '\r'
  | 't' => some '\t'
  | 'v' => some '\x0b'
  | _ => none

/-- A character by its code; codes without a character read as the replacement character. -/
def charOfCode (n : Nat) : Char := if n.isValidChar then Char.ofNat n else '�'

/-- A character by its name in braces, with what follows. -/
def namedChar? (cs : List Char) : Option (Char × List Char) :=
  match cs with
  | '\x7b' :: rest =>
    let name := rest.takeWhile (· != '\x7d')
    match rest.drop name.length with
    | _ :: after => (Text.named? (String.ofList name)).map fun c => (c, after)
    | [] => none
  | _ => none

/-- A character by `n` hexadecimal digits, with what follows. -/
def hexChar? (n : Nat) (cs : List Char) : Option (Char × List Char) :=
  match takeHex? n cs with
  | some (code, rest) => if code ≤ 0x10ffff then some (charOfCode code, rest) else none
  | none => none

/-- The character of an escape that names or numbers it, with what follows. -/
def codedChar? (c : Char) (cs : List Char) : Option (Option (Char × List Char)) :=
  if c == 'x' then some (hexChar? 2 cs)
  else if c == 'u' then some (hexChar? 4 cs)
  else if c == 'U' then some (hexChar? 8 cs)
  else if c == 'N' then some (namedChar? cs)
  else none

/-- Resolves the escapes of a text; `fuel` bounds the characters read. -/
def unescape? : (fuel : Nat) → List Char → List Char → Option (List Char)
  | 0, _, acc => some acc.reverse
  | _, [], acc => some acc.reverse
  | fuel + 1, '\\' :: c :: cs, acc =>
    match letterEscape? c with
    | some d => unescape? fuel cs (d :: acc)
    | none =>
      if c == '\n' then unescape? fuel cs acc
      else if '0' ≤ c && c ≤ '7' then
        let ds := takeOctal 3 (c :: cs)
        unescape? fuel ((c :: cs).drop ds.length) (charOfCode (digitsValue 8 ds) :: acc)
      else match codedChar? c cs with
        | some (some (d, after)) => unescape? fuel after (d :: acc)
        | some none => none
        | none => unescape? fuel cs (c :: '\\' :: acc)
  | _, ['\\'], _ => none
  | fuel + 1, c :: cs, acc => unescape? fuel cs (c :: acc)

/-- Resolves the escapes of a byte string. -/
def unescapeBytes? : (fuel : Nat) → List Char → List UInt8 → Option (List UInt8)
  | 0, _, acc => some acc.reverse
  | _, [], acc => some acc.reverse
  | fuel + 1, '\\' :: c :: cs, acc =>
    match letterEscape? c with
    | some d => unescapeBytes? fuel cs (d.toNat.toUInt8 :: acc)
    | none =>
      if c == '\n' then unescapeBytes? fuel cs acc
      else if '0' ≤ c && c ≤ '7' then
        let ds := takeOctal 3 (c :: cs)
        unescapeBytes? fuel ((c :: cs).drop ds.length) ((digitsValue 8 ds).toUInt8 :: acc)
      else if c == 'x' then
        match takeHex? 2 cs with
        | some (code, rest) => unescapeBytes? fuel rest (code.toUInt8 :: acc)
        | none => none
      else unescapeBytes? fuel cs (c.toNat.toUInt8 :: 92 :: acc)
  | _, ['\\'], _ => none
  | fuel + 1, c :: cs, acc => unescapeBytes? fuel cs (c.toNat.toUInt8 :: acc)

/-! ## §3. String tokens -/

/-- A string token without its quotes. -/
structure StringToken where
  bytes : Bool
  raw : Bool
  formatted : Bool
  body : List Char
  /-- Number of characters before the body. -/
  skipped : Nat

def StringToken.ofText (s : String) : StringToken :=
  let cs := s.toList
  let marks := cs.takeWhile fun c => c != '"' && c != '\x27'
  let quoted := cs.drop marks.length
  let has (c d : Char) : Bool := marks.contains c || marks.contains d
  let triple := match quoted with
    | a :: b :: c :: _ => a == b && b == c && 6 ≤ quoted.length
    | _ => false
  let n := if triple then 3 else 1
  ⟨has 'b' 'B', has 'r' 'R', has 'f' 'F', (quoted.drop n).take (quoted.length - 2 * n),
    marks.length + n⟩

/-! ## §4. Formatted strings -/

/-- What reading strings comes across, in order. -/
inductive StringEvent where
  /-- An expression between braces, with its line. -/
  | expression (text : List Char) (line : Nat)
  | faultAt (line : Nat)
  /-- A fault blamed on the last token read. -/
  | fault

/-- How the literal part of a formatted string ends. -/
inductive LiteralEnd where
  | doubled (literal rest : List Char)
  /-- At a brace or at the end of the string. -/
  | stop (literal rest : List Char)
  /-- At a closing brace that closes nothing. -/
  | stray

/-- Reads the literal part of a formatted string; braces are doubled at the outer level only. -/
def literalPart (raw outer : Bool) : (fuel : Nat) → List Char → List Char → LiteralEnd
  | 0, cs, acc => .stop acc.reverse cs
  | _, [], acc => .stop acc.reverse []
  | fuel + 1, c :: cs, acc =>
    match raw, c, cs with
    | false, '\\', 'N' :: '\x7b' :: rest =>
      let name := rest.takeWhile (· != '\x7d')
      let taken := rest.take (name.length + 1)
      literalPart raw outer fuel (rest.drop (name.length + 1))
        (taken.reverse ++ '\x7b' :: 'N' :: '\\' :: acc)
    | false, '\\', d :: rest =>
      if d == '\x7b' || d == '\x7d' then brace d rest ('\\' :: acc)
      else literalPart raw outer fuel rest (d :: '\\' :: acc)
    | _, _, _ =>
      if c == '\x7b' || c == '\x7d' then brace c cs acc
      else literalPart raw outer fuel cs (c :: acc)
where
  brace (c : Char) (rest acc : List Char) : LiteralEnd :=
    if outer then
      match rest with
      | d :: more => if d == c then .doubled (c :: acc).reverse more else single c rest acc
      | [] => single c rest acc
    else .stop acc.reverse (c :: rest)
  single (c : Char) (rest acc : List Char) : LiteralEnd :=
    if c == '\x7d' then .stray else .stop acc.reverse (c :: rest)

/-- Where the scan of an expression between braces stands. -/
structure ExprScan where
  /-- The quote that is open, and whether it is tripled. -/
  quote : Option (Char × Bool) := none
  brackets : List Char := []

/-- Scans an expression up to the character that ends it; `none` is a fault. -/
def exprPart? : (fuel : Nat) → ExprScan → List Char → List Char → Option (List Char × List Char)
  | 0, _, _, _ => none
  | _, s, [], acc => if s.quote.isSome || !s.brackets.isEmpty then none else some (acc.reverse, [])
  | fuel + 1, s, c :: cs, acc =>
    if c == '\\' then none
    else
      let isTriple := match cs with
        | a :: b :: _ => a == c && b == c
        | _ => false
      match s.quote with
      | some (q, tripled) =>
        if c == q && tripled && isTriple then
          exprPart? fuel { s with quote := none } (cs.drop 2) (c :: c :: c :: acc)
        else if c == q && !tripled then exprPart? fuel { s with quote := none } cs (c :: acc)
        else exprPart? fuel s cs (c :: acc)
      | none =>
        if c == '\x27' || c == '"' then
          if isTriple then exprPart? fuel { s with quote := some (c, true) } (cs.drop 2)
            (c :: c :: c :: acc)
          else exprPart? fuel { s with quote := some (c, false) } cs (c :: acc)
        else if c == '[' || c == '\x7b' || c == '(' then
          if 200 ≤ s.brackets.length then none
          else exprPart? fuel { s with brackets := c :: s.brackets } cs (c :: acc)
        else if c == '#' then none
        else if s.brackets.isEmpty && ['!', ':', '\x7d', '=', '<', '>'].contains c then
          match cs with
          | '=' :: rest =>
            if c == ':' || c == '\x7d' then some (acc.reverse, c :: cs)
            else exprPart? fuel s rest ('=' :: c :: acc)
          | _ => if c == '<' || c == '>' then exprPart? fuel s cs (c :: acc)
            else some (acc.reverse, c :: cs)
        else if c == ']' || c == '\x7d' || c == ')' then
          match s.brackets with
          | o :: below =>
            if o == openingOf c then exprPart? fuel { s with brackets := below } cs (c :: acc)
            else none
          | [] => none
        else exprPart? fuel s cs (c :: acc)

/-- White space of one character class, as the grammar skips it. -/
def isFormatBlank (c : Char) : Bool := c == ' ' || c == '\t' || c == '\n' || c == '\x0c' ||
    c == '\r'

/-- The rest of a formatted string after a part, with its line; `none` after a fault. -/
abbrev FormatRest := Option (List Char × Nat)

/-- Lists what a formatted string holds, from the outer level inwards.  At an inner level the scan
    stops before the closing brace. -/
def formatEvents (raw : Bool) : (fuel level : Nat) → (cs : List Char) → (line : Nat) →
    (acc : List StringEvent) → List StringEvent × FormatRest
  | 0, _, _, _, acc => (.fault :: acc, none)
  | fuel + 1, level, cs, line, acc =>
    match literalPart raw (level == 0) (cs.length + 1) cs [] with
    | .stray => (.fault :: acc, none)
    | .doubled lit rest =>
      if literalOk raw lit then formatEvents raw fuel level rest (line + feeds cs rest) acc
      else (.fault :: acc, none)
    | .stop lit rest =>
      if !literalOk raw lit then (.fault :: acc, none)
      else
        let line := line + feeds cs rest
        match rest with
        | [] => if level == 0 then (acc, some ([], line)) else (.fault :: acc, none)
        | '\x7d' :: _ => (acc, some (rest, line))
        | _ :: body =>
          if 2 ≤ level then (.fault :: acc, none)
          else
            match exprPart? (body.length + 1) {} body [] with
            | none => (.fault :: acc, none)
            | some (_, []) => (.fault :: acc, none)
            | some (text, tail) =>
              if text.all isFormatBlank then (.fault :: acc, none)
              else
                let acc := .expression text line :: acc
                let line := line + feeds body tail
                match conversion? (selfText tail) with
                | none => (.fault :: acc, none)
                | some tail' =>
                  let line := line + feeds tail tail'
                  match tail' with
                  | ':' :: spec =>
                    if spec.isEmpty then (.fault :: acc, none)
                    else
                      match formatEvents raw fuel (level + 1) spec line acc with
                      | (acc, some ('\x7d' :: rest, line)) =>
                        formatEvents raw fuel level rest line acc
                      | (acc, some _) => (.fault :: acc, none)
                      | (acc, none) => (acc, none)
                  | '\x7d' :: rest => formatEvents raw fuel level rest line acc
                  | _ => (.fault :: acc, none)
where
  feeds (before after : List Char) : Nat := (before.take (before.length - after.length)).count '\n'
  literalOk (raw : Bool) (lit : List Char) : Bool :=
    raw || (unescape? (lit.length + 1) lit []).isSome
  /-- Skips the mark that shows an expression with its value. -/
  selfText : List Char → List Char
    | '=' :: rest => rest.dropWhile fun c => isFormatBlank c || c == '\x0b'
    | cs => cs
  conversion? : List Char → Option (List Char)
    | '!' :: c :: rest => if c == 's' || c == 'r' || c == 'a' then some rest else none
    | '!' :: [] => none
    | [] => none
    | cs => some cs

/-! ## §5. Adjacent strings -/

/-- What reading one string token comes across, and its value. -/
def readString (t : Token) : List StringEvent × Datum :=
  let s := StringToken.ofText t.text
  if s.formatted then
    ((formatEvents s.raw (2 * s.body.length + 2) 0 s.body
      (t.line + (t.text.toList.take s.skipped).count '\n') []).1.reverse, .text "")
  else if s.bytes then
    if s.body.any (128 ≤ ·.toNat) then ([.faultAt t.line], .null)
    else if s.raw then ([], .bytes (s.body.map (·.toNat.toUInt8)))
    else match unescapeBytes? (s.body.length + 1) s.body [] with
      | some bs => ([], .bytes bs)
      | none => ([.fault], .null)
  else if s.raw then ([], .text (String.ofList s.body))
  else match unescape? (s.body.length + 1) s.body [] with
    | some cs => ([], .text (String.ofList cs))
    | none => ([.fault], .null)

/-- Reads adjacent strings: all that they come across, in order, and the joined value.  Strings and
    byte strings do not mix, and a formatted string makes the whole no constant. -/
def readStrings (line : Nat) (tokens : List Token) :
    List StringEvent × Expr := go [] none false tokens
where
  go (events : List StringEvent) (joined : Option Datum) (formatted : Bool) :
      List Token → List StringEvent × Expr
    | [] => (events, if formatted then .other line else .constant line (joined.getD (.text "")))
    | t :: ts =>
      let (es, v) := readString t
      match joined, v with
      | some (.bytes _), .text _ => (events ++ [.fault], .other line)
      | joined, v =>
      let events := events ++ es
      match joined, v with
      | none, v => go events (some v) (formatted || isFormatted t) ts
      | some (.text a), .text b => go events (some (.text (a ++ b))) (formatted || isFormatted t) ts
      | some (.bytes a), .bytes b => go events (some (.bytes (a ++ b))) formatted ts
      | some _, _ => (events ++ [.fault], .other line)
  isFormatted (t : Token) : Bool := (StringToken.ofText t.text).formatted

end AddonAudit.Source
