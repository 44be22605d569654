/-
  AddonAudit.Source.Token — cutting Python source text into tokens.

  The text is cut from left to right; blocks show up as `indent` and `dedent` tokens.  A text that
  cannot be cut further ends in a `fault` token, so the list always ends in `endMarker` or `fault`,
  and a reader that stops earlier never notices the fault.
-/
import AddonAudit.Text.Basic
import AddonAudit.Text.Identifier
import AddonAudit.Text.Printable

namespace AddonAudit.Source

/-! ## §1. Tokens -/

/-- Why the text cannot be cut further. -/
inductive LexFault where
  /-- A malformed number, string, character or bracket. -/
  | malformed
  /-- Wrong indentation, a stray backslash, or the end of the text inside a bracket. -/
  | broken
  deriving DecidableEq

/-- Kinds of tokens. -/
inductive TokenKind where
  | name
  | keyword
  | number
  | string
  | newline
  | indent
  | dedent
  | asyncWord
  | awaitWord
  | op
  | endMarker
  | fault (why : LexFault)
  deriving DecidableEq

/-- A token with the line on which it starts and the brackets open after it. -/
structure Token where
  kind : TokenKind
  text : String
  line : Nat
  /-- Line of the innermost bracket that is open after the token. -/
  openLine : Option Nat

instance : Inhabited Token := ⟨⟨.endMarker, "", 0, none⟩⟩

/-- Words that cannot be names. -/
def keywords : List String :=
  ["False", "None", "True", "and", "as", "assert", "break", "class", "continue", "def", "del",
    "elif",
   "else", "except", "finally", "for", "from", "global", "if", "import", "in", "is", "lambda",
   "nonlocal", "not", "or", "pass", "raise", "return", "try", "while", "with", "yield"]

def wordKind (w : String) : TokenKind :=
  if w == "async" then .asyncWord
  else if w == "await" then .awaitWord
  else if keywords.contains w then .keyword
  else .name

def pairOperators : List (Char × Char) :=
  [('!', '='), ('%', '='), ('&', '='), ('*', '*'), ('*', '='), ('+', '='), ('-', '='), ('-', '>'),
   ('/', '/'), ('/', '='), (':', '='), ('<', '<'), ('<', '='), ('<', '>'), ('=', '='), ('>', '='),
   ('>', '>'), ('@', '='), ('^', '='), ('|', '=')]

def tripleOperators : List (Char × Char × Char) :=
  [('*', '*', '='), ('/', '/', '='), ('<', '<', '='), ('>', '>', '=')]

/-- Characters that may stand in a word as far as cutting goes; other scripts are checked later. -/
def isWordPart (c : Char) : Bool := c.isAlphanum || c == '_' || 128 ≤ c.toNat

/-- Characters that may start a word as far as cutting goes. -/
def isWordStart (c : Char) : Bool := c.isAlpha || c == '_' || 128 ≤ c.toNat

/-! ## §2. Numbers -/

/-- Digits that may be grouped by single underscores, after a first digit. -/
def decimalTail? (cs : List Char) : Option (List Char) := go false cs
where
  go (afterScore : Bool) : List Char → Option (List Char)
    | [] => if afterScore then none else some []
    | c :: rest =>
      if c.isDigit then go false rest
      else if afterScore then none
      else if c == '_' then go true rest
      else some (c :: rest)

/-- Digits of another base, each group after the first introduced by an underscore. -/
def radixTail? (isDigit : Char → Bool) (cs : List Char) : Option (List Char) :=
  match cs with
  | '_' :: rest => go true rest
  | _ => go true cs
where
  /-- `need` asks for a digit at this place. -/
  go (need : Bool) : List Char → Option (List Char)
    | [] => if need then none else some []
    | c :: rest =>
      if isDigit c then go false rest
      else if need then none
      else if c == '_' then go true rest
      else some (c :: rest)

/-- What may follow a number: no word character, unless it starts a word operator. -/
def numberMayEnd (cs : List Char) : Bool :=
  match cs with
  | [] => true
  | c :: _ =>
    !isWordPart c ||
      ["and", "else", "for", "if", "in", "is", "or", "not"].any fun w => w.toList.isPrefixOf cs

/-- The rest after a number is accepted when the number may end there. -/
def endNumber? (cs : List Char) : Option (List Char) := if numberMayEnd cs then some cs else none

/-- What follows digits: an imaginary mark or the end. -/
def afterDigits? : List Char → Option (List Char)
  | 'j' :: rest => endNumber? rest
  | 'J' :: rest => endNumber? rest
  | cs => endNumber? cs

def exponent? (mark : Char) (cs : List Char) : Option (List Char) :=
  match cs with
  | '+' :: rest => signed rest
  | '-' :: rest => signed rest
  | c :: rest =>
    if c.isDigit then (decimalTail? rest).bind afterDigits? else endNumber? (mark :: cs)
  | [] => endNumber? [mark]
where
  signed : List Char → Option (List Char)
    | c :: rest => if c.isDigit then (decimalTail? rest).bind afterDigits? else none
    | [] => none

/-- An exponent, an imaginary mark or the end. -/
def exponentOrEnd? : List Char → Option (List Char)
  | 'e' :: rest => exponent? 'e' rest
  | 'E' :: rest => exponent? 'E' rest
  | cs => afterDigits? cs

/-- What follows a decimal point. -/
def fraction? : List Char → Option (List Char)
  | c :: rest => if c.isDigit then (decimalTail? rest).bind exponentOrEnd?
    else exponentOrEnd? (c :: rest)
  | [] => some []

/-- What follows the whole part of a decimal number. -/
def afterWhole? : List Char → Option (List Char)
  | '.' :: rest => fraction? rest
  | cs => exponentOrEnd? cs

/-- The zeros that a number starts with, and single underscores between them. -/
def zeros? : List Char → Option (List Char)
  | '0' :: rest => zeros? rest
  | '_' :: c :: rest => if c == '0' then zeros? rest else if c.isDigit then some (c :: rest)
    else none
  | ['_'] => none
  | cs => some cs

/-- What follows a leading zero: more zeros, and digits only before a point, exponent or `j`. -/
def afterZero? (cs : List Char) : Option (List Char) :=
  (zeros? cs).bind fun
    | c :: rest =>
      if c.isDigit then
        (decimalTail? rest).bind fun
          | '.' :: more => fraction? more
          | 'e' :: more => exponent? 'e' more
          | 'E' :: more => exponent? 'E' more
          | 'j' :: more => endNumber? more
          | 'J' :: more => endNumber? more
          | _ => none
      else afterWhole? (c :: rest)
    | [] => some []

/-- A digit after octal or binary digits is a fault of its own. -/
def noDigitAhead? : List Char → Option (List Char)
  | c :: rest => if c.isDigit then none else endNumber? (c :: rest)
  | [] => some []

/-- The rest after a number; `none` when it is malformed. -/
def numberRest? : List Char → Option (List Char)
  | '0' :: 'x' :: rest => (radixTail? isHexDigit rest).bind endNumber?
  | '0' :: 'X' :: rest => (radixTail? isHexDigit rest).bind endNumber?
  | '0' :: 'o' :: rest => (radixTail? (fun c => '0' ≤ c && c ≤ '7') rest).bind noDigitAhead?
  | '0' :: 'O' :: rest => (radixTail? (fun c => '0' ≤ c && c ≤ '7') rest).bind noDigitAhead?
  | '0' :: 'b' :: rest => (radixTail? (fun c => c == '0' || c == '1') rest).bind noDigitAhead?
  | '0' :: 'B' :: rest => (radixTail? (fun c => c == '0' || c == '1') rest).bind noDigitAhead?
  | '0' :: rest => afterZero? rest
  | '.' :: rest => fraction? rest
  | _ :: rest => (decimalTail? rest).bind afterWhole?
  | [] => none
where
  isHexDigit (c : Char) : Bool := c.isDigit || ('a' ≤ c && c ≤ 'f') || ('A' ≤ c && c ≤ 'F')

/-! ## §3. Quoted strings -/

/-- The letters before a quote, read so far. -/
structure StringMarks where
  b : Bool := false
  r : Bool := false
  u : Bool := false
  f : Bool := false

/-- Adds a letter if it may stand before a quote after those already read. -/
def StringMarks.add? (m : StringMarks) (c : Char) : Option StringMarks :=
  if !(m.b || m.u || m.f) && (c == 'b' || c == 'B') then some { m with b := true }
  else if !(m.b || m.u || m.r || m.f) && (c == 'u' || c == 'U') then some { m with u := true }
  else if !(m.r || m.u) && (c == 'r' || c == 'R') then some { m with r := true }
  else if !(m.f || m.b || m.u) && (c == 'f' || c == 'F') then some { m with f := true }
  else none

/-- The text from the opening quote on when only string letters stand before it. -/
def quoteAfterMarks? (m : StringMarks) : List Char → Option (List Char)
  | c :: rest =>
    match m.add? c with
    | none => none
    | some m' =>
      match rest with
      | '"' :: _ => some rest
      | '\x27' :: _ => some rest
      | _ => quoteAfterMarks? m' rest
  | [] => none

/-- The rest after the closing quote: `size` quotes in a row, of which `run` are read. -/
def closeQuote? (q : Char) (size : Nat) : (run : Nat) → List Char → Option (List Char)
  | _, [] => none
  | _, ['\\'] => none
  | _, '\\' :: _ :: rest => closeQuote? q size 0 rest
  | run, c :: rest =>
    if c == '\n' && size == 1 then none
    else if c == q then
      if run + 1 == size then some rest else closeQuote? q size (run + 1) rest
    else closeQuote? q size 0 rest

/-- The rest after a quoted string that starts with its opening quote. -/
def stringRest? : List Char → Option (List Char)
  | a :: b :: c :: rest =>
    if b == a && c == a then closeQuote? a 3 0 rest
    else if b == a then some (c :: rest)
    else closeQuote? a 1 0 (b :: c :: rest)
  | [a, b] => if b == a then some [] else none
  | _ => none

/-! ## §4. Indentation -/

/-- Columns of a line's first character, with wide and with narrow tabs. -/
structure Column where
  wide : Nat
  narrow : Nat
  deriving DecidableEq

/-- What stands at the start of a line. -/
inductive LineStart where
  | starts (column : Column) (rest : List Char) (line : Nat)
  | strayBackslash (line : Nat)
  | endAfterBackslash

/-- Measures the white space at the start of a line; the first backslash fixes the column. -/
def measureLine (col : Column) (kept : Option Nat) (line : Nat) : List Char → LineStart
  | ' ' :: cs => measureLine ⟨col.wide + 1, col.narrow + 1⟩ kept line cs
  | '\t' :: cs => measureLine ⟨(col.wide / 8 + 1) * 8, col.narrow + 1⟩ kept line cs
  | '\x0c' :: cs => measureLine ⟨0, 0⟩ kept line cs
  | '\\' :: '\n' :: cs =>
    if cs.isEmpty then .endAfterBackslash
    else measureLine col (if kept.getD 0 == 0 then some col.wide else kept) (line + 1) cs
  | '\\' :: _ => .strayBackslash line
  | cs => .starts (if kept.getD 0 == 0 then col else ⟨kept.getD 0, kept.getD 0⟩) cs line

/-- How a line's column compares with the open blocks. -/
inductive Shift where
  | same
  | deeper
  /-- The number of blocks that end. -/
  | shallower (closed : Nat)
  /-- Tabs and blanks disagree, the column fits no block, or blocks are nested too deeply. -/
  | wrong

/-- The blocks deeper than a column, and those that remain open. -/
def closeBlocks (wide : Nat) : List Column → Nat × List Column
  | top :: below => if wide < top.wide then
      let (n, open_) := closeBlocks wide below
      (n + 1, open_)
    else (0, top :: below)
  | [] => (0, [])

/-- Compares a line's column with the open blocks, innermost first; the outermost one is column
    0. -/
def shiftTo (col : Column) (blocks : List Column) : Shift × List Column :=
  let top := blocks.headD ⟨0, 0⟩
  if col.wide == top.wide then
    (if col.narrow == top.narrow then .same else .wrong, blocks)
  else if top.wide < col.wide then
    if 99 < blocks.length + 1 || col.narrow ≤ top.narrow then (.wrong, blocks)
    else (.deeper, col :: blocks)
  else
    let (n, open_) := closeBlocks col.wide blocks
    let top := open_.headD ⟨0, 0⟩
    if col.wide == top.wide && col.narrow == top.narrow then (.shallower n, open_)
    else (.wrong, blocks)

/-! ## §5. The cutting loop -/

/-- Where cutting stands. -/
structure LexState where
  rest : List Char
  line : Nat
  lineStart : Bool := true
  /-- Open blocks, innermost first, the outermost level left out. -/
  blocks : List Column := []
  /-- Blocks still to be announced: positive to open, negative to close. -/
  pending : Int := 0
  /-- Open brackets with their lines, innermost first. -/
  brackets : List (Char × Nat) := []

/-- The line that messages name: that of the next character, or the last line at the end. -/
def LexState.here (lastLine : Nat) (s : LexState) : Nat :=
  if s.rest.isEmpty then lastLine else s.line

/-- One step either yields a token, only moves on, or ends. -/
inductive LexStep where
  | token (t : Token) (s : LexState)
  | skip (s : LexState)
  | done (t : Token)

/-- The bracket that a closing bracket closes. -/
def openingOf (c : Char) : Char :=
  if c == ')' then '(' else if c == ']' then '[' else '\x7b'

def LexState.fault (s : LexState) (why : LexFault) (line : Nat) : LexStep :=
  .done ⟨.fault why, "", line, s.brackets.head?.map (·.2)⟩

/-- The line that the end of the text is blamed on: the innermost open bracket's, or the last
    one. -/
def LexState.endLine (lastLine : Nat) (s : LexState) : Nat :=
  match s.brackets with
  | (_, line) :: _ => line
  | [] => lastLine

/-- Emits a token made of the characters up to `rest`. -/
def LexState.emit (s : LexState) (kind : TokenKind) (rest : List Char) : LexStep :=
  let text := s.rest.take (s.rest.length - rest.length)
  let feeds := text.count '\n'
  .token ⟨kind, String.ofList text, s.line, s.brackets.head?.map (·.2)⟩
    { s with rest := rest, line := s.line + feeds }

/-- Words: names, keywords and strings with letters before their quote. -/
def LexState.word (s : LexState) : LexStep :=
  match quoteAfterMarks? {} s.rest with
  | some quote =>
    match stringRest? quote with
    | some rest => s.emit .string rest
    | none => s.fault .malformed s.line
  | none =>
    let w := s.rest.takeWhile isWordPart
    if w.any (128 ≤ ·.toNat) && !Text.isIdentifier w then s.fault .malformed s.line
    else s.emit (wordKind (String.ofList w)) (s.rest.drop w.length)

def LexState.operator (s : LexState) (c : Char) (rest : List Char) : LexStep :=
  match rest with
  | d :: more =>
    if pairOperators.contains (c, d) then
      match more with
      | e :: more' => if tripleOperators.contains (c, d, e) then s.emit .op more'
        else s.emit .op more
      | [] => s.emit .op more
    else single
  | [] => single
where
  single : LexStep :=
    if c == '(' || c == '[' || c == '\x7b' then
      if 200 ≤ s.brackets.length then s.fault .malformed s.line
      else { s with brackets := (c, s.line) :: s.brackets }.emit .op rest
    else if c == ')' || c == ']' || c == '\x7d' then
      match s.brackets with
      | [] => s.fault .malformed s.line
      | (o, _) :: below =>
        if o == openingOf c then { s with brackets := below }.emit .op rest
        else { s with brackets := below }.fault .malformed s.line
    else if Text.isPrintable c then s.emit .op rest
    else s.fault .malformed s.line

/-- Cuts one token inside a line; `blank` tells a line without one. -/
def LexState.inLine (lastLine : Nat) (s : LexState) (blank : Bool) : LexStep :=
  let cs := s.rest.dropWhile fun c => c == ' ' || c == '\t' || c == '\x0c'
  let cs := match cs with
    | '#' :: _ => cs.dropWhile (· != '\n')
    | _ => cs
  let s := { s with rest := cs }
  match cs with
  | [] =>
    if s.brackets.isEmpty then .done ⟨.endMarker, "", lastLine, none⟩
    else s.fault .broken (s.endLine lastLine)
  | '\n' :: rest =>
    let next := { s with rest := rest, line := s.line + 1, lineStart := true }
    if blank || !s.brackets.isEmpty then .skip next
    else .token ⟨.newline, "", s.line, none⟩ next
  | '\\' :: '\n' :: rest =>
    if rest.isEmpty then s.fault .broken (s.endLine lastLine)
    else .skip { s with rest := rest, line := s.line + 1 }
  | '\\' :: _ => s.fault .broken s.line
  | '.' :: '.' :: '.' :: rest => s.emit .op rest
  | '.' :: d :: _ =>
    if d.isDigit then number s else s.emit .op (cs.drop 1)
  | c :: rest =>
    if isWordStart c then s.word
    else if c.isDigit then number s
    else if c == '"' || c == '\x27' then
      match stringRest? cs with
      | some rest => s.emit .string rest
      | none => s.fault .malformed s.line
    else s.operator c rest
where
  number (s : LexState) : LexStep :=
    match numberRest? s.rest with
    | some rest => s.emit .number rest
    | none => s.fault .malformed s.line

def LexState.step (lastLine : Nat) (s : LexState) : LexStep :=
  if s.pending < 0 then
    .token ⟨.dedent, "", s.here lastLine, none⟩ { s with pending := s.pending + 1 }
  else if 0 < s.pending then
    .token ⟨.indent, "", s.here lastLine, none⟩ { s with pending := s.pending - 1 }
  else if s.lineStart then
    match measureLine ⟨0, 0⟩ none s.line s.rest with
    | .strayBackslash line => s.fault .broken line
    | .endAfterBackslash => s.fault .broken (s.endLine lastLine)
    | .starts col rest line =>
      let s := { s with rest := rest, line := line, lineStart := false }
      let blank := match rest with
        | '#' :: _ => true
        | '\n' :: _ => true
        | _ => false
      if blank || !s.brackets.isEmpty then s.inLine lastLine blank
      else
        match shiftTo col s.blocks with
        | (.same, _) => s.inLine lastLine false
        | (.deeper, blocks) => .skip { s with blocks := blocks, pending := 1 }
        | (.shallower n, blocks) => .skip { s with blocks := blocks, pending := -(n : Int) }
        | (.wrong, _) => s.fault .broken (s.here lastLine)
  else s.inLine lastLine false

/-- Cuts the rest of a text; each step consumes a character or announces a block. -/
def lexFrom (lastLine : Nat) : (fuel : Nat) → LexState → Array Token → Array Token
  | 0, s, acc => acc.push ⟨.fault .broken, "", s.line, none⟩
  | fuel + 1, s, acc =>
    match s.step lastLine with
    | .token t s' => lexFrom lastLine fuel s' (acc.push t)
    | .skip s' => lexFrom lastLine fuel s' acc
    | .done t => acc.push t

/-- The number of lines of a text. -/
def lineCount (cs : List Char) : Nat :=
  cs.count '\n' + (if cs.getLast? == some '\n' || cs.isEmpty then 0 else 1)

/-- Cuts a text whose first line has the given number. -/
def tokensFrom (firstLine : Nat) (cs : List Char) : Array Token :=
  lexFrom (firstLine + lineCount cs - 1) (3 * cs.length + 500) { rest := cs, line := firstLine } #[]

/-- The text of a whole file: line ends unified and the last line ended. -/
def fileText (cs : List Char) : List Char :=
  let cs := Text.unifyNewlines cs
  if cs.getLast? == some '\n' then cs else cs ++ ['\n']

end AddonAudit.Source
