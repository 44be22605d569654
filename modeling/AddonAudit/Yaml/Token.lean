/-
  AddonAudit.Yaml.Token — YAML text as a list of tokens.

  Indentation becomes explicit tokens that open and close blocks.  Whether something is a key shows
  only at the colon after it; the place where the key starts is remembered, and the tokens that
  announce it are put in when all tokens are known.
-/
import AddonAudit.Decimal.Reading
import AddonAudit.Fault

namespace AddonAudit.Yaml

/-! ## §1. Tokens and the state of reading -/

/-- The tokens of YAML. -/
inductive Token where
  | versionDirective (major minor : Nat)
  | tagDirective (handle address : String)
  | otherDirective
  | documentStart
  | documentEnd
  | sequenceStart
  | mappingStart
  | blockEnd
  | flowSequenceStart
  | flowSequenceEnd
  | flowMappingStart
  | flowMappingEnd
  | entry
  | flowEntry
  | key
  | value
  | alias (name : String)
  | anchor (name : String)
  | tag (handle : Option String) (address : String)
  | scalar (text : String) (plain : Bool)
  | streamEnd
  deriving DecidableEq, Inhabited

/-- Why a text cannot be loaded: it is no YAML, or a value in it is out of range. -/
inductive Problem where
  | malformed
  | fault (f : Fault)

/-- Where a key may have started. -/
structure PendingKey where
  token : Nat
  /-- Whether nothing but a key can stand there. -/
  required : Bool
  index : Nat
  line : Nat
  column : Nat

/-- A key that was found: the number of tokens before it, and whether it opens a mapping. -/
structure FoundKey where
  token : Nat
  opens : Bool

/-- The state of reading. -/
structure Lexer where
  rest : List Char
  index : Nat := 0
  line : Nat := 0
  column : Nat := 0
  /-- How many flow collections are open. -/
  flow : Nat := 0
  /-- The tokens so far, last one first. -/
  tokens : List Token := []
  count : Nat := 0
  found : List FoundKey := []
  indent : Int := -1
  indents : List Int := []
  keyAllowed : Bool := true
  /-- Keys that may have started, by the number of open flow collections. -/
  pending : List (Nat × PendingKey) := []
  done : Bool := false

/-- Reading a part of a text. -/
abbrev Lexing := StateT Lexer (Except Problem)

def refuse {α : Type} : Lexing α := throw .malformed

/-- Goes on only under a condition. -/
def require (b : Bool) : Lexing Unit := if b then pure () else refuse

def emit (t : Token) : Lexing Unit :=
  modify fun s => { s with tokens := t :: s.tokens, count := s.count + 1 }

/-! ## §2. Characters -/

/-- Characters that end a line; the end of the text is the null character. -/
def isBreak (c : Char) : Bool :=
  c == '\n' || c == '\r' || c == '\x85' || c == ' ' || c == ' '

def isLineEnd (c : Char) : Bool := isBreak c || c == '\x00'

/-- The end of a line or of the text, or a space. -/
def isGap (c : Char) : Bool := isLineEnd c || c == ' '

/-- The end of a line or of the text, a space or a tab. -/
def isBlankOrEnd (c : Char) : Bool := isGap c || c == '\t'

def Lexer.peekAt (s : Lexer) (n : Nat) : Char := (s.rest[n]?).getD '\x00'

def peek : Lexing Char := do return (← get).peekAt 0

def peekAt (n : Nat) : Lexing Char := do return (← get).peekAt n

/-- The state one character further. -/
def Lexer.step (s : Lexer) : Lexer :=
  match s.rest with
  | [] => s
  | c :: rest =>
    let s := { s with rest, index := s.index + 1 }
    if c != '\r' && isBreak c || c == '\r' && rest.head? != some '\n' then
      { s with line := s.line + 1, column := 0 }
    else if c != '﻿' then { s with column := s.column + 1 }
    else s

/-- Moves past `n` characters. -/
def skip (n : Nat) : Lexing Unit := modify fun s => n.repeat Lexer.step s

/-- Reads the longest run of characters of a class. -/
def takeRun (p : Char → Bool) : Lexing (List Char) := do
  let run := (← get).rest.takeWhile p
  skip run.length
  return run

def spaces : Lexing Unit := discard (takeRun (· == ' '))

/-- Reads the end of a line, if one comes next; all common forms become a line feed. -/
def lineBreak : Lexing (List Char) := do
  let c ← peek
  if c == '\r' && (← peekAt 1) == '\n' then
    skip 2
    return ['\n']
  else if c == '\r' || c == '\n' || c == '\x85' then
    skip 1
    return ['\n']
  else if c == ' ' || c == ' ' then
    skip 1
    return [c]
  else return []

/-- Whether a mark between documents comes next. -/
def Lexer.atMark (s : Lexer) (mark : String) : Bool :=
  mark.toList.isPrefixOf s.rest && isBlankOrEnd (s.peekAt 3)

/-- Whether either mark between documents comes next. -/
def atAnyMark : Lexing Bool := do
  let s ← get
  return s.atMark "---" || s.atMark "..."

/-! ## §3. Keys and indentation -/

/-- Forgets keys that cannot be keys any more; one that had to be is a fault. -/
def dropStaleKeys : Lexing Unit := do
  let s ← get
  let isStale (k : PendingKey) : Bool := k.line != s.line || 1024 < s.index - k.index
  require (!s.pending.any fun (_, k) => isStale k && k.required)
  set { s with pending := s.pending.filter fun (_, k) => !isStale k }

/-- Forgets the key that may have started at the current level. -/
def dropKey : Lexing Unit := do
  let s ← get
  require (!((s.pending.lookup s.flow).map (·.required)).getD false)
  set { s with pending := s.pending.filter (·.1 != s.flow) }

/-- Remembers that a key may start here. -/
def saveKey : Lexing Unit := do
  let s ← get
  if s.keyAllowed then
    dropKey
    modify fun s => { s with
      pending := (s.flow, ⟨s.count, s.flow == 0 && s.indent == s.column, s.index, s.line, s.column⟩)
        :: s.pending }

/-- Closes blocks that are indented further than a column. -/
def closeBlocks (column : Int) : (fuel : Nat) → Lexing Unit
  | 0 => pure ()
  | fuel + 1 => do
    let s ← get
    if column < s.indent then
      set { s with indent := s.indents.headD (-1), indents := s.indents.drop 1 }
      emit .blockEnd
      closeBlocks column fuel

/-- Closes blocks that end at a column; flow collections know no blocks. -/
def unwind (column : Int) : Lexing Unit := do
  let s ← get
  if s.flow == 0 then closeBlocks column (s.indents.length + 1)

/-- Opens a block at a column if it is indented further than the current one. -/
def openBlock (column : Nat) : Lexing Bool := do
  let s ← get
  if s.indent < column then
    set { s with indent := (column : Int), indents := s.indent :: s.indents }
    return true
  else return false

/-- Sets whether a key may start at what comes next. -/
def allowKey (b : Bool) : Lexing Unit := modify fun s => { s with keyAllowed := b }

/-- Skips spaces, comments and line ends before the next token. -/
def skipToToken : (fuel : Nat) → Lexing Unit
  | 0 => pure ()
  | fuel + 1 => do
    spaces
    if (← peek) == '#' then discard (takeRun (!isLineEnd ·))
    let br ← lineBreak
    if !br.isEmpty then
      if (← get).flow == 0 then allowKey true
      skipToToken fuel

/-! ## §4. Directives, anchors and tags -/

def isNameChar (c : Char) : Bool := c.isAlphanum || c == '-' || c == '_'

def number : Lexing Nat := do
  let ds ← takeRun Char.isDigit
  require !ds.isEmpty
  return Decimal.digitsValue 10 ds

/-- The bytes of a run of escapes in an address. -/
def addressEscapes : (fuel : Nat) → Lexing (List UInt8)
  | 0 => return []
  | fuel + 1 => do
    if (← peek) != '%' then return []
    match Decimal.takeHex? 2 ((← get).rest.drop 1) with
    | some (n, _) =>
      skip 3
      return n.toUInt8 :: (← addressEscapes fuel)
    | none => refuse

/-- Characters of addresses, the escape sign apart. -/
def isAddressChar (c : Char) : Bool := c.isAlphanum || "-;/?:@&=+$,_.!~*\x27()[]".toList.contains c

def addressParts : (fuel : Nat) → Lexing (List Char)
  | 0 => return []
  | fuel + 1 => do
    let run ← takeRun isAddressChar
    if (← peek) == '%' then
      let bytes ← addressEscapes (← get).rest.length
      match Text.decodeUtf8 bytes with
      | .ok cs => return run ++ cs ++ (← addressParts fuel)
      | .error _ => refuse
    else return run

def address : Lexing String := do
  let cs ← addressParts ((← get).rest.length + 1)
  require !cs.isEmpty
  return String.ofList cs

/-- Reads the handle of a tag: an exclamation mark, or a name between two of them. -/
def tagHandle : Lexing String := do
  require ((← peek) == '!')
  skip 1
  if (← peek) == ' ' then return "!"
  let name ← takeRun isNameChar
  if (← peek) == '!' then
    skip 1
    return "!" ++ String.ofList name ++ "!"
  else refuse

/-- Reads the rest of a line, on which only a comment may stand. -/
def restOfLine : Lexing Unit := do
  spaces
  if (← peek) == '#' then discard (takeRun (!isLineEnd ·))
  require (isLineEnd (← peek))
  discard lineBreak

def directive : Lexing Unit := do
  skip 1
  let name ← takeRun isNameChar
  require (!name.isEmpty && isGap (← peek))
  match String.ofList name with
  | "YAML" =>
    spaces
    let major ← number
    require ((← peek) == '.')
    skip 1
    let minor ← number
    require (isGap (← peek))
    emit (.versionDirective major minor)
  | "TAG" =>
    spaces
    let handle ← tagHandle
    require ((← peek) == ' ')
    spaces
    let target ← address
    require (isGap (← peek))
    emit (.tagDirective handle target)
  | _ =>
    discard (takeRun (!isLineEnd ·))
    emit .otherDirective
  restOfLine

/-- Reads the name of an anchor or alias after its sign. -/
def anchorName : Lexing String := do
  skip 1
  let name ← takeRun isNameChar
  require !name.isEmpty
  let c ← peek
  require (isBlankOrEnd c || "?:,]\x7d%@\x60".toList.contains c)
  return String.ofList name

def tag : Lexing Token := do
  let c ← peekAt 1
  let t ← if c == '<' then do
      skip 2
      let a ← address
      require ((← peek) == '>')
      skip 1
      pure (Token.tag none a)
    else if isBlankOrEnd c then do
      skip 1
      pure (Token.tag none "!")
    else do
      let word := ((← get).rest.drop 1).takeWhile (!isGap ·)
      let handle ← if word.contains '!' then tagHandle else do
        skip 1
        pure "!"
      pure (Token.tag (some handle) (← address))
  require (isGap (← peek))
  return t

/-! ## §5. Block scalars -/

/-- What becomes of the line ends after a block scalar. -/
inductive Chomping where
  | clip
  | strip
  | keep
  deriving DecidableEq

/-- The sign for what becomes of the line ends. -/
def chomping? : Lexing (Option Chomping) := do
  let c ← peek
  if c == '+' then
    skip 1
    return some .keep
  else if c == '-' then
    skip 1
    return some .strip
  else return none

/-- The digit for the indentation, which may not be zero. -/
def increment? : Lexing (Option Nat) := do
  let c ← peek
  if c.isDigit then
    require (c != '0')
    skip 1
    return some (c.toNat - 48)
  else return none

/-- Reads the signs after the opening of a block scalar, in either order. -/
def blockSigns : Lexing (Chomping × Option Nat) := do
  match ← chomping? with
  | some c =>
    let n ← increment?
    require (isGap (← peek))
    return (c, n)
  | none =>
    match ← increment? with
    | some n =>
      let c ← chomping?
      require (isGap (← peek))
      return (c.getD .clip, some n)
    | none =>
      require (isGap (← peek))
      return (.clip, none)

/-- Reads empty lines and finds the largest indentation among them and the first line. -/
def blockIndentation : (fuel : Nat) → (breaks : List Char) → (widest : Nat) →
    Lexing (List Char × Nat)
  | 0, breaks, widest => return (breaks, widest)
  | fuel + 1, breaks, widest => do
    let c ← peek
    if c == ' ' then
      skip 1
      blockIndentation fuel breaks (max widest (← get).column)
    else if isBreak c then
      let br ← lineBreak
      blockIndentation fuel (breaks ++ br) widest
    else return (breaks, widest)

def spacesTo (column : Nat) : Lexing Unit := do
  let s ← get
  skip ((s.rest.takeWhile (· == ' ')).length.min (column - s.column))

/-- Reads empty lines at an indentation. -/
def blockBreaks (indent : Nat) : (fuel : Nat) → (breaks : List Char) → Lexing (List Char)
  | 0, breaks => return breaks
  | fuel + 1, breaks => do
    spacesTo indent
    if isBreak (← peek) then
      let br ← lineBreak
      blockBreaks indent fuel (breaks ++ br)
    else return breaks

/-- Whether another line of a block scalar comes next. -/
def atBlockLine (indent : Nat) : Lexing Bool := do
  return (← get).column == indent && (← peek) != '\x00'

/-- Reads the lines of a block scalar: the text so far, the last line end, and the empty lines
    since. -/
def blockLines (folded : Bool) (indent : Nat) :
    (fuel : Nat) → (before br breaks : List Char) → Lexing (List Char × List Char × List Char)
  | 0, before, br, breaks => return (before, br, breaks)
  | fuel + 1, before, br, breaks => do
    if !(← atBlockLine indent) then return (before, br, breaks)
    let isBlank (c : Char) : Bool := c == ' ' || c == '\t'
    let flush := !isBlank (← peek)
    let line ← takeRun (!isLineEnd ·)
    let before := before ++ breaks ++ line
    let br ← lineBreak
    let breaks ← blockBreaks indent (← get).rest.length.succ []
    if ← atBlockLine indent then
      let joined :=
        if folded && br == ['\n'] && flush && !isBlank (← peek) then
          if breaks.isEmpty then [' '] else []
        else br
      blockLines folded indent fuel (before ++ joined) br breaks
    else return (before, br, breaks)

def blockScalar (folded : Bool) : Lexing Unit := do
  skip 1
  let (chomping, increment) ← blockSigns
  restOfLine
  let least := ((← get).indent + 1).toNat.max 1
  let fuel := (← get).rest.length + 1
  let (indent, breaks) ← match increment with
    | some n => do
      let indent := least + n - 1
      pure (indent, ← blockBreaks indent fuel [])
    | none => do
      let (breaks, widest) ← blockIndentation fuel [] 0
      pure (max least widest, breaks)
  let (body, br, breaks) ← blockLines folded indent fuel [] [] breaks
  let tail := match chomping with
    | .strip => []
    | .clip => br
    | .keep => br ++ breaks
  emit (.scalar (String.ofList (body ++ tail)) false)

/-! ## §6. Quoted scalars -/

def escapeLetter? : Char → Option Char
  | '0' => some '\x00'
  | 'a' => some '\x07'
  | 'b' => some '\x08'
  | 't' => some '\t'
  | '\t' => some '\t'
  | 'n' => some '\n'
  | 'v' => some '\x0b'
  | 'f' => some '\x0c'
  | 'r' => some '\r'
  | 'e' => some '\x1b'
  | ' ' => some ' '
  | '"' => some '"'
  | '\\' => some '\\'
  | '/' => some '/'
  | 'N' => some '\x85'
  | '_' => some '\xa0'
  | 'L' => some ' '
  | 'P' => some ' '
  | _ => none

/-- The number of hexadecimal digits after an escape letter. -/
def escapeDigits? : Char → Option Nat
  | 'x' => some 2
  | 'u' => some 4
  | 'U' => some 8
  | _ => none

def charOfCode (n : Nat) : Lexing Char :=
  if 0x10ffff < n then throw (.fault .noSuchCharacter)
  else return if n.isValidChar then Char.ofNat n else '�'

/-- Reads empty lines inside quotes; no mark between documents may stand there. -/
def quotedBreaks : (fuel : Nat) → (breaks : List Char) → Lexing (List Char)
  | 0, breaks => return breaks
  | fuel + 1, breaks => do
    require (!(← atAnyMark))
    discard (takeRun fun c => c == ' ' || c == '\t')
    if isBreak (← peek) then
      let br ← lineBreak
      quotedBreaks fuel (breaks ++ br)
    else return breaks

/-- Characters inside quotes that mean themselves. -/
def isOrdinary (c : Char) : Bool := !isBlankOrEnd c && c != '\x27' && c != '"' && c != '\\'

def escape : Lexing (List Char) := do
  let c ← peek
  match escapeLetter? c, escapeDigits? c with
  | some e, _ =>
    skip 1
    return [e]
  | none, some n =>
    match Decimal.takeHex? n ((← get).rest.drop 1) with
    | some (code, _) =>
      let r ← charOfCode code
      skip (n + 1)
      return [r]
    | none => refuse
  | none, none =>
    require (isBreak c)
    discard lineBreak
    quotedBreaks ((← get).rest.length + 1) []

/-- Reads inside quotes up to a blank, a line end or the closing quote. -/
def quotedWord (double : Bool) : (fuel : Nat) → (before : List Char) → Lexing (List Char)
  | 0, before => return before
  | fuel + 1, before => do
    let run ← takeRun isOrdinary
    let before := before ++ run
    let c ← peek
    if !double && c == '\x27' && (← peekAt 1) == '\x27' then
      skip 2
      quotedWord double fuel (before ++ ['\x27'])
    else if (double && c == '\x27') || (!double && (c == '"' || c == '\\')) then
      skip 1
      quotedWord double fuel (before ++ [c])
    else if double && c == '\\' then
      skip 1
      let e ← escape
      quotedWord double fuel (before ++ e)
    else return before

/-- Reads blanks inside quotes; a line end becomes a space, empty lines become line ends. -/
def quotedGap : Lexing (List Char) := do
  let blanks ← takeRun fun c => c == ' ' || c == '\t'
  let c ← peek
  require (c != '\x00')
  if isBreak c then
    let br ← lineBreak
    let breaks ← quotedBreaks ((← get).rest.length + 1) []
    return (if br != ['\n'] then br else if breaks.isEmpty then [' '] else []) ++ breaks
  else return blanks

/-- Reads words and blanks up to the closing quote. -/
def quotedText (double : Bool) : (fuel : Nat) → (before : List Char) → Lexing (List Char)
  | 0, _ => refuse
  | fuel + 1, before => do
    if (← peek) == (if double then '"' else '\x27') then return before
    let gap ← quotedGap
    let word ← quotedWord double ((← get).rest.length + 1) []
    quotedText double fuel (before ++ gap ++ word)

def quotedScalar (double : Bool) : Lexing Unit := do
  skip 1
  let fuel := (← get).rest.length + 1
  let first ← quotedWord double fuel []
  let text ← quotedText double fuel first
  skip 1
  emit (.scalar (String.ofList text) false)

/-! ## §7. Plain scalars -/

def isFlowSign (c : Char) : Bool := [',', '[', ']', '\x7b', '\x7d'].contains c

/-- The length of the plain text up to a blank, a colon that ends a key, or a sign of a flow
    collection. -/
def plainLength (flow : Bool) : List Char → Nat
  | [] => 0
  | c :: rest =>
    let next := rest.headD '\x00'
    if isBlankOrEnd c || (c == ':' && (isBlankOrEnd next || (flow && isFlowSign next))) ||
        (flow && (isFlowSign c || c == '?')) then 0
    else plainLength flow rest + 1

/-- Reads spaces and line ends between the lines of a plain scalar; there is no result before a mark
    between documents. -/
def plainBreaks : (fuel : Nat) → (breaks : List Char) → Lexing (Option (List Char))
  | 0, breaks => return some breaks
  | fuel + 1, breaks => do
    let c ← peek
    if c == ' ' then
      skip 1
      plainBreaks fuel breaks
    else if isBreak c then
      let br ← lineBreak
      if ← atAnyMark then return none
      plainBreaks fuel (breaks ++ br)
    else return some breaks

/-- Reads what separates two words of a plain scalar. -/
def plainGap : Lexing (List Char) := do
  let blanks ← takeRun (· == ' ')
  if isBreak (← peek) then
    let br ← lineBreak
    allowKey true
    if ← atAnyMark then return []
    match ← plainBreaks ((← get).rest.length + 1) [] with
    | none => return []
    | some breaks =>
      return (if br != ['\n'] then br else if breaks.isEmpty then [' '] else []) ++ breaks
  else return blanks

/-- Reads the words of a plain scalar. -/
def plainText (indent : Int) : (fuel : Nat) → (before gap : List Char) → Lexing (List Char)
  | 0, before, _ => return before
  | fuel + 1, before, gap => do
    let s ← get
    if s.peekAt 0 == '#' then return before
    let n := plainLength (s.flow != 0) s.rest
    if n == 0 then return before
    let word := s.rest.take n
    allowKey false
    skip n
    let before := before ++ gap ++ word
    let gap ← plainGap
    let s ← get
    if gap.isEmpty || s.peekAt 0 == '#' || (s.flow == 0 && (s.column : Int) < indent) then
      return before
    plainText indent fuel before gap

def plainScalar : Lexing Unit := do
  let s ← get
  let text ← plainText (s.indent + 1) (s.rest.length + 1) [] []
  emit (.scalar (String.ofList text) true)

/-- Whether a plain scalar can start here. -/
def Lexer.atPlain (s : Lexer) : Bool :=
  let c := s.peekAt 0
  let signs := ['-', '?', ':', ',', '[', ']', '\x7b', '\x7d', '#', '&', '*', '!', '|', '>', '\x27',
    '"', '%', '@', '\x60']
  !(isBlankOrEnd c || signs.contains c) ||
    (!isBlankOrEnd (s.peekAt 1) && (c == '-' || (s.flow == 0 && (c == '?' || c == ':'))))

/-! ## §8. One token after another -/

def streamEnd : Lexing Unit := do
  unwind (-1)
  dropKey
  emit .streamEnd
  modify fun s => { s with keyAllowed := false, pending := [], done := true }

def documentMark (t : Token) : Lexing Unit := do
  unwind (-1)
  dropKey
  allowKey false
  skip 3
  emit t

def openFlow (t : Token) : Lexing Unit := do
  saveKey
  modify fun s => { s with flow := s.flow + 1, keyAllowed := true }
  skip 1
  emit t

def closeFlow (t : Token) : Lexing Unit := do
  dropKey
  require ((← get).flow != 0)
  modify fun s => { s with flow := s.flow - 1, keyAllowed := false }
  skip 1
  emit t

/-- Reads the sign before an entry of a block sequence. -/
def blockEntry : Lexing Unit := do
  let s ← get
  if s.flow == 0 then
    require s.keyAllowed
    if ← openBlock s.column then emit .sequenceStart
  allowKey true
  dropKey
  skip 1
  emit .entry

def explicitKey : Lexing Unit := do
  let s ← get
  if s.flow == 0 then
    require s.keyAllowed
    if ← openBlock s.column then emit .mappingStart
  allowKey (s.flow == 0)
  dropKey
  skip 1
  emit .key

/-- Reads the sign before a value; what stands before it was a key if it could be one. -/
def valueSign : Lexing Unit := do
  let s ← get
  match s.pending.lookup s.flow with
  | some k =>
    set { s with pending := s.pending.filter (·.1 != s.flow) }
    let opens ← if s.flow == 0 then openBlock k.column else pure false
    modify fun s => { s with found := ⟨k.token, opens⟩ :: s.found, keyAllowed := false }
  | none =>
    if s.flow == 0 then
      require s.keyAllowed
      if ← openBlock s.column then emit .mappingStart
    allowKey (s.flow == 0)
    dropKey
  skip 1
  emit .value

/-- Reads something that may be a key. -/
def keyLike (read : Lexing Unit) : Lexing Unit := do
  saveKey
  allowKey false
  read

def nextToken : Lexing Unit := do
  if (← get).index == 0 && (← peek) == '﻿' then skip 1
  skipToToken ((← get).rest.length + 1)
  dropStaleKeys
  unwind (← get).column
  let s ← get
  let c := s.peekAt 0
  let lone := isBlankOrEnd (s.peekAt 1)
  if c == '\x00' then streamEnd
  else if c == '%' && s.column == 0 then
    unwind (-1)
    dropKey
    allowKey false
    directive
  else if s.column == 0 && s.atMark "---" then documentMark .documentStart
  else if s.column == 0 && s.atMark "..." then documentMark .documentEnd
  else if c == '[' then openFlow .flowSequenceStart
  else if c == '\x7b' then openFlow .flowMappingStart
  else if c == ']' then closeFlow .flowSequenceEnd
  else if c == '\x7d' then closeFlow .flowMappingEnd
  else if c == ',' then
    allowKey true
    dropKey
    skip 1
    emit .flowEntry
  else if c == '-' && lone then blockEntry
  else if c == '?' && (s.flow != 0 || lone) then explicitKey
  else if c == ':' && (s.flow != 0 || lone) then valueSign
  else if c == '*' then keyLike do emit (.alias (← anchorName))
  else if c == '&' then keyLike do emit (.anchor (← anchorName))
  else if c == '!' then keyLike do emit (← tag)
  else if (c == '|' || c == '>') && s.flow == 0 then
    allowKey true
    dropKey
    blockScalar (c == '>')
  else if c == '\x27' then keyLike (quotedScalar false)
  else if c == '"' then keyLike (quotedScalar true)
  else
    require s.atPlain
    keyLike plainScalar

/-- Reads tokens to the end of the text. -/
def allTokens : (fuel : Nat) → Lexing Unit
  | 0 => refuse
  | fuel + 1 => do
    nextToken
    if (← get).done then return
    allTokens fuel

/-- The tokens with those that announce the keys that were found. -/
def announceKeys (found : List FoundKey) : (index : Nat) → List Token → List Token
  | _, [] => []
  | i, t :: rest =>
    match found.find? (·.token == i) with
    | some k =>
      (if k.opens then [.mappingStart, .key] else [.key]) ++ t :: announceKeys found (i + 1) rest
    | none => t :: announceKeys found (i + 1) rest

/-- Characters that a text may hold. -/
def isPrintable (c : Char) : Bool :=
  let n := c.toNat
  n == 9 || n == 10 || n == 13 || (32 ≤ n && n ≤ 0x7e) || n == 0x85 ||
    (0xa0 ≤ n && n != 0xfffe && n != 0xffff)

def tokensOf (text : List Char) : Except Problem (List Token) := do
  if !text.all isPrintable then throw .malformed
  let (_, s) ← (allTokens (2 * text.length + 2)).run { rest := text }
  return announceKeys s.found 0 s.tokens.reverse

end AddonAudit.Yaml
