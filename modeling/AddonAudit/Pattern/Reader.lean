/-
  AddonAudit.Pattern.Reader — reading patterns.

  A pattern is read from left to right with one token of look-ahead; a backslash and the character
  after it are one token.  Faults tell what is wrong and where.
-/
import AddonAudit.Decimal.Reading
import AddonAudit.Decimal.Whole
import AddonAudit.Fault
import AddonAudit.Pattern.Tree
import AddonAudit.Text.Identifier
import AddonAudit.Text.Names

namespace AddonAudit.Pattern

/-! ## §1. Why a pattern cannot be read -/

/-- What is wrong with a pattern. -/
inductive Cause where
  | endsInEscape
  | badEscape (escape : String)
  | incompleteEscape (escape : String)
  | octalTooLarge (escape : String)
  | missing (what : String)
  | unknownCharacter (name : String)
  | unfinishedName (terminator : Char)
  | badGroupName (name : String)
  | unknownGroup (name : String)
  | noSuchGroup (number : Nat)
  | badGroupNumber
  | openGroup
  | groupInLook
  | groupTwice (name : String) (number earlier : Nat)
  | openSet
  | badRange (first last : String)
  | nothingToRepeat
  | multipleRepeat
  | leastAboveMost
  | unexpectedEnd
  | unknownExtension (text : String)
  | openComment
  | openPart
  | tooManyOptions
  | lateFlags
  | localeFlag
  | conflictingFlags
  | unknownFlag
  | globalFlagOn
  | globalFlagOff
  | typeFlagOff
  | flagOnAndOff
  | unbalanced
  | lookWidth
  deriving DecidableEq

/-- The message of a cause. -/
def Cause.message : Cause → String
  | .endsInEscape => "bad escape (end of pattern)"
  | .badEscape e => "bad escape " ++ e
  | .incompleteEscape e => "incomplete escape " ++ e
  | .octalTooLarge e => "octal escape value " ++ e ++ " outside of range 0-0o377"
  | .missing what => "missing " ++ what
  | .unknownCharacter n => "undefined character name " ++ Text.quoted n
  | .unfinishedName t => "missing " ++ t.toString ++ ", unterminated name"
  | .badGroupName n => "bad character in group name " ++ Text.quoted n
  | .unknownGroup n => "unknown group name " ++ Text.quoted n
  | .noSuchGroup n => "invalid group reference " ++ toString n
  | .badGroupNumber => "bad group number"
  | .openGroup => "cannot refer to an open group"
  | .groupInLook => "cannot refer to group defined in the same lookbehind subpattern"
  | .groupTwice n new old =>
    "redefinition of group name " ++ Text.quoted n ++ " as group " ++ toString new ++
      "; was group " ++ toString old
  | .openSet => "unterminated character set"
  | .badRange a b => "bad character range " ++ a ++ "-" ++ b
  | .nothingToRepeat => "nothing to repeat"
  | .multipleRepeat => "multiple repeat"
  | .leastAboveMost => "min repeat greater than max repeat"
  | .unexpectedEnd => "unexpected end of pattern"
  | .unknownExtension s => "unknown extension ?" ++ s
  | .openComment => "missing ), unterminated comment"
  | .openPart => "missing ), unterminated subpattern"
  | .tooManyOptions => "conditional backref with more than two branches"
  | .lateFlags => "global flags not at the start of the expression"
  | .localeFlag => "bad inline flags: cannot use 'L' flag with a str pattern"
  | .conflictingFlags => "bad inline flags: flags 'a', 'u' and 'L' are incompatible"
  | .unknownFlag => "unknown flag"
  | .globalFlagOn => "bad inline flags: cannot turn on global flag"
  | .globalFlagOff => "bad inline flags: cannot turn off global flag"
  | .typeFlagOff => "bad inline flags: cannot turn off flags 'a', 'u' and 'L'"
  | .flagOnAndOff => "bad inline flags: flag turned on and off"
  | .unbalanced => "unbalanced parenthesis"
  | .lookWidth => "look-behind requires fixed-width pattern"

/-- Why a pattern cannot be read. -/
inductive Problem where
  | at (cause : Cause) (position : Nat)
  /-- A number of repetitions that is too large. -/
  | tooLarge
  /-- A look-behind without fixed width. -/
  | noWidth
  | noName (name : String)

def lineAndColumn? (pattern : String) (position : Nat) : Option (Nat × Nat) :=
  let before := pattern.toList.take position
  if pattern.toList.contains '\n' then
    some (before.count '\n' + 1, (before.reverse.takeWhile (· != '\n')).length + 1)
  else none

/-- The fault of a pattern that cannot be read. -/
def Problem.fault (pattern : String) : Problem → Fault
  | .at cause position =>
    .badPattern cause.message (some position) (lineAndColumn? pattern position)
  | .tooLarge => .tooManyRepetitions
  | .noWidth => .badPattern Cause.lookWidth.message none none
  | .noName name => .noGroup name

/-! ## §2. Tokens -/

/-- Flags that change the meaning of a pattern. -/
structure Flags where
  ignoreCase : Bool := false
  anyLine : Bool := false
  dotAll : Bool := false
  verbose : Bool := false
  ascii : Bool := false
  /-- All scripts, said explicitly. -/
  wide : Bool := false
  /-- A flag without meaning that can only be set for a whole pattern. -/
  template : Bool := false
  deriving DecidableEq

/-- The state between two tokens. -/
structure State where
  next : Option (List Char) := none
  rest : List Char
  /-- How many characters come before what follows. -/
  index : Nat := 0
  length : Nat
  groups : Nat := 1
  names : List (String × Nat) := []
  widths : List (Nat × Width) := []
  flags : Flags := {}
  /-- The number of groups before the look-behind that is open. -/
  lookBehind : Option Nat := none
  /-- Groups that conditions ask for, with the place. -/
  asked : List (Nat × Nat) := []

/-- A reader of patterns. -/
abbrev Read := StateT State (Except Problem)

def State.tell (s : State) : Nat := s.index - ((s.next.map List.length).getD 0)

/-- Fails at a number of characters before the next token. -/
def failBack {α : Type} (cause : Cause) (offset : Nat) : Read α := do
  throw (.at cause ((← get).tell - offset))

/-- Fails at the current place. -/
def fail {α : Type} (cause : Cause) : Read α := failBack cause 0

/-- Makes the following token the next one. -/
def advance : Read Unit := do
  let s ← get
  match s.rest with
  | [] => set { s with next := none }
  | ['\\'] => throw (.at .endsInEscape (s.length - 1))
  | '\\' :: c :: rest => set { s with next := some ['\\', c], rest, index := s.index + 2 }
  | c :: rest => set { s with next := some [c], rest, index := s.index + 1 }

/-- Takes the next token. -/
def token : Read (Option (List Char)) := do
  let t := (← get).next
  advance
  return t

/-- Takes the next token if it is a given character. -/
def accept (c : Char) : Read Bool := do
  if (← get).next == some [c] then
    advance
    return true
  else return false

/-- The position of the next token. -/
def tell : Read Nat := do return (← get).tell

/-- Takes at most `n` characters of a class. -/
def takeWhile (p : Char → Bool) : (n : Nat) → Read (List Char)
  | 0 => return []
  | n + 1 => do
    match (← get).next with
    | some [c] =>
      if p c then
        advance
        return c :: (← takeWhile p n)
      else return []
    | _ => return []

/-- Takes tokens up to a terminator; `what` is the name of the text before it. -/
def takeUntil (terminator : Char) (what : String) : (fuel : Nat) → (before : List Char) →
    Read (List Char)
  | 0, before => return before
  | fuel + 1, before => do
    match ← token with
    | none =>
      if before.isEmpty then fail (.missing what)
      else failBack (.unfinishedName terminator) before.length
    | some t =>
      if t == [terminator] then
        if before.isEmpty then failBack (.missing what) 1 else return before
      else takeUntil terminator what fuel (before ++ t)

def takeName (terminator : Char) (what : String) : Read String := do
  return String.ofList (← takeUntil terminator what ((← get).length + 1) [])

/-! ## §3. Flags and groups -/

def State.isClosed (s : State) (n : Nat) : Bool := (s.widths.lookup n).isSome

/-- Inside a look-behind only groups before it can be referred to. -/
def checkLookBehind (n : Nat) : Read Unit := do
  let s ← get
  match s.lookBehind with
  | none => return
  | some before =>
    if !s.isClosed n then fail .openGroup
    if before ≤ n then fail .groupInLook

def checkName (name : String) : Read Unit := do
  if !Text.isIdentifier name.toList then failBack (.badGroupName name) (name.length + 1)

/-- Opens a group, with its name if it has one. -/
def openGroup (name : Option String) : Read Nat := do
  let s ← get
  let n := s.groups
  match name with
  | none => set { s with groups := n + 1 }
  | some name =>
    match s.names.lookup name with
    | some old => failBack (.groupTwice name n old) (name.length + 1)
    | none => set { s with groups := n + 1, names := (name, n) :: s.names }
  return n

/-- Closes a group and notes its width. -/
def closeGroup (n : Nat) (body : List Node) : Read Unit :=
  modify fun s => { s with widths := (n, widthOf s.widths body) :: s.widths }

/-- The flags inside a group that turns some on and some off. -/
def Flags.combine (f on off : Flags) : Flags :=
  let f := if on.ascii || on.wide then { f with ascii := false, wide := false } else f
  { ignoreCase := (f.ignoreCase || on.ignoreCase) && !off.ignoreCase
    anyLine := (f.anyLine || on.anyLine) && !off.anyLine
    dotAll := (f.dotAll || on.dotAll) && !off.dotAll
    verbose := (f.verbose || on.verbose) && !off.verbose
    ascii := f.ascii || on.ascii
    wide := f.wide || on.wide
    template := f.template || on.template }

/-! ## §4. Escapes -/

/-- Characters that letters stand for after a backslash. -/
def plainEscapes : List (Char × Nat) :=
  [('a', 7), ('b', 8), ('f', 12), ('n', 10), ('r', 13), ('t', 9), ('v', 11), ('\\', 92)]

/-- The classes of letters after a backslash; a capital letter negates. -/
def classOf? (c : Char) : Option (Class × Bool) :=
  match c with
  | 'd' => some (.digit, false)
  | 'D' => some (.digit, true)
  | 's' => some (.space, false)
  | 'S' => some (.space, true)
  | 'w' => some (.word, false)
  | 'W' => some (.word, true)
  | _ => none

def isOctal (c : Char) : Bool := '0' ≤ c && c ≤ '7'

def written (c : Char) (more : List Char) : String := String.ofList ('\\' :: c :: more)

/-- Reads exactly `n` hexadecimal digits after a letter. -/
def hexEscape (c : Char) (n : Nat) : Read Nat := do
  let digits ← takeWhile Decimal.isHexDigit n
  if digits.length < n then failBack (.incompleteEscape (written c digits)) (digits.length + 2)
  return Decimal.digitsValue 16 digits

/-- Reads an escape that stands for a code whatever comes before: by number or name. -/
def codeEscape? (c : Char) : Read (Option Nat) := do
  match c with
  | 'x' => return some (← hexEscape c 2)
  | 'u' => return some (← hexEscape c 4)
  | 'U' =>
    let n ← hexEscape c 8
    if 0x110000 ≤ n then failBack (.badEscape (written c (Text.hexPadded 8 n).toList)) 10
    return some n
  | 'N' =>
    if !(← accept '\x7b') then fail (.missing "\x7b")
    let name ← takeName '\x7d' "character name"
    match Text.named? name with
    | some d => return some d.toNat
    | none => failBack (.unknownCharacter name) (name.length + 4)
  | _ => return none

/-- An escape inside a set. -/
def setEscape (ascii : Bool) (c : Char) : Read Member := do
  if let some n := plainEscapes.lookup c then return .span n n
  if let some (k, negated) := classOf? c then return .named k negated ascii
  if let some n := ← codeEscape? c then return .span n n
  if isOctal c then
    let digits := c :: (← takeWhile isOctal 2)
    let n := Decimal.digitsValue 8 digits
    if 0o377 < n then failBack (.octalTooLarge (String.ofList ('\\' :: digits))) (digits.length + 1)
    return .span n n
  if c.isDigit || c.isAlpha then failBack (.badEscape (written c [])) 2
  return .span c.toNat c.toNat

def literal (f : Flags) (n : Nat) : Node := .set ⟨[.span n n], false, f.ignoreCase⟩

/-- The text of a group again. -/
def reference (f : Flags) (digits : List Char) : Read Node := do
  let n := Decimal.digitsValue 10 digits
  let s ← get
  if n < s.groups then
    if !s.isClosed n then failBack .openGroup (digits.length + 1)
    checkLookBehind n
    return .again n f.ignoreCase
  else failBack (.noSuchGroup n) digits.length

/-- Reads an octal number or a reference to a group, by how many digits there are. -/
def numberEscape (f : Flags) (c : Char) : Read Node := do
  match (← get).next with
  | some [d] =>
    if !d.isDigit then return ← reference f [c]
    advance
    match (← get).next with
    | some [e] =>
      if isOctal c && isOctal d && isOctal e then
        advance
        let n := Decimal.digitsValue 8 [c, d, e]
        if 0o377 < n then failBack (.octalTooLarge (String.ofList ['\\', c, d, e])) 4
        return literal f n
      else reference f [c, d]
    | _ => reference f [c, d]
  | _ => reference f [c]

/-- The spot that a letter stands for after a backslash. -/
def spotOf? (f : Flags) (c : Char) : Option Spot :=
  match c with
  | 'A' => some .textStart
  | 'Z' => some .textEnd
  | 'b' => some (.boundary false f.ascii)
  | 'B' => some (.boundary true f.ascii)
  | _ => none

/-- What an escape outside a set stands for. -/
def escape (f : Flags) (c : Char) : Read Node := do
  if let some s := spotOf? f c then return .spot s
  if let some (k, negated) := classOf? c then
    return .set ⟨[.named k negated f.ascii], false, f.ignoreCase⟩
  if let some n := plainEscapes.lookup c then return literal f n
  if let some n := ← codeEscape? c then return literal f n
  if c == '0' then
    return literal f (Decimal.digitsValue 8 ('0' :: (← takeWhile isOctal 2)))
  if c.isDigit then return ← numberEscape f c
  if c.isAlpha then failBack (.badEscape (written c [])) 2
  return literal f c.toNat

/-! ## §5. Sets -/

/-- A member of a set. -/
def setMember (ascii : Bool) (t : List Char) : Read Member :=
  match t with
  | ['\\', c] => setEscape ascii c
  | c :: _ => return .span c.toNat c.toNat
  | [] => return .span 1 0

/-- Reads the members of a set up to its closing bracket, which cannot come first. -/
def setMembers (ascii : Bool) (start : Nat) : (fuel : Nat) → (before : List Member) →
    Read (List Member)
  | 0, before => return before
  | fuel + 1, before => do
    match ← token with
    | none => throw (.at .openSet start)
    | some t =>
      if t == [']'] && !before.isEmpty then return before
      let m ← setMember ascii t
      if !(← accept '-') then return ← setMembers ascii start fuel (before ++ [m])
      match ← token with
      | none => throw (.at .openSet start)
      | some u =>
        if u == [']'] then return before ++ [m, .span 45 45]
        let n ← setMember ascii u
        match m, n with
        | .span a _, .span b _ =>
          if b < a then bad t u else setMembers ascii start fuel (before ++ [.span a b])
        | _, _ => bad t u
where
  /-- Fails for a range with wrong ends. -/
  bad (t u : List Char) : Read (List Member) :=
    failBack (.badRange (String.ofList t) (String.ofList u)) (t.length + 1 + u.length)

/-- Reads a set after its opening bracket. -/
def readSet (f : Flags) : Read Node := do
  let start := (← tell) - 1
  let negated ← accept '^'
  let members ← setMembers f.ascii start ((← get).length + 1) []
  return .set ⟨members, negated, f.ignoreCase⟩

/-! ## §6. Repetition -/

/-- The most repetitions that can be asked for. -/
def maxRepetitions : Nat := 4294967295

/-- Reads the numbers in braces; none if they are no repetition. -/
def readBounds : Read (Option (Nat × Option Nat)) := do
  let s ← get
  if s.next == some ['\x7d'] then return none
  let low ← takeWhile Char.isDigit s.length
  let high ← if ← accept ',' then takeWhile Char.isDigit s.length else pure low
  if !(← accept '\x7d') then
    set s
    return none
  let least := if low.isEmpty then 0 else Decimal.digitsValue 10 low
  let most := if high.isEmpty then none else some (Decimal.digitsValue 10 high)
  if maxRepetitions ≤ least || maxRepetitions ≤ most.getD 0 then throw .tooLarge
  if (most.map (decide <| · < least)).getD false then throw (.at .leastAboveMost s.tell)
  return some (least, most)

/-- The bounds of a repetition. -/
def boundsOf (c : Char) : Read (Option (Nat × Option Nat)) :=
  match c with
  | '?' => return some (0, some 1)
  | '*' => return some (0, none)
  | '+' => return some (1, none)
  | _ => readBounds

/-- How often a repeated part is tried, by the sign after its bounds. -/
def readMode : Read Mode := do
  if ← accept '?' then return .lazy
  else if ← accept '+' then return .possessive
  else return .greedy

/-- Repeats the last node; nodes are in reverse. -/
def repeatLast (position : Nat) (least : Nat) (most : Option Nat) :
    List Node → Read (List Node)
  | [] => throw (.at .nothingToRepeat position)
  | .spot _ :: _ => throw (.at .nothingToRepeat position)
  | .loop _ _ _ _ :: _ => throw (.at .multipleRepeat position)
  | n :: before => do return .loop (← readMode) least most [n] :: before

/-! ## §7. Flags in a group -/

/-- The flags with one more; none if the letter is no flag. -/
def Flags.add? (f : Flags) (c : Char) : Option Flags :=
  match c with
  | 'i' => some { f with ignoreCase := true }
  | 'm' => some { f with anyLine := true }
  | 's' => some { f with dotAll := true }
  | 'x' => some { f with verbose := true }
  | 'a' => some { f with ascii := true }
  | 'u' => some { f with wide := true }
  | 't' => some { f with template := true }
  | 'L' => some f
  | _ => none

def isFlag (c : Char) : Bool := (Flags.add? {} c).isSome

def noFlag (t : List Char) (missing : String) : Cause :=
  if !t.isEmpty && t.all fun c => Text.isWord c && !Text.isDigitLike c && c != '_' then .unknownFlag
  else .missing missing

/-- Reads flags to turn on, the first of which is `c`, and the character after them. -/
def flagsOn : (fuel : Nat) → Flags → Char → Read (Flags × Char)
  | 0, f, c => return (f, c)
  | fuel + 1, f, c => do
    if c == 'L' then fail .localeFlag
    let f := (f.add? c).getD f
    if f.ascii && f.wide && (c == 'a' || c == 'u') then fail .conflictingFlags
    match ← token with
    | none => fail (.missing "-, : or )")
    | some t =>
      match t with
      | [d] =>
        if d == ')' || d == '-' || d == ':' then return (f, d)
        if !isFlag d then failBack (noFlag t "-, : or )") 1
        flagsOn fuel f d
      | t => failBack (noFlag t "-, : or )") t.length

/-- Reads flags to turn off, the first of which is `c`, up to a colon. -/
def flagsOff : (fuel : Nat) → Flags → Char → Read Flags
  | 0, f, _ => return f
  | fuel + 1, f, c => do
    if c == 'a' || c == 'u' || c == 'L' then fail .typeFlagOff
    let f := (f.add? c).getD f
    match ← token with
    | none => fail (.missing ":")
    | some t =>
      match t with
      | [d] =>
        if d == ':' then return f
        if !isFlag d then failBack (noFlag t ":") 1
        flagsOff fuel f d
      | t => failBack (noFlag t ":") t.length

/-- Whether two sets of flags share one. -/
def Flags.meet (a b : Flags) : Bool :=
  (a.ignoreCase && b.ignoreCase) || (a.anyLine && b.anyLine) || (a.dotAll && b.dotAll) ||
    (a.verbose && b.verbose)

def Flags.join (a b : Flags) : Flags := a.combine b {}

/-- Reads flags after a question mark: none if they hold for the whole pattern. -/
def readFlags (c : Char) : Read (Option (Flags × Flags)) := do
  let fuel := (← get).length + 1
  let (on, after) ← if c == '-' then pure (({} : Flags), '-') else flagsOn fuel {} c
  if after == ')' then
    modify fun s => { s with flags := { s.flags.join on with
      ascii := s.flags.ascii || on.ascii, wide := s.flags.wide || on.wide } }
    return none
  if on.template then failBack .globalFlagOn 1
  if after != '-' then return some (on, {})
  match ← token with
  | none => fail (.missing "flag")
  | some t =>
    match t with
    | [d] =>
      if !isFlag d then failBack (noFlag t "flag") 1
      let off ← flagsOff fuel {} d
      if off.template then failBack .globalFlagOff 1
      if on.meet off then failBack .flagOnAndOff 1
      return some (on, off)
    | t => failBack (noFlag t "flag") t.length

/-! ## §8. Sequences and groups -/

/-- What an opening parenthesis starts. -/
inductive Opening where
  | capture (name : Option String)
  /-- A group without number, with flags to turn on and off. -/
  | plain (on off : Flags)
  | atomic
  | look (ahead negated : Bool)
  | condition (number : Nat)
  | done (n : Node)
  | nothing
  | flags

/-- Skips a comment. -/
def skipComment (start : Nat) : (fuel : Nat) → Read Unit
  | 0 => return
  | fuel + 1 => do
    match ← token with
    | none => throw (.at .openComment start)
    | some t => if t == [')'] then return else skipComment start fuel

/-- The number of a group that exists under a name. -/
def groupNamed (name : String) : Read Nat := do
  match (← get).names.lookup name with
  | some n => return n
  | none => failBack (.unknownGroup name) (name.length + 1)

/-- Reads what follows `?P`. -/
def namedOpening (f : Flags) : Read Opening := do
  if ← accept '<' then
    let name ← takeName '>' "group name"
    checkName name
    return .capture (some name)
  if ← accept '=' then
    let name ← takeName ')' "group name"
    checkName name
    let n ← groupNamed name
    if !(← get).isClosed n then failBack .openGroup (name.length + 1)
    checkLookBehind n
    return .done (.again n f.ignoreCase)
  match ← token with
  | none => fail .unexpectedEnd
  | some t => failBack (.unknownExtension ("P" ++ String.ofList t)) (t.length + 2)

/-- Reads the group that a condition asks for. -/
def conditionOpening : Read Opening := do
  let name ← takeName ')' "group name"
  let n ← if Text.isIdentifier name.toList then groupNamed name
    else match Decimal.readWhole name with
      | .ok n =>
        if n < 0 then failBack (.badGroupName name) (name.length + 1)
        else if n == 0 then failBack .badGroupNumber (name.length + 1)
        else if 1073741823 ≤ n then failBack (.noSuchGroup n.toNat) (name.length + 1)
        else do
          let s ← get
          if (s.asked.lookup n.toNat).isNone then
            set { s with asked := s.asked ++ [(n.toNat, s.tell - name.length - 1)] }
          pure n.toNat
      | .error _ => failBack (.badGroupName name) (name.length + 1)
  checkLookBehind n
  return .condition n

/-- Reads what follows an opening parenthesis, up to the content of the group. -/
def opening (f : Flags) (start : Nat) : Read Opening := do
  if !(← accept '?') then return .capture none
  match ← token with
  | none => fail .unexpectedEnd
  | some t =>
    match t with
    | ['P'] => namedOpening f
    | [':'] => return .plain {} {}
    | ['#'] => do
      skipComment start ((← get).length + 1)
      return .nothing
    | ['='] => return .look true false
    | ['!'] => return .look true true
    | ['<'] =>
      match ← token with
      | none => fail .unexpectedEnd
      | some ['='] => return .look false false
      | some ['!'] => return .look false true
      | some u => failBack (.unknownExtension ("<" ++ String.ofList u)) (u.length + 2)
    | ['('] => conditionOpening
    | ['>'] => return .atomic
    | [c] =>
      if isFlag c || c == '-' then
        match ← readFlags c with
        | none => return .flags
        | some (on, off) => return .plain on off
      else failBack (.unknownExtension (String.ofList t)) (t.length + 1)
    | t => failBack (.unknownExtension (String.ofList t)) (t.length + 1)

def endsSequence (t : List Char) : Bool := t == ['|'] || t == [')']

/-- Whether a character stands for itself. -/
def isPlainToken (c : Char) : Bool := !(".\\[\x7b()*+?^$|".toList.contains c)

/-- Blanks that a verbose pattern may hold. -/
def isFiller (c : Char) : Bool := [' ', '\t', '\n', '\r', '\x0b', '\x0c'].contains c

/-- Passes over a comment to the end of the line. -/
def skipLine : (fuel : Nat) → Read Unit
  | 0 => return
  | fuel + 1 => do
    match ← token with
    | none => return
    | some t => if t == ['\n'] then return else skipLine fuel

/-- Takes the parenthesis that closes a group. -/
def closing (start : Nat) : Read Unit := do
  if !(← accept ')') then throw (.at .openPart start)

mutual
/-- Reads options up to the end of a group or pattern.  `top` tells whether this is the whole
    pattern, whose flags may change after the first option. -/
def readOptions : (fuel : Nat) → (top : Bool) → Flags → (first : Bool) → Read (List (List Node))
  | 0, _, _, _ => return []
  | fuel + 1, top, f, first => do
    let o ← readSequence fuel (top && first) f []
    if ← accept '|' then
      let s ← get
      return o :: (← readOptions fuel top (if top then s.flags else f) false)
    else return [o]

/-- Reads a sequence of nodes; `before` are those read already, in reverse. -/
def readSequence : (fuel : Nat) → (first : Bool) → Flags → (before : List Node) → Read (List Node)
  | 0, _, _, before => return before.reverse
  | fuel + 1, first, f, before => do
    match (← get).next with
    | none => return before.reverse
    | some t =>
      if endsSequence t then return before.reverse
      advance
      let one (n : Node) : Read (List Node) := readSequence fuel first f (n :: before)
      -- a token of two characters starts with a backslash
      match t with
      | [_, c] => one (← escape f c)
      | [c] =>
        if f.verbose && isFiller c then
          readSequence fuel first f before
        else if f.verbose && c == '#' then
          skipLine ((← get).length + 1)
          readSequence fuel first f before
        else if isPlainToken c then one (literal f c.toNat)
        else match c with
          | '[' => one (← readSet f)
          | '.' => one (.any f.dotAll)
          | '^' => one (.spot (.start f.anyLine))
          | '$' => one (.spot (.finish f.anyLine))
          | '(' => do
            let start := (← tell) - 1
            match ← opening f start with
            | .nothing => readSequence fuel first f before
            | .done n => one n
            | .flags =>
              if !first || !before.isEmpty then throw (.at .lateFlags start)
              readSequence fuel first (← get).flags before
            | o => one (← readGroup fuel f start o)
          | c => do
            let here ← tell
            match ← boundsOf c with
            | none => one (literal f c.toNat)
            | some (least, most) =>
              readSequence fuel first f (← repeatLast (here - 1) least most before)
      | _ => readSequence fuel first f before

/-- Reads a group after its opening. -/
def readGroup : (fuel : Nat) → Flags → (start : Nat) → Opening → Read Node
  | 0, _, _, _ => return .group none []
  | fuel + 1, f, start, o => do
    match o with
    | .capture name =>
      let n ← openGroup name
      let body ← readBody fuel f
      closing start
      closeGroup n body
      return .group (some n) body
    | .plain on off =>
      let body ← readBody fuel (f.combine on off)
      closing start
      return .group none body
    | .atomic =>
      let body ← readBody fuel f
      closing start
      return .atomic body
    | .look ahead negated =>
      let outer := (← get).lookBehind
      if !ahead && outer.isNone then modify fun s => { s with lookBehind := some s.groups }
      let body ← readBody fuel f
      if !ahead && outer.isNone then modify fun s => { s with lookBehind := none }
      closing start
      let w := widthOf (← get).widths body
      return .look ahead negated (if ahead then 0 else if w.least ==
        w.most then w.least else unbounded) body
    | .condition n =>
      let yes ← readSequence fuel false f []
      let no ← if ← accept '|' then do
          let no ← readSequence fuel false f []
          if (← get).next == some ['|'] then fail .tooManyOptions
          pure no
        else pure []
      closing start
      return .given n yes no
    | .done n => return n
    | .nothing => return .group none []
    | .flags => return .group none []

/-- Reads the options of a group as one sequence. -/
def readBody : (fuel : Nat) → Flags → Read (List Node)
  | 0, _ => return []
  | fuel + 1, f => do
    match ← readOptions fuel false f true with
    | [o] => return o
    | os => return [.choice os]
end

/-! ## §9. Whole patterns -/

mutual
/-- Whether every look-behind has a fixed width. -/
def Node.isBounded : Node → Bool
  | .look ahead _ width body => (ahead || width < unbounded) && areBounded body
  | .group _ body => areBounded body
  | .choice options => areBoundedOptions options
  | .loop _ _ _ body => areBounded body
  | .atomic body => areBounded body
  | .given _ yes no => areBounded yes && areBounded no
  | _ => true

/-- Whether every look-behind of a sequence has a fixed width. -/
def areBounded : List Node → Bool
  | [] => true
  | n :: ns => n.isBounded && areBounded ns

/-- Whether every look-behind of some options has a fixed width. -/
def areBoundedOptions : List (List Node) → Bool
  | [] => true
  | o :: os => areBounded o && areBoundedOptions os
end

/-- Reads a whole pattern. -/
def readAll : Read (List Node) := do
  advance
  let os ← readOptions (4 * (← get).length + 8) true {} true
  let s ← get
  if s.next.isSome then fail .unbalanced
  match s.asked.find? fun (n, _) => s.groups ≤ n with
  | some (n, position) => throw (.at (.noSuchGroup n) position)
  | none => pure ()
  let body := match os with
    | [o] => o
    | os => [.choice os]
  if !areBounded body then throw .noWidth
  return body

/-- Reads a pattern. -/
def read (pattern : String) : Except Problem (List Node) :=
  (readAll { rest := pattern.toList, length := pattern.length }).map (·.1)

/-- Characters that a pattern has to escape. -/
def isSpecial (c : Char) : Bool := "()[]\x7b\x7d?*+-|^$\\.&~# \t\n\r\x0b\x0c".toList.contains c

/-- A pattern that stands for a text itself. -/
def quote (text : String) : String :=
  String.ofList (text.toList.flatMap fun c => if isSpecial c then ['\\', c] else [c])

end AddonAudit.Pattern
