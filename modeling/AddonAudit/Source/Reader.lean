/-
  AddonAudit.Source.Reader — reading source text by the grammar.

  The reader tries the alternatives of a rule in order.  It remembers results of some rules for each
  place, and grows the result of a left-recursive rule until it gets no longer.  How far it has read
  is part of the state, because a wrong text is blamed on the last token read.  A text that the
  rules refuse is read once more with the alternatives for wrong texts, which may find a better
  line.
-/
import AddonAudit.Source.Rules
import Std.Data.TreeMap

namespace AddonAudit.Source

/-! ## §1. State and outcomes -/

/-- How far the text has been read, and results remembered by rule and place. -/
structure ReadState where
  /-- Number of tokens looked at so far. -/
  seen : Nat
  memo : Std.TreeMap Nat (Option (Node × Nat))

/-- The outcome of reading at a place. -/
inductive Outcome where
  | ok (n : Node) (pos : Nat)
  | no
  /-- No match, and no other alternative is to be tried. -/
  | stop
  /-- The text is wrong at a line; `cut` tells a text that could not even be cut into tokens. -/
  | wrong (line : Nat) (cut : Bool)

/-- The key under which a rule's result at a place is remembered. -/
def memoKey (x : Rule) (pos : Nat) : Nat := pos * 512 + x.ctorIdx

def tokenAt (ts : Array Token) (pos : Nat) : Token := ts.getD pos default

def ReadState.look (st : ReadState) (pos : Nat) : ReadState :=
  if st.seen ≤ pos then { st with seen := pos + 1 } else st

/-- Matches the token of a place against a test. -/
def expect (ts : Array Token) (st : ReadState) (pos : Nat) (test : Token → Bool) :
    Outcome × ReadState :=
  let st := st.look pos
  let t := tokenAt ts pos
  match t.kind with
  | .fault _ => (.wrong t.line true, st)
  | _ => if test t then (.ok (.token t) (pos + 1), st) else (.no, st)

/-- Whether a token is a given keyword or operator. -/
def Token.isWord (t : Token) (s : String) : Bool :=
  (t.kind == .keyword || t.kind == .op) && t.text == s

/-- The line of the last token that was looked at. -/
def lastSeenLine (ts : Array Token) (st : ReadState) : Nat := (tokenAt ts (st.seen - 1)).line

/-- A wrong text is blamed on a fault further on, when the rest of it cannot be cut into tokens, or
    on a bracket that is never closed. -/
def blameRest (ts : Array Token) (seen line : Nat) : Nat :=
  if ts.size ≤ seen then line
  else
    let last := tokenAt ts (ts.size - 1)
    match last.kind with
    | .fault .malformed => last.line
    | .fault .broken =>
      match last.openLine with
      | some l => if l < (tokenAt ts (seen - 1)).line then l else line
      | none => line
    | _ => line

/-! ## §2. The reader -/

mutual

/-- Reads one part at a place. -/
def readPeg (ts : Array Token) (onWrong : Bool) :
    (fuel : Nat) → Peg → Nat → ReadState → Outcome × ReadState
  | 0, _, _, st => (.no, st)
  | fuel + 1, p, pos, st =>
    match p with
    | .kind k => expect ts st pos (·.kind == k)
    | .word s => expect ts st pos (·.isWord s)
    | .soft s => expect ts st pos fun t => t.kind == .name && t.text == s
    | .anySoft => expect ts st pos fun t => t.kind == .name && beginsSoftWord t.text
    | .rule x => readRule ts onWrong fuel x pos st
    | .cut => (.ok .none pos, st)
    | .opt q =>
      match readPeg ts onWrong fuel q pos st with
      | (.no, st) => (.ok .none pos, st)
      | (.stop, st) => (.ok .none pos, st)
      | other => other
    | .star q => readMany ts onWrong fuel q pos st []
    | .plus q =>
      match readPeg ts onWrong fuel q pos st with
      | (.ok n next, st) => readMany ts onWrong fuel q next st [n]
      | (.stop, st) => (.no, st)
      | other => other
    | .sepBy sep q =>
      match readPeg ts onWrong fuel q pos st with
      | (.ok n next, st) => readMany ts onWrong fuel (.seq [sep, q]) next st [n]
      | (.stop, st) => (.no, st)
      | other => other
    | .seq qs => readParts ts onWrong fuel qs pos st [] false
    | .choice qs => readChoice ts onWrong fuel qs pos st
    | .ahead q =>
      match readPeg ts onWrong fuel q pos st with
      | (.ok _ _, st) => (.ok .none pos, st)
      | (.stop, st) => (.no, st)
      | other => other
    | .notAhead q =>
      match readPeg ts onWrong fuel q pos st with
      | (.ok _ _, st) => (.no, st)
      | (.wrong l c, st) => (.wrong l c, st)
      | (_, st) => (.ok .none pos, st)
    | .forced s =>
      match expect ts st pos (·.isWord s) with
      | (.no, st) => (.wrong (tokenAt ts pos).line false, st)
      | other => other
termination_by structural fuel => fuel

/-- Reads parts one after the other; after a cut a failure is final. -/
def readParts (ts : Array Token) (onWrong : Bool) :
    (fuel : Nat) → List Peg → Nat → ReadState → List Node → Bool → Outcome × ReadState
  | 0, _, _, st, _, _ => (.no, st)
  | _, [], pos, st, acc, _ => (.ok (.many acc.reverse) pos, st)
  | fuel + 1, .cut :: ps, pos, st, acc, _ => readParts ts onWrong fuel ps pos st (.none :: acc) true
  | fuel + 1, p :: ps, pos, st, acc, final =>
    match readPeg ts onWrong fuel p pos st with
    | (.ok n next, st) => readParts ts onWrong fuel ps next st (n :: acc) final
    | (.wrong l c, st) => (.wrong l c, st)
    | (_, st) => (if final then .stop else .no, st)
termination_by structural fuel => fuel

/-- Reads the first of several parts that matches. -/
def readChoice (ts : Array Token) (onWrong : Bool) :
    (fuel : Nat) → List Peg → Nat → ReadState → Outcome × ReadState
  | 0, _, _, st => (.no, st)
  | _, [], _, st => (.no, st)
  | fuel + 1, q :: qs, pos, st =>
    match readPeg ts onWrong fuel q pos st with
    | (.no, st) => readChoice ts onWrong fuel qs pos st
    | other => other
termination_by structural fuel => fuel

/-- Reads a part as often as it matches. -/
def readMany (ts : Array Token) (onWrong : Bool) :
    (fuel : Nat) → Peg → Nat → ReadState → List Node → Outcome × ReadState
  | 0, _, pos, st, acc => (.ok (.many acc.reverse) pos, st)
  | fuel + 1, p, pos, st, acc =>
    match readPeg ts onWrong fuel p pos st with
    | (.ok n next, st) =>
      if next ≤ pos then (.ok (.many acc.reverse) pos, st)
      else readMany ts onWrong fuel p next st (n :: acc)
    | (.wrong l c, st) => (.wrong l c, st)
    | (_, st) => (.ok (.many acc.reverse) pos, st)
termination_by structural fuel => fuel

/-- Tries the alternatives of a rule. -/
def readAlts (ts : Array Token) (onWrong : Bool) :
    (fuel : Nat) → List Alt → Nat → ReadState → Outcome × ReadState
  | 0, _, _, st => (.no, st)
  | _, [], _, st => (.no, st)
  | fuel + 1, a :: as, pos, st =>
    if a.onWrong && !onWrong then readAlts ts onWrong fuel as pos st
    else
      match readParts ts onWrong fuel a.parts pos st [] false with
      | (.no, st) => readAlts ts onWrong fuel as pos st
      | (.stop, st) => (.no, st)
      | (.wrong l c, st) => (.wrong l c, st)
      | (.ok n next, st) =>
        let place : Place := ⟨(tokenAt ts pos).line, (tokenAt ts (next - 1)).openLine.isSome⟩
        let parts := match n with
          | .many ns => ns
          | n => [n]
        match a.act place parts with
        | .node n => (.ok n next, st)
        | .refuse => (.no, st)
        | .blame line => (.wrong line false, st)
        | .blameLast => (.wrong (lastSeenLine ts st) false, st)
termination_by structural fuel => fuel

/-- Reads a rule, with its memory or its growth. -/
def readRule (ts : Array Token) (onWrong : Bool) :
    (fuel : Nat) → Rule → Nat → ReadState → Outcome × ReadState
  | 0, _, _, st => (.no, st)
  | fuel + 1, x, pos, st =>
    let st := st.look pos
    match (tokenAt ts pos).kind with
    | .fault _ => (.wrong (tokenAt ts pos).line true, st)
    | _ =>
      if x.leftRecursive then
        match st.memo[memoKey x pos]? with
        | some (some (n, next)) => (.ok n next, st)
        | some none => (.no, st)
        | none => growRule ts onWrong fuel x pos none pos st
      else if x.memo then
        match st.memo[memoKey x pos]? with
        | some (some (n, next)) => (.ok n next, st)
        | some none => (.no, st)
        | none =>
          match readBody ts onWrong fuel x pos st with
          | (.ok n next, st) =>
            (.ok n next, { st with memo := st.memo.insert (memoKey x pos) (some (n, next)) })
          | (.wrong l c, st) => (.wrong l c, st)
          | (other, st) => (other, { st with memo := st.memo.insert (memoKey x pos) none })
      else readBody ts onWrong fuel x pos st
termination_by structural fuel => fuel

/-- Reads a left-recursive rule: its last result stands for the inner call while it still grows. -/
def growRule (ts : Array Token) (onWrong : Bool) :
    (fuel : Nat) → Rule → Nat → Option Node → Nat → ReadState → Outcome × ReadState
  | 0, _, _, _, _, st => (.no, st)
  | fuel + 1, x, pos, best, reached, st =>
    let st := { st with memo := st.memo.insert (memoKey x pos) (best.map (·, reached)) }
    match readAlts ts onWrong fuel x.alts pos st with
    | (.ok n next, st) =>
      if next ≤ reached then finish best reached st
      else growRule ts onWrong fuel x pos (some n) next st
    | (.wrong l c, st) => (.wrong l c, st)
    | (_, st) => finish best reached st
termination_by structural fuel => fuel
where
  finish (best : Option Node) (reached : Nat) (st : ReadState) : Outcome × ReadState :=
    match best with
    | some n => (.ok n reached, st)
    | none => (.no, st)

/-- Reads the alternatives of a rule; adjacent strings are evaluated as soon as they are read. -/
def readBody (ts : Array Token) (onWrong : Bool) :
    (fuel : Nat) → Rule → Nat → ReadState → Outcome × ReadState
  | 0, _, _, st => (.no, st)
  | fuel + 1, x, pos, st =>
    match readAlts ts (onWrong && !x.quiet) fuel x.alts pos st with
    | (.ok n next, st) =>
      if x.isStrings then
        let (events, e) := readStrings (tokenAt ts pos).line ((ts.extract pos next).toList)
        match checkStrings fuel (lastSeenLine ts st) events with
        | some line => (.wrong line false, st)
        | none => (.ok (.expr e) next, st)
      else (.ok n next, st)
    | other => other
termination_by structural fuel => fuel

/-- The line to blame for what strings hold, if anything is wrong with it. -/
def checkStrings : (fuel : Nat) → Nat → List StringEvent → Option Nat
  | 0, _, _ => none
  | _, _, [] => none
  | _, _, .faultAt line :: _ => some line
  | _, last, .fault :: _ => some last
  | fuel + 1, last, .expression text line :: events =>
    match readText fuel .formatExpr (tokensFrom line ('(' :: text ++ [')', '\n'])) with
    | .error l => some l
    | .ok _ => checkStrings fuel last events
termination_by structural fuel => fuel

/-- Reads a whole text by a rule; a text that is refused is read again for the line to blame. -/
def readText : (fuel : Nat) → Rule → Array Token → Except Nat Node
  | 0, _, ts => .error (tokenAt ts 0).line
  | fuel + 1, start, ts =>
    match readRule ts false fuel start 0 ⟨0, ∅⟩ with
    | (.ok n _, _) => .ok n
    | (.wrong line cut, st) => .error (if cut then line else blameRest ts st.seen line)
    | (_, st) =>
      let last := tokenAt ts (st.seen - 1)
      match readRule ts true fuel start 0 ⟨st.seen, ∅⟩ with
      | (.wrong line cut, st) => .error (if cut then line else blameRest ts st.seen line)
      | (_, st) =>
        if last.kind == .indent || last.kind == .dedent then .error (lastSeenLine ts st)
        else .error (blameRest ts st.seen last.line)
termination_by structural fuel => fuel

end

/-! ## §3. Whole texts -/

/-- Bounds the depth of reading: far more than brackets and blocks can be nested. -/
def readFuel (ts : Array Token) : Nat := 1000000 + 100 * ts.size

/-- Why a source text cannot be read. -/
inductive SourceFault where
  | wrongAt (line : Nat)
  | nullCharacter
  deriving DecidableEq

def SourceFault.line? : SourceFault → Option Nat
  | .wrongAt line => some line
  | .nullCharacter => none

def readModule (text : String) : Except SourceFault (List Stmt) :=
  let cs := text.toList
  if cs.contains '\x00' then .error .nullCharacter
  else
    let ts := tokensFrom 1 (fileText cs)
    match readText (readFuel ts) .file ts with
    | .ok n => .ok n.body
    | .error line => .error (.wrongAt line)

def readExpression (text : String) : Except SourceFault Expr :=
  let cs := text.toList
  if cs.contains '\x00' then .error .nullCharacter
  else
    let ts := tokensFrom 1 (Text.unifyNewlines cs)
    match readText (readFuel ts) .literal ts with
    | .ok n => .ok n.toExpr
    | .error line => .error (.wrongAt line)

end AddonAudit.Source
