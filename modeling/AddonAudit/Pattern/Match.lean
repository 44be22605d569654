/-
  AddonAudit.Pattern.Match — where a pattern matches.

  Options are tried in order and the first way through the whole pattern counts.  What is still to
  be done is a list of tasks, so that a part can be tried together with all that comes after it.
-/
import AddonAudit.Pattern.Tree

namespace AddonAudit.Pattern

/-! ## §1. Cursors -/

/-- A place in a text: what stands before it, the last character first, what follows, and the texts
    of groups. -/
structure Cursor where
  before : List Char
  rest : List Char
  groups : List (Nat × List Char) := []

/-- The text of a group. -/
def Cursor.group? (c : Cursor) (n : Nat) : Option (List Char) := c.groups.lookup n

/-- Moves back by a number of characters. -/
def Cursor.back? : (n : Nat) → Cursor → Option Cursor
  | 0, c => some c
  | n + 1, c =>
    match c.before with
    | d :: before => Cursor.back? n { c with before, rest := d :: c.rest }
    | [] => none

def Cursor.take? (ignoreCase : Bool) : List Char → Cursor → Option Cursor
  | [], c => some c
  | d :: ds, c =>
    match c.rest with
    | e :: rest =>
      if d == e || (ignoreCase && (caseVariants e).contains d) then
        Cursor.take? ignoreCase ds { c with before := e :: c.before, rest }
      else none
    | [] => none

/-- Whether the character at one side of a cursor belongs to a word. -/
def wordAt (ascii : Bool) (side : List Char) : Bool :=
  (side.head?.map (Class.word.holds ascii)).getD false

/-- Whether a spot is where the cursor is. -/
def Cursor.isAt (c : Cursor) : Spot → Bool
  | .start anyLine => c.before.isEmpty || (anyLine && c.before.head? == some '\n')
  | .finish anyLine =>
    c.rest.isEmpty || c.rest == ['\n'] || (anyLine && c.rest.head? == some '\n')
  | .textStart => c.before.isEmpty
  | .textEnd => c.rest.isEmpty
  | .boundary negated ascii =>
    (wordAt ascii c.before != wordAt ascii c.rest) != negated

/-! ## §2. Tasks -/

/-- What is still to be done. -/
inductive Task where
  | node (n : Node)
  /-- Remember the text from where so many characters were left. -/
  | close (number left : Nat)
  /-- Go on with a loop that was run `count` times; `left` characters were left before the last
      time. -/
  | again (mode : Mode) (least : Nat) (most : Option Nat) (body : List Node) (count : Nat)
    (left : Option Nat)

def tasks (ns : List Node) (rest : List Task) : List Task := ns.map .node ++ rest

/-! ## §3. Running tasks -/

/-- Remembers the text of a group. -/
def Cursor.remember (c : Cursor) (n : Nat) (text : List Char) : Cursor :=
  { c with groups := (n, text) :: c.groups.filter (·.1 != n) }

/-- Takes one character that a test allows. -/
def Cursor.one? (c : Cursor) (p : Char → Bool) : Option Cursor :=
  match c.rest with
  | d :: rest => if p d then some { c with before := d :: c.before, rest } else none
  | [] => none

/-- Runs tasks; `fuel` bounds the steps on one way through. -/
def run : (fuel : Nat) → List Task → Cursor → Option Cursor
  | 0, _, _ => none
  | _ + 1, [], c => some c
  | fuel + 1, t :: ts, c =>
    match t with
    | .close n left => run fuel ts (c.remember n ((c.before.take (left - c.rest.length)).reverse))
    | .again mode least most body count left =>
      let once (_ : Unit) : Option Cursor :=
        run fuel (tasks body (.again mode least most body (count + 1) (some c.rest.length) :: ts)) c
      if count < least then once ()
      else
        let more := (most.map (decide <| count < ·)).getD true && left != some c.rest.length
        match mode with
        | .lazy =>
          match run fuel ts c with
          | some d => some d
          | none => if more then once () else none
        | _ =>
          match if more then once () else none with
          | some d => some d
          | none => run fuel ts c
    | .node n =>
      match n with
      | .set s => (c.one? s.holds).bind (run fuel ts)
      | .any all => (c.one? fun d => all || d != '\n').bind (run fuel ts)
      | .spot s => if c.isAt s then run fuel ts c else none
      | .group none body => run fuel (tasks body ts) c
      | .group (some k) body => run fuel (tasks body (.close k c.rest.length :: ts)) c
      | .choice options => options.findSome? fun o => run fuel (tasks o ts) c
      | .loop .possessive least most body =>
        (run fuel [.again .greedy least most body 0 none] c).bind (run fuel ts)
      | .loop mode least most body => run fuel (.again mode least most body 0 none :: ts) c
      | .atomic body => (run fuel (tasks body []) c).bind (run fuel ts)
      | .look ahead negated width body =>
        let found := (if ahead then some c else c.back? width).bind (run fuel (tasks body []))
        match found with
        | some d => if negated then none else run fuel ts { c with groups := d.groups }
        | none => if negated then run fuel ts c else none
      | .again k ignoreCase =>
        (c.group? k).bind fun text => (c.take? ignoreCase text).bind (run fuel ts)
      | .given k yes no => run fuel (tasks (if (c.group? k).isSome then yes else no) ts) c

/-! ## §4. Matching from the start -/

/-- As many steps as a match can take. -/
def stepsFor (p : List Node) (text : List Char) : Nat := (weightOf p + 2) * (text.length + 2)

/-- Whether a pattern matches at the start of a text. -/
def matchesAt (p : List Node) (text : String) : Bool :=
  (run (stepsFor p text.toList) (tasks p []) ⟨[], text.toList, []⟩).isSome

end AddonAudit.Pattern
