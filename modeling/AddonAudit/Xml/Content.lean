/-
  AddonAudit.Xml.Content — the content of elements.

  The elements that are open stand on a stack, each with the nodes that it holds so far.
-/
import AddonAudit.Xml.Tag

namespace AddonAudit.Xml

/-! ## §1. Comments, instructions and text -/

/-- Reads a comment after its opening; it may hold no two hyphens. -/
def comment : Reading Node := do
  let text ← takeUntil "--"
  discard (pure text)
  expect ">"
  return .comment

def knownTargets : List String := ["xml-stylesheet", "xml-model"]

def checkTarget (target : String) : Reading Unit := do
  if (Text.take target 3).toLower == "xml" then
    require (target != "xml")
    if target.length == 3 then raise
    else if !knownTargets.contains target then warn
  if target.toList.contains ':' then raise

def instruction : Reading Node := do
  let target ← longName
  checkTarget target
  if ← accept "?>" then return .instruction
  requiredSpaces
  discard (takeUntil "?>")
  return .instruction

/-- Characters of text that need no look ahead. -/
def isPlain (c : Char) : Bool := isChar c && c != '<' && c != '&' && c != ']'

/-- Adds text to nodes in reverse; neighbouring texts become one. -/
def addText (s : String) : List Node → List Node
  | .text t :: rest => .text (t ++ s) :: rest
  | nodes => if s == "" then nodes else .text s :: nodes

/-! ## §2. Open elements -/

/-- An open element and its nodes so far, in reverse. -/
structure Open where
  tag : StartTag
  nodes : List Node := []

/-- The element, which has no place of its own yet. -/
def Open.close (o : Open) : Node :=
  .element 0 o.tag.line o.tag.name o.tag.attributes o.nodes.reverse

/-- Nodes outside and inside the open elements: innermost element first. -/
structure Stack where
  inner : List Open := []
  /-- The nodes outside of all of them, in reverse. -/
  outer : List Node := []

/-- Changes the innermost list of nodes. -/
def Stack.change (f : List Node → List Node) (s : Stack) : Stack :=
  match s.inner with
  | o :: rest => { s with inner := { o with nodes := f o.nodes } :: rest }
  | [] => { s with outer := f s.outer }

def Stack.add (n : Node) (s : Stack) : Stack := s.change (n :: ·)

def Stack.addText (t : String) (s : Stack) : Stack := s.change (Xml.addText t)

/-- How deep elements may be nested. -/
def maxDepth : Nat := 256

def Stack.scope (s : Stack) (base : Scope) : Scope :=
  match s.inner with
  | o :: _ => o.tag.scope
  | [] => base

/-- Reads an element's start tag after its opening sign. -/
def openElement (base : Scope) (s : Stack) : Reading Stack := do
  require (s.inner.length ≤ maxDepth)
  let tag ← startTag (s.scope base)
  if tag.isClosed then return s.add (Open.close { tag })
  return { s with inner := { tag } :: s.inner }

/-- Reads an end tag after its opening; it has to name the innermost element. -/
def closeElement (s : Stack) : Reading Stack := do
  match s.inner with
  | [] => refuse
  | o :: rest =>
    expect o.tag.written
    optionalSpaces
    expect ">"
    return ({ s with inner := rest } : Stack).add o.close

/-! ## §3. Content -/

/-- What comes next in content. -/
inductive Ahead where
  | nothing
  | endTag
  | comment
  | verbatim
  | instruction
  | startTag
  | reference
  | text
  deriving DecidableEq

/-- Decides what comes next. -/
def ahead (cs : List Char) : Ahead :=
  match cs with
  | [] => .nothing
  | '<' :: '/' :: _ => .endTag
  | '<' :: '!' :: '-' :: '-' :: _ => .comment
  | '<' :: '!' :: _ => .verbatim
  | '<' :: '?' :: _ => .instruction
  | '<' :: _ => .startTag
  | '&' :: _ => .reference
  | _ => .text

/-- Reads text up to the next sign that may end it. -/
def plainText : Reading String := do
  if ← startsWith "]]>" then refuse
  let run ← if ← accept "]" then pure [']'] else takeRun isPlain
  require !run.isEmpty
  return String.ofList (unifyLines run)

/-- Reads content until the elements that were open at its start are closed, or to the end of the
    text where there were none.  Entities are read by `expand`. -/
def content (expand : Scope → String → Reading (List Node)) (base : Scope) :
    (fuel : Nat) → (wasOpen : Bool) → Stack → Reading (List Node)
  | 0, _, _ => refuse
  | fuel + 1, wasOpen, s => do
    if wasOpen && s.inner.isEmpty then return s.outer.reverse
    match ahead (← remaining) with
    | .nothing =>
      require (!wasOpen && s.inner.isEmpty)
      return s.outer.reverse
    | .endTag =>
      skip 2
      content expand base fuel wasOpen (← closeElement s)
    | .comment =>
      skip 4
      content expand base fuel wasOpen (s.add (← comment))
    | .verbatim =>
      expect "<![CDATA["
      let text ← takeUntil "]]>"
      content expand base fuel wasOpen (s.addText (String.ofList (unifyLines text)))
    | .instruction =>
      skip 2
      content expand base fuel wasOpen (s.add (← instruction))
    | .startTag =>
      skip 1
      content expand base fuel wasOpen (← openElement base s)
    | .reference =>
      skip 1
      match ← reference with
      | .char c => content expand base fuel wasOpen (s.addText c.toString)
      | .entity name =>
        let nodes ← expand (s.scope base) name
        content expand base fuel wasOpen (s.change (nodes.reverse ++ ·))
    | .text =>
      let text ← plainText
      content expand base fuel wasOpen (s.addText text)

def entityNodes : (depth : Nat) → Scope → String → Reading (List Node)
  | 0, _, _ => refuse
  | depth + 1, scope, name => do
    match ← entityText name with
    | none => return []
    | some text => within text (content (entityNodes depth) scope (text.length + 1) false {})

/-- Reads the root element after its opening sign. -/
def rootElement : Reading Node := do
  let s ← openElement [] {}
  let nodes ← content (entityNodes maxEntityDepth) [] ((← remaining).length + 2) true s
  match nodes with
  | [n] => return n
  | _ => refuse

end AddonAudit.Xml
