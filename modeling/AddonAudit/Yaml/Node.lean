/-
  AddonAudit.Yaml.Node — the tree that tokens stand for.

  Aliases are replaced by what they refer to, and tags are written out in full.
-/
import AddonAudit.Yaml.Token

namespace AddonAudit.Yaml

/-! ## §1. Nodes -/

/-- How the kind of a scalar is found. -/
inductive Kind where
  | byForm
  | text
  | tagged (tag : String)
  deriving DecidableEq

/-- The tree of a document; collections may carry a tag. -/
inductive Node where
  | scalar (kind : Kind) (text : String)
  | sequence (tag : Option String) (items : List Node)
  | mapping (tag : Option String) (entries : List (Node × Node))

instance : Inhabited Node := ⟨.scalar .byForm ""⟩

def Node.nothing : Node := .scalar .byForm ""

/-! ## §2. The state of building -/

/-- The state of building. -/
structure Builder where
  tokens : List Token
  handles : List (String × String)
  anchors : List (String × Node) := []
  /-- Anchors whose nodes are not finished. -/
  unfinished : List String := []

abbrev Building := StateT Builder (Except Problem)

/-- The tokens fit no tree. -/
def unfit {α : Type} : Building α := throw .malformed

def ahead : Building Token := do return (← get).tokens.headD .streamEnd

def advance : Building Unit := modify fun s => { s with tokens := s.tokens.drop 1 }

/-- Moves past a token if it comes next. -/
def take (t : Token) : Building Bool := do
  if (← ahead) == t then
    advance
    return true
  else return false

/-- Moves past a token that has to come. -/
def expect (t : Token) : Building Unit := do if !(← take t) then unfit

def atAny (ts : List Token) : Building Bool := do return ts.contains (← ahead)

def fullTag (handle : Option String) (address : String) : Building String := do
  match handle with
  | none => return address
  | some h =>
    match (← get).handles.lookup h with
    | some start => return start ++ address
    | none => unfit

/-- Reads an anchor and a tag, in either order. -/
def properties : Building (Option String × Option String) := do
  match ← ahead with
  | .anchor a =>
    advance
    match ← ahead with
    | .tag h t =>
      advance
      return (some a, some (← fullTag h t))
    | _ => return (some a, none)
  | .tag h t =>
    advance
    match ← ahead with
    | .anchor a =>
      advance
      return (some a, some (← fullTag h t))
    | _ => return (none, some (← fullTag h t))
  | _ => return (none, none)

/-- The tag of a collection; the bare sign is none. -/
def collectionTag (tag : Option String) : Option String := tag.filter (· != "!")

def scalarKind (tag : Option String) (plain : Bool) : Kind :=
  match tag with
  | none => if plain then .byForm else .text
  | some "!" => .byForm
  | some t => .tagged t

/-- Starts a node with an anchor, which has to be new. -/
def startAnchor (anchor : Option String) : Building Unit := do
  match anchor with
  | none => pure ()
  | some a =>
    let s ← get
    if (s.anchors.lookup a).isSome || s.unfinished.contains a then unfit
    set { s with unfinished := a :: s.unfinished }

def endAnchor (anchor : Option String) (n : Node) : Building Node := do
  match anchor with
  | none => pure ()
  | some a =>
    modify fun s =>
      { s with anchors := (a, n) :: s.anchors, unfinished := s.unfinished.filter (· != a) }
  return n

/-! ## §3. Nodes from tokens -/

mutual
/-- Builds a node.  Block collections are allowed with `block`; with `indentless` also a sequence
    that is not indented. -/
def node : (fuel : Nat) → (block indentless : Bool) → Building Node
  | 0, _, _ => unfit
  | fuel + 1, block, indentless => do
    match ← ahead with
    | .alias a =>
      advance
      match (← get).anchors.lookup a with
      | some n => return n
      | none => unfit
    | _ =>
      let (anchor, tag) ← properties
      startAnchor anchor
      let n ← body fuel block indentless tag (anchor.isSome || tag.isSome)
      endAnchor anchor n

/-- Builds a node without its anchor and tag; it may be empty only if it has one of them. -/
def body : (fuel : Nat) → (block indentless : Bool) → Option String → (mayBeEmpty : Bool) →
    Building Node
  | 0, _, _, _, _ => unfit
  | fuel + 1, block, indentless, tag, mayBeEmpty => do
    match ← ahead with
    | .scalar text plain =>
      advance
      return .scalar (scalarKind tag plain) text
    | .flowSequenceStart =>
      advance
      return .sequence (collectionTag tag) (← flowItems fuel true [])
    | .flowMappingStart =>
      advance
      return .mapping (collectionTag tag) (← flowPairs fuel true [])
    | t =>
      if indentless && t == .entry then
        return .sequence (collectionTag tag) (← indentlessItems fuel [])
      else if block && t == .sequenceStart then
        advance
        return .sequence (collectionTag tag) (← blockItems fuel [])
      else if block && t == .mappingStart then
        advance
        return .mapping (collectionTag tag) (← blockPairs fuel [])
      else if mayBeEmpty then return .scalar (scalarKind tag true) ""
      else unfit

/-- Builds a node unless one of some tokens comes next, in which case there is nothing. -/
def nodeUnless : (fuel : Nat) → (block indentless : Bool) → List Token → Building Node
  | 0, _, _, _ => unfit
  | fuel + 1, block, indentless, stops => do
    if ← atAny stops then return .nothing else node fuel block indentless

def blockItems : (fuel : Nat) → List Node → Building (List Node)
  | 0, _ => unfit
  | fuel + 1, before => do
    if ← take .entry then
      let n ← nodeUnless fuel true false [.entry, .blockEnd]
      blockItems fuel (n :: before)
    else
      expect .blockEnd
      return before.reverse

/-- Builds the items of a sequence that is not indented. -/
def indentlessItems : (fuel : Nat) → List Node → Building (List Node)
  | 0, _ => unfit
  | fuel + 1, before => do
    if ← take .entry then
      let n ← nodeUnless fuel true false [.entry, .key, .value, .blockEnd]
      indentlessItems fuel (n :: before)
    else return before.reverse

def blockPairs : (fuel : Nat) → List (Node × Node) → Building (List (Node × Node))
  | 0, _ => unfit
  | fuel + 1, before => do
    let stops := [Token.key, .value, .blockEnd]
    if ← take .key then
      let k ← nodeUnless fuel true true stops
      let v ← if ← take .value then nodeUnless fuel true true stops else pure .nothing
      blockPairs fuel ((k, v) :: before)
    else
      expect .blockEnd
      return before.reverse

/-- Builds the items of a flow sequence; an entry of a mapping is a mapping of its own. -/
def flowItems : (fuel : Nat) → (first : Bool) → List Node → Building (List Node)
  | 0, _, _ => unfit
  | fuel + 1, first, before => do
    if ← take .flowSequenceEnd then return before.reverse
    if !first then expect .flowEntry
    if ← take .key then
      let k ← nodeUnless fuel false false [.value, .flowEntry, .flowSequenceEnd]
      let v ← if ← take .value then nodeUnless fuel false false [.flowEntry, .flowSequenceEnd]
        else pure .nothing
      flowItems fuel false (.mapping none [(k, v)] :: before)
    else if ← take .flowSequenceEnd then return before.reverse
    else
      let n ← node fuel false false
      flowItems fuel false (n :: before)

def flowPairs : (fuel : Nat) → (first : Bool) → List (Node × Node) → Building (List (Node × Node))
  | 0, _, _ => unfit
  | fuel + 1, first, before => do
    if ← take .flowMappingEnd then return before.reverse
    if !first then expect .flowEntry
    if ← take .key then
      let k ← nodeUnless fuel false false [.value, .flowEntry, .flowMappingEnd]
      let v ← if ← take .value then nodeUnless fuel false false [.flowEntry, .flowMappingEnd]
        else pure .nothing
      flowPairs fuel false ((k, v) :: before)
    else if ← take .flowMappingEnd then return before.reverse
    else
      let k ← node fuel false false
      flowPairs fuel false ((k, .nothing) :: before)
end

/-! ## §4. Documents -/

def standardHandles : List (String × String) := [("!", "!"), ("!!", "tag:yaml.org,2002:")]

/-- Reads the directives before a document: at most one version, whose major part is 1, and at most
    one address for a handle. -/
def directives : (fuel : Nat) → (versionSeen : Bool) → List (String × String) →
    Building (List (String × String))
  | 0, _, _ => unfit
  | fuel + 1, versionSeen, handles => do
    match ← ahead with
    | .versionDirective major _ =>
      advance
      if versionSeen || major != 1 then unfit
      directives fuel true handles
    | .tagDirective h a =>
      advance
      if (handles.lookup h).isSome then unfit
      directives fuel versionSeen ((h, a) :: handles)
    | .otherDirective =>
      advance
      directives fuel versionSeen handles
    | _ => return handles

def skipEnds : (fuel : Nat) → Building Unit
  | 0 => pure ()
  | fuel + 1 => do if ← take .documentEnd then skipEnds fuel

/-- Whether a document starts with a directive or a mark. -/
def isExplicitStart : Token → Bool
  | .versionDirective _ _ => true
  | .tagDirective _ _ => true
  | .otherDirective => true
  | .documentStart => true
  | _ => false

def onlyDocument : Building (Option Node) := do
  let size := (← get).tokens.length
  let fuel := 4 * size + 8
  let t ← ahead
  if t == .streamEnd then return none
  let root ← if isExplicitStart t then do
      let own ← directives fuel false []
      expect .documentStart
      modify fun s =>
        { s with handles := own ++ standardHandles.filter fun h => (own.lookup h.1).isNone }
      let t ← ahead
      if isExplicitStart t || t == .documentEnd || t == .streamEnd then pure .nothing
      else node fuel true false
    else node fuel true false
  skipEnds size
  expect .streamEnd
  return some root

/-- The tree of a text that holds at most one document. -/
def read (text : List Char) : Except Problem (Option Node) := do
  let tokens ← tokensOf text
  let (root, _) ← onlyDocument.run { tokens, handles := standardHandles }
  return root

end AddonAudit.Yaml
