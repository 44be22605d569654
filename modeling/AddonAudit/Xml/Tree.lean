/-
  AddonAudit.Xml.Tree — XML documents as trees, and the elements that checks look for.

  Every element knows the line on which its start tag ends and its place among the elements of the
  document, which tells equal elements apart.
-/

namespace AddonAudit.Xml

/-! ## §1. Trees -/

/-- A name with the namespace that it belongs to. -/
structure Name where
  space : Option String
  label : String
  deriving DecidableEq

/-- The parts of a document. -/
inductive Node where
  | element (place line : Nat) (name : Name) (attributes : List (Name × String))
      (children : List Node)
  | text (s : String)
  | comment
  | instruction

instance : Inhabited Node := ⟨.comment⟩

structure Element where
  place : Nat
  line : Nat
  name : Name
  attributes : List (Name × String)
  children : List Node

def Node.element? : Node → Option Element
  | .element place line name attributes children => some ⟨place, line, name, attributes, children⟩
  | _ => none

mutual
/-- Gives the elements of a node their places, in document order from a number on, and tells the
    next number. -/
def Node.number (start : Nat) : Node → Node × Nat
  | .element _ line name attributes children =>
    let (children, next) := Node.numberAll (start + 1) children
    (.element start line name attributes children, next)
  | n => (n, start)

def Node.numberAll (start : Nat) : List Node → List Node × Nat
  | [] => ([], start)
  | n :: ns =>
    let (n, next) := Node.number start n
    let (ns, next) := Node.numberAll next ns
    (n :: ns, next)
end

/-! ## §2. Attributes and text -/

namespace Element

/-- The value of an attribute without namespace. -/
def get? (e : Element) (label : String) : Option String :=
  (e.attributes.find? fun a => a.1.space.isNone && a.1.label == label).map (·.2)

/-- The value of an attribute, or a default. -/
def get (e : Element) (label : String) (default : String) : String := (e.get? label).getD default

def has (e : Element) (label : String) : Bool := (e.get? label).isSome

/-- Whether an element has a name outside all namespaces. -/
def isNamed (e : Element) (label : String) : Bool := e.name.space.isNone && e.name.label == label

/-- Whether an attribute is present with a value. -/
def hasValue (e : Element) (label value : String) : Bool := e.get? label == some value

/-- The texts at the front of a list of nodes. -/
def leadingText : List Node → String
  | .text s :: rest => s ++ leadingText rest
  | _ => ""

def text (e : Element) : String := leadingText e.children

/-! ## §3. Children and descendants -/

def elements (e : Element) : List Element := e.children.filterMap Node.element?

/-- The children that are elements of a name. -/
def named (e : Element) (label : String) : List Element := e.elements.filter (·.isNamed label)

/-- The children that are elements, comments or instructions. -/
def parts (e : Element) : List Node :=
  e.children.filter fun
    | .text _ => false
    | _ => true

end Element

/-- An element with the one that it stands in. -/
structure Placed where
  element : Element
  parent : Option Element

mutual
/-- A node and all below it that are elements, in document order. -/
def Node.inside (parent : Option Element) : Node → List Placed
  | .element place line name attributes children =>
    ⟨⟨place, line, name, attributes, children⟩, parent⟩ ::
      Node.insideAll (some ⟨place, line, name, attributes, children⟩) children
  | _ => []

/-- The elements of several nodes, in document order. -/
def Node.insideAll (parent : Option Element) : List Node → List Placed
  | [] => []
  | n :: ns => Node.inside parent n ++ Node.insideAll parent ns
end

/-- The elements inside an element, in document order. -/
def Element.descendants (e : Element) : List Element :=
  (Node.insideAll (some e) e.children).map (·.element)

def Element.placedDescendants (e : Element) : List Placed := Node.insideAll (some e) e.children

/-- An element and the elements inside it, in document order. -/
def Element.selfAndDescendants (e : Element) : List Element := e :: e.descendants

end AddonAudit.Xml
