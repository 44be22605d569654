/-
  AddonAudit.Pattern.Tree — text patterns as trees.

  A pattern is a sequence of nodes.  Flags that change what a node stands for are part of the node,
  so that a tree means the same wherever it stands.
-/
import AddonAudit.Text.Basic
import AddonAudit.Text.Case
import AddonAudit.Text.Digit
import AddonAudit.Text.Word

namespace AddonAudit.Pattern

/-! ## §1. Sets of characters -/

/-- Classes of characters with a name. -/
inductive Class where
  | digit
  | space
  | word
  deriving DecidableEq

/-- Whether a class holds a character; `ascii` leaves out all other scripts. -/
def Class.holds (k : Class) (ascii : Bool) (c : Char) : Bool :=
  (!ascii || c.toNat < 128) &&
    match k with
    | .digit => Text.isDecimal c
    | .space => Text.isBlank c && (!ascii || !(28 ≤ c.toNat && c.toNat ≤ 31))
    | .word => Text.isWord c

/-- A member of a set: codes from one to another, or a class. -/
inductive Member where
  | span (first last : Nat)
  | named (k : Class) (negated ascii : Bool)
  deriving DecidableEq

/-- Whether a member stands for a character. -/
def Member.holds : Member → Char → Bool
  | .span a b, c => a ≤ c.toNat && c.toNat ≤ b
  | .named k negated ascii, c => k.holds ascii c != negated

/-- A set of characters. -/
structure CharSet where
  members : List Member
  negated : Bool := false
  ignoreCase : Bool := false
  deriving DecidableEq

/-- The other cases of a character, and itself. -/
def caseVariants (c : Char) : List Char :=
  let single (cs : List Char) : List Char :=
    match cs with
    | [d] => [d]
    | _ => []
  c :: single (Text.lowerChar [] c []) ++ single (Text.upperChar c)

def CharSet.holds (s : CharSet) (c : Char) : Bool :=
  let variants := if s.ignoreCase then caseVariants c else [c]
  (variants.any fun d => s.members.any (·.holds d)) != s.negated

/-! ## §2. Nodes -/

/-- How often a repeated part is tried. -/
inductive Mode where
  | greedy
  | lazy
  /-- As often as possible, and nothing else. -/
  | possessive
  deriving DecidableEq

/-- A place in a text, which takes no characters. -/
inductive Spot where
  | start (anyLine : Bool)
  /-- The end of the text, before a final line feed too, or the end of any line. -/
  | finish (anyLine : Bool)
  | textStart
  | textEnd
  /-- A place where a word starts or ends, or any other. -/
  | boundary (negated ascii : Bool)
  deriving DecidableEq

/-- A part of a pattern. -/
inductive Node where
  | set (s : CharSet)
  /-- Any one character; a line feed only if `all`. -/
  | any (all : Bool)
  | spot (s : Spot)
  /-- A part whose text is remembered under a number, if it has one. -/
  | group (number : Option Nat) (body : List Node)
  | choice (options : List (List Node))
  | loop (mode : Mode) (least : Nat) (most : Option Nat) (body : List Node)
  /-- A part that is matched once and not tried again. -/
  | atomic (body : List Node)
  /-- What follows or stands before must match, or must not. -/
  | look (ahead negated : Bool) (width : Nat) (body : List Node)
  | again (number : Nat) (ignoreCase : Bool)
  /-- One of two parts, by whether a group has a text. -/
  | given (number : Nat) (yes no : List Node)

/-! ## §3. Widths -/

/-- The least and the greatest number of characters. -/
structure Width where
  least : Nat
  most : Nat

/-- No bound on the number of characters. -/
def unbounded : Nat := Nat.pow 2 64

/-- The width of two parts one after the other. -/
def Width.add (a b : Width) : Width :=
  ⟨min (a.least + b.least) unbounded, min (a.most + b.most) unbounded⟩

mutual
def Node.width (groups : List (Nat × Width)) : Node → Width
  | .set _ => ⟨1, 1⟩
  | .any _ => ⟨1, 1⟩
  | .spot _ => ⟨0, 0⟩
  | .group _ body => widthOf groups body
  | .choice options => widthOfOptions groups options
  | .loop _ least most body =>
    let w := widthOf groups body
    ⟨w.least * least,
      match most with
      | some m => w.most * m
      | none => if w.most == 0 then 0 else unbounded⟩
  | .atomic body => widthOf groups body
  | .look _ _ _ _ => ⟨0, 0⟩
  | .again n _ => (groups.lookup n).getD ⟨0, 0⟩
  | .given _ yes no =>
    let a := widthOf groups yes
    let b := widthOf groups no
    ⟨min a.least b.least, max a.most b.most⟩

def widthOf (groups : List (Nat × Width)) : List Node → Width
  | [] => ⟨0, 0⟩
  | n :: ns => (n.width groups).add (widthOf groups ns)

def widthOfOptions (groups : List (Nat × Width)) : List (List Node) → Width
  | [] => ⟨unbounded, 0⟩
  | o :: os =>
    let a := widthOf groups o
    let b := widthOfOptions groups os
    ⟨min a.least b.least, max a.most b.most⟩
end

mutual
/-- A bound on the steps that a node takes without taking characters. -/
def Node.weight : Node → Nat
  | .set _ => 1
  | .any _ => 1
  | .spot _ => 1
  | .group _ body => weightOf body + 2
  | .choice options => weightOfOptions options + 1
  | .loop _ least _ body => (least + 2) * (weightOf body + 2)
  | .atomic body => weightOf body + 1
  | .look _ _ _ body => weightOf body + 1
  | .again _ _ => 1
  | .given _ yes no => weightOf yes + weightOf no + 1

def weightOf : List Node → Nat
  | [] => 1
  | n :: ns => n.weight + weightOf ns

def weightOfOptions : List (List Node) → Nat
  | [] => 0
  | o :: os => weightOf o + weightOfOptions os
end

end AddonAudit.Pattern
