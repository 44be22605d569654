/-
  AddonAudit.Source.Tree — the parts of a Python source file that the checks look at.

  Expressions keep every form that a check, a literal or an assignment target can ask for; all other
  forms are `other`.  Statements keep classes, functions, assignments and bare expressions; the
  bodies of all other compound statements are kept in source order.
-/
import AddonAudit.Datum

namespace AddonAudit.Source

/-- The operators that literals may use, and all others. -/
inductive Operator where
  | plus
  | minus
  | otherOp
  deriving DecidableEq

/-- The first operator of a comparison, as far as it matters. -/
inductive Comparison where
  | membership
  | otherComparison
  deriving DecidableEq

/-- Expressions, each with the line on which it starts. -/
inductive Expr where
  | constant (line : Nat) (value : Datum)
  | name (line : Nat) (id : String)
  | attribute (line : Nat) (value : Expr) (attr : String)
  /-- A call with its positional arguments and its keywords; an unpacked mapping has no name. -/
  | call (line : Nat) (func : Expr) (args : List Expr) (keywords : List (Option String × Expr))
  | subscript (line : Nat) (value : Expr)
  | starred (line : Nat) (value : Expr)
  | list (line : Nat) (items : List Expr)
  | tuple (line : Nat) (items : List Expr)
  | set (line : Nat) (items : List Expr)
  /-- A mapping display; an unpacked mapping has no key. -/
  | dict (line : Nat) (entries : List (Option Expr × Expr))
  | unary (line : Nat) (op : Operator) (operand : Expr)
  | binary (line : Nat) (op : Operator) (left right : Expr)
  | compare (line : Nat) (op : Comparison) (left : Expr)
  | other (line : Nat)

instance : Inhabited Expr := ⟨.other 0⟩

/-- The line on which an expression starts. -/
def Expr.line : Expr → Nat
  | .constant l _ | .name l _ | .attribute l _ _ | .call l _ _ _ | .subscript l _ | .starred l _
  | .list l _ | .tuple l _ | .set l _ | .dict l _ | .unary l _ _ | .binary l _ _ _
  | .compare l _ _ | .other l => l

/-- Statements. -/
inductive Stmt where
  | classDef (line : Nat) (name : String) (bases decorators : List Expr) (body : List Stmt)
  | functionDef (line : Nat) (name : String) (decorators : List Expr) (body : List Stmt)
  | assign (line : Nat) (targets : List Expr) (value : Expr)
  | expr (line : Nat) (value : Expr)
  /-- A compound statement of another kind with the statements of all its blocks. -/
  | compound (line : Nat) (body : List Stmt)
  | simple (line : Nat)

instance : Inhabited Stmt := ⟨.simple 0⟩

/-- Attaches decorators to a class or function. -/
def Stmt.decorate (decorators : List Expr) : Stmt → Stmt
  | .classDef l n b _ body => .classDef l n b decorators body
  | .functionDef l n _ body => .functionDef l n decorators body
  | s => s

/-! ## Assignment targets -/

/-- What an expression would have to be a target of. -/
inductive TargetUse where
  | assignment
  | deletion
  | loop
  deriving DecidableEq

mutual
/-- The first part of an expression that cannot be a target. -/
def Expr.invalidTarget? (use : TargetUse) : Expr → Option Expr
  | .list _ items => Expr.firstInvalid? use items
  | .tuple _ items => Expr.firstInvalid? use items
  | .starred l v => if use == .deletion then some (.starred l v) else Expr.invalidTarget? use v
  | .compare l op left =>
    if use == .loop then
      if op == .membership then Expr.invalidTarget? use left else none
    else some (.compare l op left)
  | .name _ _ => none
  | .subscript _ _ => none
  | .attribute _ _ _ => none
  | e => some e

/-- The first invalid target among several. -/
def Expr.firstInvalid? (use : TargetUse) : List Expr → Option Expr
  | [] => none
  | e :: es => (Expr.invalidTarget? use e).or (Expr.firstInvalid? use es)
end

end AddonAudit.Source
