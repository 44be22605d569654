/-
  AddonAudit.Source.Value — the data that literal expressions stand for.

  A literal is built from constants, lists, tuples, sets, mappings, signs before numbers, and a real
  plus or minus an imaginary number.
-/
import AddonAudit.Source.Reader

namespace AddonAudit.Source

/-- A number constant; truth values are none. -/
def numberOf : Expr → Except Fault Datum
  | .constant _ (.int i) => .ok (.int i)
  | .constant _ (.float x) => .ok (.float x)
  | .constant _ (.complex re im) => .ok (.complex re im)
  | _ => .error .malformedLiteral

def negative : Datum → Datum
  | .int i => .int (-i)
  | .float x => .float (-x)
  | .complex re im => .complex (-re) (-im)
  | d => d

/-- A number constant with an optional sign. -/
def signedNumberOf : Expr → Except Fault Datum
  | .unary _ .plus e => numberOf e
  | .unary _ .minus e => do return negative (← numberOf e)
  | e => numberOf e

/-- The double nearest to a whole number; numbers beyond all doubles have none. -/
def floatOfInt? (i : Int) : Option Float :=
  let x := Float.ofInt i
  if x.isFinite then some x else none

/-- A real number plus or minus an imaginary one. -/
def complexSum (minus : Bool) (left right : Datum) : Except Fault Datum := do
  let real ← match left with
    | .int i =>
      match floatOfInt? i with
      | some x => pure x
      | none => throw .numberTooLarge
    | .float x => pure x
    | _ => throw .malformedLiteral
  match right with
  | .complex re im =>
    return if minus then .complex (real - re) (0.0 - im) else .complex (real + re) (0.0 + im)
  | _ => throw .malformedLiteral

/-- A key that a table or set can hold. -/
def asKey (d : Datum) : Except Fault Datum :=
  match d.unhashable? with
  | some kind => .error (.unhashable kind)
  | none => .ok d

mutual
def valueOf : Expr → Except Fault Datum
  | .constant _ d => .ok d
  | .tuple _ items => do return .tuple (← valuesOf items)
  | .list _ items => do return .list (← valuesOf items)
  | .set _ items => do return .set (← membersOf [] items)
  | .call _ (.name _ "set") [] [] => .ok (.set [])
  | .dict _ entries => do return .table (← entriesOf [] entries)
  | .binary _ .plus left right => do complexSum false (← signedNumberOf left) (← numberOf right)
  | .binary _ .minus left right => do complexSum true (← signedNumberOf left) (← numberOf right)
  | e => signedNumberOf e

/-- The data of a list of literal expressions. -/
def valuesOf : List Expr → Except Fault (List Datum)
  | [] => .ok []
  | e :: es => do
    let d ← valueOf e
    return d :: (← valuesOf es)

/-- The members of a set, one after another. -/
def membersOf (before : List Datum) : List Expr → Except Fault (List Datum)
  | [] => .ok before
  | e :: es => do
    let d ← asKey (← valueOf e)
    membersOf (Datum.addMember d before) es

/-- The entries of a table, one after another; an unpacked mapping is no literal. -/
def entriesOf (before : List (Datum × Datum)) :
    List (Option Expr × Expr) → Except Fault (List (Datum × Datum))
  | [] => .ok before
  | (none, _) :: _ => .error .malformedLiteral
  | (some k, v) :: es => do
    let key ← valueOf k
    let value ← valueOf v
    let key ← asKey key
    entriesOf (Datum.insert key value before) es
end

/-- The datum of a text that holds one literal; blanks may stand before it. -/
def readLiteral (text : String) : Except Fault Datum :=
  match readExpression (Text.dropLeading (fun c => c == ' ' || c == '\t') text) with
  | .ok e => valueOf e
  | .error _ => .error .malformedSource

end AddonAudit.Source
