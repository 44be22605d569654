/-
  AddonAudit.Decimal.Whole — whole numbers as people type them.

  A number may have a sign and blanks around it, digits of any script, and single underscores
  between digits.
-/
import AddonAudit.Text.Basic
import AddonAudit.Text.Digit

namespace AddonAudit.Decimal

/-- Why a text is no whole number. -/
inductive WholeProblem where
  | malformed
  /-- More digits than a number may have. -/
  | tooLong (digits : Nat)

/-- The largest number of digits that a number may have. -/
def maxDigits : Nat := 4300

/-- Blanks that may stand around a number: those of `Text.isBlank` without the ASCII separators. -/
def isOuterBlank (c : Char) : Bool := Text.isBlank c && !(28 ≤ c.toNat && c.toNat ≤ 31)

/-- The values of digits with single underscores between them. -/
def digitRun? : List Char → Option (List Nat)
  | [] => none
  | c :: cs =>
    match Text.decimalValue? c with
    | none => none
    | some d => go [d] cs
where
  go (values : List Nat) : List Char → Option (List Nat)
    | [] => some values.reverse
    | '_' :: c :: cs =>
      match Text.decimalValue? c with
      | some d => go (d :: values) cs
      | none => none
    | c :: cs =>
      match Text.decimalValue? c with
      | some d => go (d :: values) cs
      | none => none

/-- The number of digits at the front, underscores between them left out. -/
def leadingDigits (cs : List Char) : Nat :=
  ((cs.takeWhile fun c => c == '_' || Text.isDecimal c).filter (· != '_')).length

def valueOfDigits (ds : List Nat) : Nat := ds.foldl (fun n d => n * 10 + d) 0

def readWhole (s : String) : Except WholeProblem Int :=
  let cs := Text.dropTailWhile isOuterBlank (s.toList.dropWhile isOuterBlank)
  let negative := cs.head? == some '-'
  let digits := if negative || cs.head? == some '+' then cs.drop 1 else cs
  if maxDigits < leadingDigits digits then .error (.tooLong (leadingDigits digits))
  else match digitRun? digits with
    | some ds => .ok (if negative then -(valueOfDigits ds : Int) else valueOfDigits ds)
    | none => .error .malformed

end AddonAudit.Decimal
