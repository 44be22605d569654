/-
  AddonAudit.Text.Ranges — sets of code points, stored as the places where membership changes.
-/

namespace AddonAudit.Text

/-- Takes one more sign of the numbers of a table, after those that are whole and the start of the
    next. -/
def addSign (acc : Array Nat × Nat) (c : Char) : Array Nat × Nat :=
  if c.isUpper then (acc.1, acc.2 * 26 + (c.toNat - 'A'.toNat))
  else if c.isDigit then (acc.1.push (acc.2 * 36 + (c.toNat - '0'.toNat)), 0)
  else if c.isLower then (acc.1.push (acc.2 * 36 + (c.toNat - 'a'.toNat + 10)), 0)
  else acc

/-- The numbers of a table, in order.  They stand without gaps: a small letter or a digit, of which
    there are 36, is the last sign of a number, and capital letters before it are the others.  All
    else is passed over. -/
def numbersOf (s : String) : Array Nat := (s.toList.foldl addSign (#[], 0)).1

/-- A set of code points as its increasing boundaries: a code point is inside when the number of
    boundaries that are not above it is odd. -/
structure Ranges where
  bounds : Array Nat

/-- Reads the boundaries from the distance of each to the one before it. -/
def Ranges.ofGaps (s : String) : Ranges :=
  ⟨((numbersOf s).foldl (fun (last, bounds) gap => (last + gap, bounds.push (last + gap)))
    (0, #[])).2⟩

/-- How many entries of an increasing array are not above `n`, searched between `lo` and `hi`. -/
def countUpTo (bounds : Array Nat) (n lo hi : Nat) : Nat :=
  if _h : lo < hi then
    let mid := (lo + hi) / 2
    match bounds[mid]? with
    | some b => if b ≤ n then countUpTo bounds n (mid + 1) hi else countUpTo bounds n lo mid
    | none => lo
  else lo
termination_by hi - lo

/-- Membership of a code point. -/
def Ranges.contains (r : Ranges) (n : Nat) : Bool :=
  countUpTo r.bounds n 0 r.bounds.size % 2 == 1

end AddonAudit.Text
