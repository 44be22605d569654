/-
  AddonAudit.Decimal.Shortest — the fewest decimal digits that read back as the same double.

  For one, two, … digits the two neighbours of the value on that decimal grid are compared with the
  interval of reals that round to the double; the first grid with a hit wins, and of two hits the
  nearer one.
-/
import AddonAudit.Decimal.Binary

namespace AddonAudit.Decimal

/-! ## §1. Digits -/

/-- The reals that round to a double, ends included when `closed`. -/
structure Interval where
  low : Ratio
  high : Ratio
  closed : Bool

def Interval.around (m : Nat) (e : Int) : Interval :=
  let low := if m == Nat.pow 2 52 && e > -1074 then Ratio.scaled (4 * m - 1) (e - 2)
    else Ratio.scaled (2 * m - 1) (e - 1)
  ⟨low, Ratio.scaled (2 * m + 1) (e - 1), m % 2 == 0⟩

/-- Whether `a < b`, or `a = b` when equality counts. -/
def Ratio.before (orEqual : Bool) (a b : Ratio) : Bool :=
  let x := a.num * b.den
  let y := b.num * a.den
  x < y || (orEqual && x == y)

def Interval.has (i : Interval) (r : Ratio) : Bool :=
  i.low.before i.closed r && r.before i.closed i.high

/-- The least `k` with `v < 10 ^ k`, searched upwards from a start that is not above it. -/
def pointFrom (v : Ratio) (k : Int) : Nat → Int
  | 0 => k
  | fuel + 1 =>
    let r := v.shift (-k)
    if r.num < r.den then k else pointFrom v (k + 1) fuel

/-- The position of the decimal point of `m · 2 ^ e`: the value is below `10 ^` this and not below a
    tenth of it. -/
def pointOf (m : Nat) (e : Int) : Int :=
  let log2 : Int := (Nat.log2 m : Int) + e
  pointFrom (Ratio.scaled m e) (log2 * 30103 / 100000 - 1) 8

/-- A value on a decimal grid: `value` units of the grid with `width` digits before its end. -/
structure Digits where
  value : Nat
  width : Nat

def shortestFrom (v : Ratio) (i : Interval) (point : Int) (n : Nat) : Nat → Digits
  | 0 => ⟨(v.shift (n - point)).roundHalfEven, n⟩
  | fuel + 1 =>
    let grid := v.shift (n - point)
    let below := grid.num / grid.den
    let hit (k : Nat) : Bool := i.has (Ratio.shift ⟨k, 1⟩ (point - n))
    match below != 0 && hit below, hit (below + 1) with
    | true, true => ⟨grid.roundHalfEven, n⟩
    | true, false => ⟨below, n⟩
    | false, true => ⟨below + 1, n⟩
    | false, false => shortestFrom v i point (n + 1) fuel

/-- Drops final zeros of a digit string, keeping one digit. -/
def trimZeros (cs : List Char) : List Char :=
  match (cs.reverse.dropWhile (· == '0')).reverse with
  | [] => ['0']
  | ds => ds

/-- The digits of a positive double without final zeros, and the position of its decimal point.
    A carry out of the leading digit gives one digit more and moves the point. -/
def shortestDigits (m : Nat) (e : Int) : List Char × Int :=
  let point := pointOf m e
  let d := shortestFrom (Ratio.scaled m e) (Interval.around m e) point 1 16
  let cs := Nat.toDigits 10 d.value
  (trimZeros cs, if d.width < cs.length then point + 1 else point)

/-! ## §2. Text -/

/-- Digits and point in positional notation, with at least one digit after the point. -/
def positional (ds : List Char) (point : Int) : List Char :=
  if point ≤ 0 then "0.".toList ++ List.replicate (-point).toNat '0' ++ ds
  else
    let p := point.toNat
    if ds.length ≤ p then ds ++ List.replicate (p - ds.length) '0' ++ ".0".toList
    else ds.take p ++ '.' :: ds.drop p

/-- Digits and exponent in scientific notation, with a sign and at least two exponent digits. -/
def scientific (ds : List Char) (exponent : Int) : List Char :=
  let mantissa := match ds with
    | [d] => [d]
    | d :: rest => d :: '.' :: rest
    | [] => []
  let digits := Nat.toDigits 10 exponent.natAbs
  mantissa ++ 'e' :: (if exponent < 0 then '-' else '+') ::
    (List.replicate (2 - digits.length) '0' ++ digits)

/-- The shortest text that reads back as the same double.  Exponents from -4 to 15 are written
    positionally and a whole number keeps one zero after its point. -/
def shortest (x : Float) : String :=
  match Binary.ofFloat x with
  | .nan => "nan"
  | .infinite negative => if negative then "-inf" else "inf"
  | .finite negative m e =>
    let body := if m == 0 then "0.0".toList else
      let (ds, point) := shortestDigits m e
      if -4 < point && point ≤ 16 then positional ds point else scientific ds (point - 1)
    (if negative then "-" else "") ++ String.ofList body

end AddonAudit.Decimal
