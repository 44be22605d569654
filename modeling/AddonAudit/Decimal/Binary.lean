/-
  AddonAudit.Decimal.Binary — the exact value of a binary floating-point number.
-/

namespace AddonAudit.Decimal

/-- A double is not a number, infinite, or `mantissa · 2 ^ exponent` with a sign. -/
inductive Binary where
  | nan
  | infinite (negative : Bool)
  | finite (negative : Bool) (mantissa : Nat) (exponent : Int)

/-- The exact value of a double, read off its bits. -/
def Binary.ofFloat (x : Float) : Binary :=
  let bits := x.toBits.toNat
  let negative := bits / Nat.pow 2 63 == 1
  let e : Nat := bits / Nat.pow 2 52 % 2048
  let f : Nat := bits % Nat.pow 2 52
  if e == 2047 then (if f == 0 then .infinite negative else .nan)
  else if e == 0 then .finite negative f (-1074)
  else .finite negative (Nat.pow 2 52 + f) ((e : Int) - 1075)

/-- A quotient of naturals; the denominators in use are positive. -/
structure Ratio where
  num : Nat
  den : Nat

def Ratio.scaled (m : Nat) (e : Int) : Ratio :=
  match e with
  | .ofNat n => ⟨m * Nat.pow 2 n, 1⟩
  | .negSucc n => ⟨m, Nat.pow 2 (n + 1)⟩

def Ratio.shift (r : Ratio) (k : Int) : Ratio :=
  match k with
  | .ofNat n => ⟨r.num * Nat.pow 10 n, r.den⟩
  | .negSucc n => ⟨r.num, r.den * Nat.pow 10 (n + 1)⟩

/-- Nearest natural to a quotient; a half goes to the even neighbour. -/
def Ratio.roundHalfEven (r : Ratio) : Nat :=
  let q := r.num / r.den
  let twice := 2 * (r.num % r.den)
  if twice < r.den then q
  else if r.den < twice then q + 1
  else if q % 2 == 0 then q else q + 1

end AddonAudit.Decimal
