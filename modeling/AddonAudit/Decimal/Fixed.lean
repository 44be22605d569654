/-
  AddonAudit.Decimal.Fixed — doubles with a fixed number of decimal places.

  The exact binary value is rounded, and an exact half goes to the even neighbour.
-/
import AddonAudit.Decimal.Shortest

namespace AddonAudit.Decimal

/-- `n` units of the last of `places` places. -/
def placesText (places n : Nat) : String :=
  let cs := Nat.toDigits 10 n
  let cs := List.replicate (places + 1 - cs.length) '0' ++ cs
  let whole := cs.take (cs.length - places)
  if places == 0 then String.ofList whole
  else String.ofList (whole ++ '.' :: cs.drop (cs.length - places))

/-- A double with exactly `places` decimal places. -/
def fixed (places : Nat) (x : Float) : String :=
  match Binary.ofFloat x with
  | .nan => "nan"
  | .infinite negative => if negative then "-inf" else "inf"
  | .finite negative m e =>
    (if negative then "-" else "") ++
      placesText places ((Ratio.scaled m e).shift places).roundHalfEven

/-- The double nearest to `x` rounded to `places` decimal places. -/
def roundPlaces (places : Nat) (x : Float) : Float :=
  match Binary.ofFloat x with
  | .nan => x
  | .infinite _ => x
  | .finite negative m e =>
    let n := ((Ratio.scaled m e).shift places).roundHalfEven
    let y := Float.ofScientific n true places
    if negative then -y else y

end AddonAudit.Decimal
