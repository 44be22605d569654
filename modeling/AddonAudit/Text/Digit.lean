/-
  AddonAudit.Text.Digit — decimal digits of every script, and the wider class of digit characters.

  A decimal digit has a place value and can stand in a number; superscripts, circled numbers and the
  like are digit characters without one.  The ASCII half is answered without the tables.
-/
import AddonAudit.Text.Ranges

namespace AddonAudit.Text

/-! ## §1. Decimal digits -/

/-- The zeros of the decimal digit blocks outside ASCII; each is followed by its one to nine. -/
def decimalZeros : List Nat :=
  [0x660, 0x6f0, 0x7c0, 0x966, 0x9e6, 0xa66, 0xae6, 0xb66, 0xbe6, 0xc66, 0xce6, 0xd66, 0xde6,
   0xe50, 0xed0, 0xf20, 0x1040, 0x1090, 0x17e0, 0x1810, 0x1946, 0x19d0, 0x1a80, 0x1a90, 0x1b50,
   0x1bb0, 0x1c40, 0x1c50, 0xa620, 0xa8d0, 0xa900, 0xa9d0, 0xa9f0, 0xaa50, 0xabf0, 0xff10, 0x104a0,
   0x10d30, 0x11066, 0x110f0, 0x11136, 0x111d0, 0x112f0, 0x11450, 0x114d0, 0x11650, 0x116c0,
   0x11730, 0x118e0, 0x11950, 0x11c50, 0x11d50, 0x11da0, 0x16a60, 0x16ac0, 0x16b50, 0x1d7ce,
   0x1d7d8, 0x1d7e2, 0x1d7ec, 0x1d7f6, 0x1e140, 0x1e2f0, 0x1e950, 0x1fbf0]

def decimalValue? (c : Char) : Option Nat :=
  if c.toNat < 128 then
    if c.isDigit then some (c.toNat - 48) else none
  else
    (decimalZeros.find? fun z => z ≤ c.toNat && c.toNat < z + 10).map (c.toNat - ·)

def isDecimal (c : Char) : Bool := (decimalValue? c).isSome

/-- An ASCII character is a decimal digit exactly when it is one of `0` to `9`. -/
theorem isDecimal_ascii {c : Char} (h : c.toNat < 128) : isDecimal c = c.isDigit := by
  unfold isDecimal decimalValue?
  rw [if_pos h]
  split <;> simp_all

/-! ## §2. Digit characters -/

/-- Digit characters outside ASCII. -/
def digitRanges : Ranges :=
  .ofGaps "Ey251BO6aDqaFiaLgaDaaDaaDaaDaaDaaDaaDaaDaaDaaCoaDaaByaHqaByaTz9BFiaB2aIcaDkbEla6aF2aCeaDq
   a6aBD21366aBBa9b9b9Ch1a911Ri91919BIPxaSuaB2aFiamaCeaLaaWSuaBNaaBNq4UsaI69Nl9baDkaBoaE0aHqaJiaDaaK
   eaCuaCuaLqaCuaV2aGuaByaUZiaCeaDqaBDR8BeCNsaLqaBT2aCCebCZha"

/-- Decimal digits together with superscript, subscript and enclosed digits. -/
def isDigitLike (c : Char) : Bool :=
  if c.toNat < 128 then c.isDigit else digitRanges.contains c.toNat

end AddonAudit.Text
