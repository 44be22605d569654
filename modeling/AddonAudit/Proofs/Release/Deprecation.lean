/-
  AddonAudit.Proofs.Release.Deprecation — versions that gave up a feature.

  Versions are compared as texts, which is the order of decimal fractions and not that of whole
  numbers.
-/
import AddonAudit.Proofs.Placeholder.Arguments
import AddonAudit.Release.Version
import Mathlib.Algebra.Ring.Nat

namespace AddonAudit.Release

open List

theorem ofDigitChars_lt {digits : List Char} (h : ∀ c ∈ digits, c.isDigit) :
    Nat.ofDigitChars 10 digits 0 < 10 ^ digits.length := by
  induction digits with
  | nil => decide
  | cons c cs ih =>
    obtain ⟨hc, hcs⟩ := forall_mem_cons.mp h
    have hbounds := Braces.isDigit_bounds hc
    have hzero : '0'.toNat = 48 := rfl
    have hrest := ih hcs
    rw [Nat.ofDigitChars_cons, Nat.ofDigitChars_eq_ofDigitChars_zero, length_cons, Nat.pow_succ]
    have : 10 ^ cs.length * (10 * 0 + (c.toNat - '0'.toNat)) ≤ 10 ^ cs.length * 9 :=
      Nat.mul_le_mul_left _ (by omega)
    omega

/-- A digit comes after the point. -/
theorem not_lt_point {digits : List Char} (h : ∀ c ∈ digits, c.isDigit) :
    ¬ digits ++ ['.', '0'] < ['.', '0'] := by
  cases digits with
  | nil => decide
  | cons c cs =>
    have hc := Braces.isDigit_bounds (h c mem_cons_self)
    have hpoint : '.'.toNat = 46 := rfl
    have hlt : ¬ c.toNat < '.'.toNat := by omega
    have hne : c ≠ '.' := by
      rintro rfl
      omega
    rw [cons_append, cons_lt_cons_iff]
    exact not_or.mpr ⟨hlt, fun h => hne h.1⟩

/-- A numeral is compared with the first version by its first two digits. -/
theorem since_le_iff {digits : List Char} (hne : digits ≠ []) (h : ∀ c ∈ digits, c.isDigit) :
    "17.0" ≤ String.ofList digits ++ ".0" ↔ 17 * 10 ^ digits.length ≤
    100 * Nat.ofDigitChars 10 digits 0 := by
  rw [← String.not_lt, String.lt_iff, String.toList_append, String.toList_ofList]
  have hsince : "17.0".toList = ['1', '7', '.', '0'] := rfl
  have hend : ".0".toList = ['.', '0'] := rfl
  have hchar (c d : Char) : c < d ↔ c.toNat < d.toNat := Iff.rfl
  have hone : '1'.toNat = 49 := rfl
  have hseven : '7'.toNat = 55 := rfl
  have hpoint : '.'.toNat = 46 := rfl
  have hzero : '0'.toNat = 48 := rfl
  rw [hsince, hend]
  rcases digits with _ | ⟨a, _ | ⟨b, rest⟩⟩
  · exact absurd rfl hne
  · have ha := Braces.isDigit_bounds (h a (by simp))
    have heq : a = '1' ↔ a.toNat = 49 := by rw [← hone, Char.toNat_inj]
    simp only [cons_append, nil_append, cons_lt_cons_iff, hchar, heq, hone, hseven, hpoint,
      Nat.ofDigitChars_cons, Nat.ofDigitChars_nil, hzero, length_singleton]
    omega
  · have ha := Braces.isDigit_bounds (h a (by simp))
    have hb := Braces.isDigit_bounds (h b (by simp))
    have hrest := not_lt_point fun c hc => h c (mem_cons_of_mem a (mem_cons_of_mem b hc))
    have hsmall := ofDigitChars_lt fun c hc => h c (mem_cons_of_mem a (mem_cons_of_mem b hc))
    have heq : a = '1' ↔ a.toNat = 49 := by rw [← hone, Char.toNat_inj]
    rw [cons_append, cons_append, cons_lt_cons_iff, cons_lt_cons_iff, Nat.ofDigitChars_cons,
      Nat.ofDigitChars_cons, Nat.ofDigitChars_eq_ofDigitChars_zero]
    simp only [hrest, and_false, or_false, hchar, heq, hone, hseven, hzero, length_cons,
      Nat.pow_succ]
    -- only the first two digits count
    have hlead : ¬ (a.toNat < 49 ∨ a.toNat = 49 ∧ b.toNat < 55) ↔
      17 ≤ 10 * (a.toNat - 48) + (b.toNat - 48) := by omega
    rw [hlead, Nat.mul_zero, Nat.zero_add]
    generalize 10 * (a.toNat - 48) + (b.toNat - 48) = x
    constructor
    · intro hx
      have := Nat.mul_le_mul_left (10 ^ rest.length) hx
      omega
    · intro hle
      by_contra hx
      have := Nat.mul_le_mul_left (10 ^ rest.length) (by omega : x ≤ 16)
      omega

/-- **Versions are compared as texts**, so that a version gave up a feature exactly if its number,
    seen as a decimal fraction, is not below that of the first version.  This is the order of the
    numbers where they have two digits. -/
theorem deprecated_iff {feature : String} (h : feature ∈ deprecations.map Prod.fst) (n : Nat) :
    (deprecated feature (toString n ++ ".0") = true ↔
      17 * 10 ^ (Nat.toDigits 10 n).length ≤ 100 * n) ∧
    ((Nat.toDigits 10 n).length = 2 →
      (deprecated feature (toString n ++ ".0") = true ↔ 17 ≤ n)) := by
  have hsince : ∀ f ∈ deprecations.map Prod.fst, deprecations.lookup f = some "17.0" := by decide
  have hfraction : deprecated feature (toString n ++ ".0") = true ↔
      17 * 10 ^ (Nat.toDigits 10 n).length ≤ 100 * n := by
    rw [deprecated, hsince feature h, Nat.toString_eq_ofList_toDigits]
    dsimp only
    rw [decide_eq_true_eq, since_le_iff Nat.toDigits_ne_nil fun c hc =>
      Nat.isDigit_of_mem_toDigits (by omega) le_rfl hc, Nat.ofDigitChars_toDigits (by omega) le_rfl]
  refine ⟨hfraction, fun htwo => ?_⟩
  rw [hfraction, htwo]
  omega

theorem deprecated_iff_twenty : "t_raw_directive" ∈ deprecations.map Prod.fst ∧
    deprecated "t_raw_directive" (toString 20 ++ ".0") = true :=
  ⟨by decide, (deprecated_iff (by decide) 20).1.mpr (by decide)⟩

/-- A version before the first one has given up a feature, and one long after it has not. -/
theorem deprecated_nine_hundred : deprecated "t_raw_directive" (toString 9 ++ ".0") = true ∧
    deprecated "t_raw_directive" (toString 100 ++ ".0") = false := by decide

end AddonAudit.Release
