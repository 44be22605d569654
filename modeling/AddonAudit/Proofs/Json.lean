/-
  AddonAudit.Proofs.Json — texts in documents are read back.

  A text is written between quotes, with escapes for what is not printable ASCII, in pairs where a
  code point needs two units.  Reading undoes this character by character.
-/
import AddonAudit.Json

namespace AddonAudit.Json

open List

/-! ## §1. Digits -/

/-- The digits of a number are hexadecimal ones and have its value. -/
theorem digitsValue_toDigits (n : Nat) : Decimal.digitsValue 16 (Nat.toDigits 16 n) = n ∧
    ∀ c ∈ Nat.toDigits 16 n, Decimal.isHexDigit c := by
  have hdigit : ∀ d < 16, Decimal.digitValue d.digitChar = d ∧ Decimal.isHexDigit d.digitChar := by
    decide
  induction n using Nat.strongRecOn with
  | ind n ih =>
    rw [Nat.toDigits_eq_if (by decide)]
    split
    · rename_i hn
      simp [Decimal.digitsValue, hdigit n hn]
    · obtain ⟨hvalue, hall⟩ := ih (n / 16) (by omega)
      have hlast := hdigit (n % 16) (Nat.mod_lt n (by decide))
      unfold Decimal.digitsValue at hvalue ⊢
      rw [foldl_append, hvalue, foldl_cons, foldl_nil, hlast.1, Nat.div_add_mod']
      simp only [mem_append, mem_singleton]
      exact ⟨trivial, fun c hc => hc.elim (hall c) fun heq => heq ▸ hlast.2⟩

/-- A code unit is read back from its four digits. -/
theorem takeHex?_hexPadded {n : Nat} (h : n < 0x10000) (rest : List Char) :
    Decimal.takeHex? 4 ((Text.hexPadded 4 n).toList ++ rest) = some (n, rest) := by
  obtain ⟨hvalue, hall⟩ := digitsValue_toDigits n
  have hle : (Nat.toDigits 16 n).length ≤ 4 :=
    (Nat.length_toDigits_le_iff (by decide) (by decide)).mpr h
  have hlist : (Text.hexPadded 4 n).toList
      = replicate (4 - (Nat.toDigits 16 n).length) '0' ++ Nat.toDigits 16 n := by
    simp [Text.hexPadded]
  have hlength : (Text.hexPadded 4 n).toList.length = 4 := by
    rw [hlist, length_append, length_replicate]
    omega
  have hhex : (Text.hexPadded 4 n).toList.all Decimal.isHexDigit := by
    rw [hlist, all_append, all_replicate, Bool.and_eq_true]
    refine ⟨?_, all_eq_true.mpr hall⟩
    split <;> rfl
  -- zeros in front do not count
  have hzeros : ∀ k, (replicate k '0').foldl (fun n c => n * 16 + Decimal.digitValue c) 0 = 0 := by
    intro k
    induction k with
    | zero => rfl
    | succ k ih => exact ih
  have hread : Decimal.digitsValue 16 (Text.hexPadded 4 n).toList = n := by
    rw [Decimal.digitsValue, hlist, foldl_append, hzeros]
    exact hvalue
  rw [Decimal.takeHex?, take_left' hlength, drop_left' hlength, hlength, hhex, hread]
  rfl

/-! ## §2. Texts -/

variable (opening acc rest : List Char)

theorem readString_unitEscape {n : Nat} (h : n < 0x10000) (fuel : Nat) :
    readString opening (fuel + 1) acc ((unitEscape n).toList ++ rest)
      = readString opening fuel ((unitChar n rest).1 :: acc) (unitChar n rest).2 := by
  rw [unitEscape, String.toList_append]
  show readString opening (fuel + 1) acc ('\\' :: 'u' :: ((Text.hexPadded 4 n).toList ++ rest)) = _
  rw [readString, takeHex?_hexPadded h]

/-- Two units that form a pair are one character. -/
theorem unitChar_pair {n : Nat} (h : n < 0x100000) :
    unitChar (0xd800 + n / 0x400) ((unitEscape (0xdc00 + n % 0x400)).toList ++ rest)
      = (Char.ofNat (0x10000 + n), rest) := by
  have hhex := takeHex?_hexPadded (n := 0xdc00 + n % 0x400) (by omega) rest
  unfold unitChar
  rw [if_pos (by simp; omega), unitEscape, String.toList_append, append_assoc]
  simp only [String.reduceToList, cons_append, nil_append, hhex]
  rw [if_pos (by simp; omega), Nat.add_sub_cancel_left, Nat.add_sub_cancel_left, Nat.add_assoc,
    Nat.div_add_mod']

/-- **One step of reading takes what was written for one character.** -/
theorem readString_writeChar (fuel : Nat) (c : Char) :
    readString opening (fuel + 1) acc ((writeChar c).toList ++ rest)
      = readString opening fuel (c :: acc) rest := by
  have hvalid : c.toNat < 0xd800 ∨ 0xdfff < c.toNat ∧ c.toNat < 0x110000 := c.valid
  unfold writeChar
  by_cases hspecial : c ∈ ['"', '\\', '\n', '\r', '\t', '\x08', '\x0c']
  · simp only [mem_cons, not_mem_nil, or_false] at hspecial
    rcases hspecial with rfl | rfl | rfl | rfl | rfl | rfl | rfl <;> rfl
  simp only [mem_cons, not_mem_nil, or_false, not_or] at hspecial
  simp only [beq_iff_eq, hspecial, if_false]
  split
  · -- a character that stands for itself
    rename_i hplain
    have hlow : ¬ c.toNat < 32 := by
      simp only [Bool.and_eq_true, decide_eq_true_eq] at hplain
      omega
    rw [show c.toString.toList = [c] from String.toList_singleton c, singleton_append, readString,
      if_neg hlow]
    · exact hspecial.1
    · exact hspecial.2.1
  split
  · -- one unit, which is half of no pair
    rename_i hunit
    have hchar : unitChar c.toNat rest = (c, rest) := by
      unfold unitChar
      rw [if_neg (by simp; omega), if_neg (by simp; omega), Char.ofNat_toNat]
    rw [readString_unitEscape _ _ _ hunit, hchar]
  · rw [String.toList_append, append_assoc, readString_unitEscape _ _ _ (by omega),
      unitChar_pair _ (by omega), Nat.add_sub_cancel' (by omega), Char.ofNat_toNat]

theorem readString_written {cs : List Char} : ∀ {fuel : Nat} {acc : List Char},
    (cs.flatMap fun c => (writeChar c).toList).length < fuel →
      readString opening fuel acc ((cs.flatMap fun c => (writeChar c).toList) ++ '"' :: rest)
        = .ok (String.ofList (acc.reverse ++ cs), rest) := by
  induction cs with
  | nil =>
    intro fuel acc h
    obtain ⟨fuel, rfl⟩ := Nat.exists_eq_succ_of_ne_zero (Nat.ne_of_gt h)
    rw [append_nil]
    rfl
  | cons c cs ih =>
    intro fuel acc h
    have hpos : 0 < (writeChar c).toList.length := by
      refine length_pos_iff.mpr fun hnil => ?_
      have hstep := readString_writeChar [] [] ['"'] 0 c
      rw [hnil] at hstep
      cases hstep
    rw [flatMap_cons, length_append] at h
    obtain ⟨fuel, rfl⟩ := Nat.exists_eq_succ_of_ne_zero (show fuel ≠ 0 by omega)
    rw [flatMap_cons, append_assoc, readString_writeChar, ih (by omega), reverse_cons, append_assoc]
    rfl

/-- **A text that was written is read back**, whatever follows it. -/
theorem readValue_writeText (s : String) (fuel : Nat) :
    readValue (fuel + 1) ((writeText s).toList ++ rest) = .ok (.text s, rest) := by
  have hfold : ∀ (cs : List Char) (acc : String),
      (cs.foldl (fun acc c => acc ++ writeChar c) acc).toList
        = acc.toList ++ cs.flatMap fun c => (writeChar c).toList := by
    intro cs
    induction cs with
    | nil => exact fun acc => (append_nil _).symm
    | cons c cs ih =>
      intro acc
      rw [foldl_cons, ih, String.toList_append, append_assoc, flatMap_cons]
  have hwritten : (writeText s).toList ++ rest
      = '"' :: ((s.toList.flatMap fun c => (writeChar c).toList) ++ '"' :: rest) := by
    rw [writeText, String.toList_append, hfold, append_assoc, append_assoc]
    rfl
  rw [hwritten, readValue, readString_written]
  · rw [reverse_nil, nil_append, String.ofList_toList]
    rfl
  · rw [length_cons, length_append]
    omega

end AddonAudit.Json
