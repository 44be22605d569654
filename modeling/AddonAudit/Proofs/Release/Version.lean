/-
  AddonAudit.Proofs.Release.Version — canonical versions, and what counts as supported.

  A version is brought into a form that is not changed again: one that is supported by name, or
  decimal digits of any script with `.0` after them.  Whatever is no version at all becomes the
  fallback, so that it counts as supported.
-/
import AddonAudit.Proofs.Placeholder.Arguments
import AddonAudit.Release.Version

namespace AddonAudit

open List

/-! ## §1. Decimal digits are no blanks and have no case. -/

namespace Text

variable {c : Char}

/-- `addSign` with the numbers in reverse, which is evaluated much faster. -/
def consSign (acc : List Nat × Nat) (c : Char) : List Nat × Nat :=
  if c.isUpper then (acc.1, acc.2 * 26 + (c.toNat - 'A'.toNat))
  else if c.isDigit then ((acc.2 * 36 + (c.toNat - '0'.toNat)) :: acc.1, 0)
  else if c.isLower then ((acc.2 * 36 + (c.toNat - 'a'.toNat + 10)) :: acc.1, 0)
  else acc

theorem foldl_addSign (cs : List Char) (acc : Array Nat × Nat) :
    (cs.foldl addSign acc).1.toList
      = (cs.foldl consSign (acc.1.toList.reverse, acc.2)).1.reverse := by
  induction cs generalizing acc with
  | nil => simp
  | cons c cs ih =>
    have hsign : consSign (acc.1.toList.reverse, acc.2) c
        = ((addSign acc c).1.toList.reverse, (addSign acc c).2) := by
      unfold addSign consSign
      split
      · rfl
      · split
        · simp
        · split <;> simp
    rw [foldl_cons, foldl_cons, ih, hsign]

/-- No character with a lower case is among the ten from the zero of a block on. -/
theorem lowerMap_apart :
    (lowerMap.runs.all fun r => decimalZeros.all fun z =>
        z + 10 ≤ r.start || r.start + r.count * r.step ≤ z) ∧
      (lowerMap.expansions.all fun e => decimalZeros.all fun z => z + 10 ≤ e.1 || e.1 < z) := by
  unfold lowerMap CaseMap.ofTables
  rw [Braces.numbersOf_ofList, Braces.numbersOf_ofList, foldl_addSign, foldl_addSign]
  decide +kernel

/-- No blank is among them either. -/
theorem wideBlanks_apart : ∀ b ∈ Braces.wideBlanks, ∀ z ∈ decimalZeros, z + 10 ≤ b ∨ b < z := by
  decide +kernel

/-- Outside ASCII a decimal digit is one of the ten of a block. -/
theorem exists_zero_of_isDecimal (h : isDecimal c) (hwide : ¬ c.toNat < 128) :
    ∃ z ∈ decimalZeros, z ≤ c.toNat ∧ c.toNat < z + 10 := by
  rw [isDecimal, decimalValue?, if_neg hwide, Option.isSome_map, find?_isSome] at h
  simpa using h

theorem isBlank_of_isDecimal (h : isDecimal c) : isBlank c = false := by
  by_cases hascii : c.toNat < 128
  · rw [isDecimal_ascii hascii] at h
    exact Braces.isBlank_of_isDigit h
  · obtain ⟨z, hz, hfrom, hto⟩ := exists_zero_of_isDecimal h hascii
    rw [Bool.eq_false_iff]
    intro hblank
    have hapart := wideBlanks_apart _ (Braces.mem_wideBlanks hblank hascii) z hz
    omega

theorem lowerMap_image_of_isDecimal (h : isDecimal c) (hwide : ¬ c.toNat < 128) :
    lowerMap.image c = [c] := by
  obtain ⟨z, hz, hfrom, hto⟩ := exists_zero_of_isDecimal h hwide
  have hexpansions : lowerMap.expansions.find? (·.1 == c.toNat) = none := by
    refine find?_eq_none.mpr fun e he heq => ?_
    have hapart := all_eq_true.mp (all_eq_true.mp lowerMap_apart.2 e he) z hz
    simp only [beq_iff_eq, Bool.or_eq_true, decide_eq_true_eq] at heq hapart
    omega
  have hruns : lowerMap.runs.findSome? (·.image? c.toNat) = none := by
    refine findSome?_eq_none_iff.mpr fun r hr => ?_
    have hapart := all_eq_true.mp (all_eq_true.mp lowerMap_apart.1 r hr) z hz
    simp only [Bool.or_eq_true, decide_eq_true_eq] at hapart
    rw [CaseRun.image?, if_neg]
    simp only [Bool.and_eq_true, decide_eq_true_eq]
    omega
  rw [CaseMap.image, CaseMap.image?, hexpansions, hruns]
  rfl

theorem lowerChar_of_isDecimal (h : isDecimal c) (before after : List Char) :
    lowerChar before c after = [c] := by
  unfold lowerChar
  split
  · rename_i hascii
    rw [isDecimal_ascii hascii] at h
    have hbounds := Braces.isDigit_bounds h
    have hlower : c.toLower = c := by
      refine dif_neg fun hupper => ?_
      have hle : 65 ≤ c.toNat := hupper.1
      omega
    rw [hlower]
  · rename_i hwide
    have hsigma : c ≠ 'Σ' := fun heq => absurd h (by rw [heq]; decide)
    rw [if_neg (by simpa using hsigma), lowerMap_image_of_isDecimal h hwide]

/-- A text without capital letters is its own lower case. -/
theorem lower_eq_self {s : String}
    (h : ∀ c ∈ s.toList, ∀ before after, lowerChar before c after = [c]) : lower s = s := by
  have hgo : ∀ cs before, (∀ c ∈ cs, c ∈ s.toList) → lowerChars.go before cs = cs := by
    intro cs
    induction cs with
    | nil => exact fun _ _ => rfl
    | cons c cs ih =>
      intro before hcs
      rw [lowerChars.go, h c (hcs c mem_cons_self), ih _ fun d hd => hcs d (mem_cons_of_mem c hd)]
      rfl
  rw [lower, lowerChars, hgo _ _ fun _ => id, String.ofList_toList]

/-- A text without blanks has none around it. -/
theorem strip_eq_self {s : String} (h : ∀ c ∈ s.toList, isBlank c = false) : strip s = s := by
  rw [strip, stripChars, Braces.dropWhile_of_forall h, dropTailWhile,
    Braces.dropWhile_of_forall fun c hc => h c (mem_reverse.mp hc), reverse_reverse,
    String.ofList_toList]

end Text

/-! ## §2. Canonical versions. -/

namespace Release

open Braces (valueOf)
open Text (isDecimal)

variable {v : String} {digits : List Char}

/-- A version that is made of decimal digits and `.0`. -/
structure Numbered (v : String) (digits : List Char) : Prop where
  ne_nil : digits ≠ []
  decimal : ∀ c ∈ digits, isDecimal c = true
  text : v = String.ofList (digits ++ ['.', '0'])

theorem Numbered.unique {digits' : List Char} (h : Numbered v digits) (h' : Numbered v digits') :
    digits' = digits :=
  append_cancel_right (String.ofList_injective (h'.text.symm.trans h.text))

theorem Numbered.toList (h : Numbered v digits) : v.toList = digits ++ ['.', '0'] := by
  rw [h.text, String.toList_ofList]

/-- Nothing has to be cleaned up. -/
theorem Numbered.clean (h : Numbered v digits) : clean v = v := by
  have hmem : ∀ c ∈ v.toList, isDecimal c ∨ c = '.' := by
    intro c hc
    rw [h.toList] at hc
    simp only [mem_append, mem_cons, not_mem_nil, or_false] at hc
    rcases hc with hc | rfl | rfl
    · exact .inl (h.decimal c hc)
    · exact .inr rfl
    · exact .inl rfl
  have hlower : Text.lower v = v := Text.lower_eq_self fun c hc before after => by
    rcases hmem c hc with hc | rfl
    · exact Text.lowerChar_of_isDecimal hc before after
    · rfl
  have hstrip : Text.strip v = v := Text.strip_eq_self fun c hc => by
    rcases hmem c hc with hc | rfl
    · exact Text.isBlank_of_isDecimal hc
    · rfl
  have hlead : Text.dropLeading (· == 'v') v = v := by
    rw [Text.dropLeading, Braces.dropWhile_of_forall, String.ofList_toList]
    intro c hc
    rw [beq_eq_false_iff_ne]
    rintro rfl
    exact absurd (hmem 'v' hc) (by decide)
  have hpoint : (v.toList.all Text.isDigitLike) = false := by
    rw [all_eq_false]
    exact ⟨'.', by simp [h.toList], by decide⟩
  rw [Release.clean, hlower, hstrip, hlead]
  simp [hpoint]

/-- A version that is supported starts with no shorter one. -/
theorem Numbered.find?_eq_none (h : Numbered v digits) (hno : v ∉ supported) :
    supported.find? (Text.startsWith · v) = none := by
  refine List.find?_eq_none.mpr fun s hs hstarts => hno ?_
  rw [Text.startsWith, isPrefixOf_iff_prefix] at hstarts
  have hshape : ∀ s ∈ supported, s.toList.length = 4 ∧ s.toList[1]? ≠ some '.' := by decide
  obtain ⟨hlength, hsecond⟩ := hshape s hs
  have hle := hstarts.length_le
  -- one digit would put the point in the second place
  have hdigits : digits.length = 2 := by
    rw [hlength, h.toList, length_append, length_cons, length_cons, length_nil] at hle
    have hpos := length_pos_iff.mpr h.ne_nil
    by_contra hne
    obtain ⟨rest, hrest⟩ := hstarts
    have hone : digits.length = 1 := by omega
    rw [← hrest, h.toList, append_assoc, getElem?_append_right (by omega), hone] at hsecond
    exact hsecond rfl
  have heq := hstarts.eq_of_length (by rw [hlength, h.toList, length_append, hdigits]; rfl)
  rw [String.toList_inj.mp heq]
  exact hs

theorem majorDigits?_eq_some_iff {ds : List Nat} : majorDigits? v = some ds ↔
    ∃ digits, Numbered v digits ∧ digits.filterMap Text.decimalValue? = ds := by
  constructor
  · intro h
    unfold majorDigits? at h
    dsimp only at h
    split at h
    · cases h
    · rename_i hshape
      simp only [Bool.or_eq_true, List.isEmpty_iff, bne_iff_ne, not_or, not_not] at hshape
      refine ⟨_, ⟨hshape.1, fun c hc => List.mem_takeWhile_imp hc, ?_⟩, Option.some.inj h⟩
      have hwhole := prefix_iff_eq_append.mp ( takeWhile_prefix isDecimal (l := v.toList))
      rw [hshape.2] at hwhole
      rw [← String.toList_inj, String.toList_ofList]
      exact hwhole.symm
  · rintro ⟨digits, h, rfl⟩
    have hrun : v.toList.takeWhile isDecimal = digits := by
      rw [h.toList, takeWhile_append_of_pos h.decimal]
      simp [show isDecimal '.' = false by decide]
    unfold majorDigits?
    dsimp only
    rw [hrun, h.toList, drop_left, if_neg]
    simp [h.ne_nil]

theorem Numbered.length_values (h : Numbered v digits) :
    (digits.filterMap Text.decimalValue?).length = digits.length := by
  rw [length_filterMap_eq_countP, countP_eq_length]
  exact h.decimal

theorem contains_of_find?_eq_none (h : supported.find? (Text.startsWith · v) = none) :
    supported.contains v = false := by
  rw [Bool.eq_false_iff]
  intro hmem
  have hself := find?_eq_none.mp h v (contains_iff_mem.mp hmem)
  exact hself ( isPrefixOf_iff_prefix.mpr (prefix_refl _))

/-- What becomes of a version that no supported one starts with. -/
theorem normalize_of_find?_eq_none (h : supported.find? (Text.startsWith · (clean v)) = none) :
    (∀ digits, Numbered (clean v) digits → normalize v =
      if Decimal.maxDigits < digits.length then .error (.tooManyDigits digits.length)
      else .ok (if firstMajor ≤ valueOf digits then clean v else fallback)) ∧
    ((∀ digits, ¬ Numbered (clean v) digits) → normalize v = .ok fallback) := by
  unfold normalize
  dsimp only
  rw [contains_of_find?_eq_none h, h, if_neg Bool.false_ne_true]
  refine ⟨fun digits hdigits => ?_, fun hnone => ?_⟩
  · rw [majorDigits?_eq_some_iff.mpr ⟨digits, hdigits, rfl⟩, ← hdigits.length_values]
    unfold tooLong valueOf
    dsimp only
    split
    · rfl
    · rfl
  · cases hmajor : majorDigits? (clean v) with
    | none => rfl
    | some ds =>
      obtain ⟨digits, hdigits, -⟩ := majorDigits?_eq_some_iff.mp hmajor
      exact absurd hdigits (hnone digits)

/-- A version that is supported or late enough, with no more digits than can be read. -/
def Canonical (v : String) : Prop := v ∈ supported ∨
  ∃ digits, Numbered v digits ∧ digits.length ≤ Decimal.maxDigits ∧ firstMajor ≤ valueOf digits

theorem normalize_eq_self (h : Canonical v) : normalize v = .ok v := by
  by_cases hmem : v ∈ supported
  · have hall : ∀ v ∈ supported, (normalize v).toOption = some v := by decide +kernel
    obtain ⟨_, hv, rfl⟩ := Traversal.ok_of_toOption_map (g := id) (by simpa using hall v hmem)
    exact hv
  · obtain ⟨digits, hdigits, hshort, hlate⟩ := h.resolve_left hmem
    have hclean := hdigits.clean
    have hrest := normalize_of_find?_eq_none (v := v)
      (by rw [hclean]; exact hdigits.find?_eq_none hmem)
    rw [hclean] at hrest
    rw [hrest.1 digits hdigits, if_neg (by omega), if_pos hlate]

theorem canonical_of_normalize {r : String} (h : normalize v = .ok r) : Canonical r := by
  have hfallback : fallback ∈ supported := by decide
  cases hfind : supported.find? (Text.startsWith · (clean v)) with
  | some s =>
    left
    unfold normalize at h
    dsimp only at h
    rw [hfind] at h
    split at h
    · rename_i hmem
      rw [← Except.ok.inj h]
      exact contains_iff_mem.mp hmem
    · rw [← Except.ok.inj h]
      exact mem_of_find?_eq_some hfind
  | none =>
    obtain ⟨hnumbered, hother⟩ := normalize_of_find?_eq_none hfind
    by_cases hdigits : ∃ digits, Numbered (clean v) digits
    · obtain ⟨digits, hdigits⟩ := hdigits
      rw [hnumbered digits hdigits] at h
      split at h
      · cases h
      · rw [← Except.ok.inj h]
        split
        · exact .inr ⟨digits, hdigits, by omega, ‹_›⟩
        · exact .inl hfallback
    · rw [hother fun digits h => hdigits ⟨digits, h⟩] at h
      rw [← Except.ok.inj h]
      exact .inl hfallback

/-- **Normal forms**: what a version is brought into is supported by name or is a number from the
    first major one on, in decimal digits and with `.0` after it, and it is not changed again. -/
theorem normalize_canonical {r : String} (h : normalize v = .ok r) :
    (r ∈ supported ∨ ∃ digits, Numbered r digits ∧ firstMajor ≤ valueOf digits) ∧
    normalize r = .ok r :=
  have hform := canonical_of_normalize h
  ⟨hform.imp_right fun ⟨digits, hdigits, _, hlate⟩ => ⟨digits, hdigits, hlate⟩,
    normalize_eq_self hform⟩

/-- Blanks, a leading letter and its case are dropped, and the rest is completed. -/
theorem normalize_canonical_late : normalize " V20 " = .ok "20.0" ∧ normalize "20.0" = .ok "20.0" ∧
    ("20.0" ∈ supported ∨ ∃ digits, Numbered "20.0" digits ∧ firstMajor ≤ valueOf digits) := by
  obtain ⟨_, hlate, rfl⟩ : ∃ r, normalize " V20 " = .ok r ∧ r = "20.0" :=
    Traversal.ok_of_toOption_map (by decide +kernel)
  exact ⟨hlate, (normalize_canonical hlate).2, (normalize_canonical hlate).1⟩

/-! ## §3. Versions that count as supported. -/

/-- **What is no version counts as supported.**  A text that no supported version starts with does
    not count as one exactly if it is a later version; a number that is too long is a fault, and
    everything else counts. -/
theorem isSupported_unrecognised (h : ∀ s ∈ supported, Text.startsWith s (clean v) = false) :
    (isSupported (.text v) = .ok false ↔
      ∃ digits, Numbered (clean v) digits ∧
        digits.length ≤ Decimal.maxDigits ∧ firstMajor ≤ valueOf digits) ∧
    (isSupported (.text v) = .ok true ↔
      ∀ digits, Numbered (clean v) digits →
        digits.length ≤ Decimal.maxDigits ∧ valueOf digits < firstMajor) := by
  have hnone : supported.find? (Text.startsWith · (clean v)) = none := by
    simpa using h
  have hno := contains_of_find?_eq_none hnone
  have hfallback : supported.contains fallback = true := by decide
  obtain ⟨hnumbered, hother⟩ := normalize_of_find?_eq_none hnone
  have htext : isSupported (.text v) = (normalize v).map supported.contains := by
    rw [isSupported, normalizeDatum]
    cases normalize v <;> rfl
  rw [htext]
  by_cases hdigits : ∃ digits, Numbered (clean v) digits
  · obtain ⟨digits, hdigits⟩ := hdigits
    have hunique {p : List Char → Prop} : (∃ ds, Numbered (clean v) ds ∧ p ds) ↔ p digits :=
      ⟨fun ⟨_, hds, hp⟩ => hdigits.unique hds ▸ hp, fun hp => ⟨digits, hdigits, hp⟩⟩
    have hunique' {p : List Char → Prop} : (∀ ds, Numbered (clean v) ds → p ds) ↔ p digits :=
      ⟨fun hall => hall digits hdigits, fun hp _ hds => hdigits.unique hds ▸ hp⟩
    rw [hunique, hunique', hnumbered digits hdigits]
    by_cases hlong : Decimal.maxDigits < digits.length
    · simp [hlong, Except.map, Nat.not_le.mpr hlong]
    · by_cases hlate : firstMajor ≤ valueOf digits
      · simp only [hlong, hlate, if_true, if_false, Except.map, hno]
        simp [Nat.not_lt.mp hlong, hlate]
      · simp only [hlong, hlate, if_false, Except.map, hfallback]
        simp [Nat.not_lt.mp hlong, Nat.not_le.mp hlate]
  · have hnot := not_exists.mp hdigits
    rw [hother hnot, Except.map, hfallback]
    exact ⟨iff_of_false (by simp) fun ⟨digits, h, _⟩ => hnot digits h,
      iff_of_true rfl fun digits h => absurd h (hnot digits)⟩

theorem isSupported_unrecognised_late : isSupported (.text "20.0") = .ok false := by
  have hclean : clean "20.0" = "20.0" := by decide +kernel
  have hdigits : Numbered "20.0" ['2', '0'] := ⟨by decide, by simp; decide, by decide⟩
  refine (isSupported_unrecognised (v := "20.0") (by rw [hclean]; decide)).1.mpr
    ⟨['2', '0'], ?_, by decide, by decide⟩
  rw [hclean]
  exact hdigits

/-- A text that is no version at all counts as supported. -/
theorem isSupported_banana : (∀ s ∈ supported, Text.startsWith s (clean "banana") = false) ∧
    isSupported (.text "banana") = .ok true := by
  refine ⟨by decide +kernel, ?_⟩
  obtain ⟨_, h, rfl⟩ := Traversal.ok_of_toOption_map (g := id)
    (by decide +kernel : (isSupported (.text "banana")).toOption.map id = some true)
  exact h

end Release

end AddonAudit
