/-
  AddonAudit.Proofs.Badge.Encoding — what becomes of a message in the address of a badge.

  Spaces are escaped first and percent signs last, so that the escape of a space is escaped once
  more.  Who reads the address decodes it and takes two hyphens for one: what is read is the
  message, with the escape of a space in place of each space.
-/
import AddonAudit.Badge.Basic
import AddonAudit.Proofs.Text.Replacing

namespace AddonAudit.Badge

open List

/-! ## §1. Reading an address. -/

/-- A text with its escapes of ASCII characters decoded. -/
def decoded : List Char → List Char
  | '%' :: a :: b :: rest =>
    if Decimal.isHexDigit a && Decimal.isHexDigit b then Char.ofNat (Decimal.digitsValue 16 [a, b])
      :: decoded rest
    else '%' :: decoded (a :: b :: rest)
  | c :: rest => c :: decoded rest
  | [] => []

/-- The message that a part of an address shows. -/
def restored (part : String) : String := Text.replace (String.ofList (decoded part.toList)) "--" "-"

/-- A message with its spaces escaped. -/
def spaced (message : String) : String := Text.replace message " " "%20"

/-! ## §2. One character. -/

/-- How a character of a message stands in an address. -/
def written (c : Char) : List Char :=
  if c = ' ' then "%2520".toList else if c = '-' then "--".toList else if c =
    '%' then "%25".toList else [c]

/-- What is decoded of it. -/
def unescaped (c : Char) :
    List Char := if c = ' ' then "%20".toList else if c = '-' then "--".toList else [c]

/-- What is shown of it. -/
def shown (c : Char) : List Char := if c = ' ' then "%20".toList else [c]

theorem decoded_cons_of_ne {c : Char} (h : c ≠ '%') (rest : List Char) :
    decoded (c :: rest) = c :: decoded rest := by
  rw [decoded]
  rintro a b rest' rfl
  exact absurd rfl h

theorem decoded_written (c : Char) (rest : List Char) :
    decoded (written c ++ rest) = unescaped c ++ decoded rest := by
  unfold written unescaped
  split
  · rw [show "%2520".toList ++ rest = '%' :: '2' :: '5' :: '2' :: '0' :: rest from rfl, decoded,
      if_pos (by decide), decoded_cons_of_ne (by decide), decoded_cons_of_ne (by decide)]
    rfl
  · split
    · rw [show "--".toList ++ rest = '-' :: '-' :: rest from rfl, decoded_cons_of_ne (by decide),
        decoded_cons_of_ne (by decide)]
      rfl
    · split
      · rename_i hc
        rw [show "%25".toList ++ rest = '%' :: '2' :: '5' :: rest from rfl, decoded,
          if_pos (by decide), hc]
        rfl
      · rename_i hc
        exact decoded_cons_of_ne hc rest

/-! ## §3. A message. -/

/-- Replacing one character replaces each of its occurrences. -/
theorem toList_replace_char {part by_ : String} {p : Char} (hpart : part.toList = [p])
    (s : String) : (Text.replace s part by_).toList = s.toList.flatMap fun c => if c =
    p then by_.toList else [c] := by
  have hpieces : Text.replaceChars [p] by_.toList (s.toList.flatMap fun c => [c])
      = s.toList.flatMap fun c => if c = p then by_.toList else [c] := by
    refine Text.replaceChars_flatMap (by simp) (fun c => ?_) s.toList
    by_cases hc : c = p
    · exact .inl ⟨by rw [hc], if_pos hc⟩
    · exact .inr ⟨.of_not_mem [] (by simpa using Ne.symm hc), if_neg hc⟩
  rw [Text.replace, String.toList_ofList, hpart, ← hpieces]
  simp

theorem toList_spaced (message : String) : (spaced message).toList = message.toList.flatMap shown :=
  toList_replace_char (by decide) message

theorem toList_encodeMessage (message : String) :
    (encodeMessage message).toList = message.toList.flatMap written := by
  unfold encodeMessage encodeLabel
  rw [toList_replace_char (p := '%') (by decide), toList_replace_char (p := '-') (by decide),
    toList_replace_char (p := ' ') (by decide), flatMap_assoc, flatMap_assoc]
  congr 1
  funext c
  unfold written
  by_cases hspace : c = ' '
  · rw [if_pos hspace, if_pos hspace]
    decide
  · rw [if_neg hspace, if_neg hspace]
    by_cases hhyphen : c = '-'
    · rw [hhyphen]
      decide
    · by_cases hpercent : c = '%' <;> simp [hhyphen, hpercent]

theorem decoded_encodeMessage (message : String) :
    decoded (encodeMessage message).toList = message.toList.flatMap unescaped := by
  rw [toList_encodeMessage]
  induction message.toList with
  | nil => rfl
  | cons c cs ih => rw [flatMap_cons, flatMap_cons, decoded_written, ih]

/-- **What is read of a message**: the message with its spaces escaped. -/
theorem restored_encodeMessage (message : String) :
    restored (encodeMessage message) = spaced message := by
  rw [← String.toList_inj, toList_spaced, restored, decoded_encodeMessage, Text.replace,
    String.toList_ofList]
  simp only [String.toList_ofList]
  show Text.replaceChars ['-', '-'] ['-'] _ = _
  unfold unescaped shown
  refine Text.replaceChars_flatMap (fun c => ?_) (fun c => ?_) _
  · split
    · decide
    · split <;> simp
  · by_cases hspace : c = ' '
    · exact .inr ⟨.of_not_mem ['-'] (by simp [hspace]), by simp [hspace]⟩
    · by_cases hhyphen : c = '-'
      · exact .inl ⟨by simp [hhyphen], by simp [hhyphen]⟩
      · exact .inr ⟨.of_not_mem ['-'] (by simp [hspace, hhyphen, Ne.symm hhyphen]), by simp [hspace,
          hhyphen]⟩

theorem spaced_eq_iff {message : String} : spaced message = message ↔ ' ' ∉ message.toList := by
  rw [← String.toList_inj, toList_spaced]
  induction message.toList with
  | nil => simp
  | cons c cs ih =>
    by_cases hc : c = ' '
    · simp [shown, hc]
    · simp [shown, hc, Ne.symm hc, ih]

/-- **A message survives exactly if it has no space.**  The address of a badge shows its message
    between two hyphens; what is read there is the message with the escape of a space in place of
    each space. -/
theorem url_restores (b : Badge) :
    ∃ part tail, b.url = "https://img.shields.io/badge/" ++ encodeLabel b.label ++ "-" ++ part ++
        "-" ++ b.color ++ tail ∧
      restored part = spaced b.message ∧ (restored part = b.message ↔ ' ' ∉ b.message.toList) :=
  ⟨encodeMessage b.message, _, rfl, restored_encodeMessage b.message, by
    rw [restored_encodeMessage, spaced_eq_iff]⟩

/-- **A message that is shown with an escape in it.** -/
theorem restored_review_needed : restored (encodeMessage "review needed") = "review%20needed" := by
  decide +kernel

end AddonAudit.Badge
