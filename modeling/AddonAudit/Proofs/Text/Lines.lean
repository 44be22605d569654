/-
  AddonAudit.Proofs.Text.Lines — texts made of parts that are searched line by line.

  Cutting a text into lines drops its line ends.  If these are parts of their own in which there is
  nothing to find, what is found line by line is what is found in the whole text.
-/
import AddonAudit.Text.Basic

namespace AddonAudit.Text

open List

theorem go_char {c : Char} {line cs : List Char} (h : ¬ (c = '\r' ∧ ∃ rest, cs = '\n' :: rest)) :
    linesOfChars.go line (c :: cs)
      = if isLineBreak c then line.reverse :: linesOfChars.go [] cs else linesOfChars.go
      (c :: line) cs := by
  rw [linesOfChars.go]
  exact fun rest hc hcs => h ⟨hc, rest, hcs⟩

/-- Characters that end no line stay on the open one. -/
theorem go_append {front : List Char} (h : ∀ c ∈ front, isLineBreak c = false) : ∀ line cs :
    List Char, linesOfChars.go line (front ++ cs) = linesOfChars.go (front.reverse ++ line) cs := by
  induction front with
  | nil => exact fun _ _ => rfl
  | cons c front ih =>
    intro line cs
    obtain ⟨hc, hfront⟩ := forall_mem_cons.mp h
    have hnot : ¬ (c = '\r' ∧ ∃ rest, front ++ cs = '\n' :: rest) := by
      rintro ⟨rfl, -⟩
      exact absurd hc (by decide)
    rw [cons_append, go_char hnot, if_neg (by simp [hc]), ih hfront]
    simp

section Parts

variable {π β : Type} {written : π → List Char} {slots : π → List β} {find : List Char → List β}
  (hfind : ∀ ps : List π, find (ps.flatMap written) = ps.flatMap slots)
  (hwhole : ∀ p, (∀ c ∈ written p, isLineBreak c = false) ∨ (∃ c, written p = [c]) ∧ slots p = [])

include hfind hwhole

/-- **Line ends hide nothing**: what is found behind the parts `qs` of an open line. -/
theorem flatMap_go (ps : List π) : ∀ qs : List π,
    (linesOfChars.go (qs.flatMap written).reverse (ps.flatMap written)).flatMap find =
    (qs ++ ps).flatMap slots := by
  have hnothing : find [] = [] := hfind []
  induction ps with
  | nil =>
    intro qs
    rw [append_nil, ← hfind qs]
    show flatMap find (if _ then [] else [(qs.flatMap written).reverse.reverse]) = _
    rw [reverse_reverse]
    cases qs.flatMap written <;> simp [hnothing]
  | cons p ps ih =>
    intro qs
    have hclosed := ih []
    have hopen := ih (qs ++ [p])
    rw [flatMap_cons]
    -- a part without a line end stays in the open line
    by_cases hsolid : ∀ c ∈ written p, isLineBreak c = false
    · rw [go_append hsolid]
      simpa using hopen
    obtain ⟨⟨c, hc⟩, hslots⟩ := (hwhole p).resolve_left hsolid
    have hbreak : isLineBreak c := by simpa [hc] using hsolid
    have hgoal : (qs ++ p :: ps).flatMap slots = find (qs.flatMap written) ++ ps.flatMap slots := by
      rw [flatMap_append, flatMap_cons, hslots, hfind, nil_append]
    rw [hc, singleton_append, hgoal]
    by_cases hpair : c = '\r' ∧ ∃ rest, ps.flatMap written = '\n' :: rest
    · -- the second character of a line end would open and close an empty line
      obtain ⟨rfl, rest, hrest⟩ := hpair
      have hempty : linesOfChars.go [] ('\n' :: rest) = [] :: linesOfChars.go [] rest := rfl
      rw [hrest, flatMap_nil, reverse_nil, hempty, flatMap_cons, hnothing] at hclosed
      rw [hrest]
      show flatMap find ((qs.flatMap written).reverse.reverse :: linesOfChars.go [] rest) = _
      rw [flatMap_cons, reverse_reverse]
      exact congrArg _ hclosed
    · rw [go_char hpair, if_pos hbreak, flatMap_cons, reverse_reverse]
      exact congrArg _ hclosed

/-- **What is found line by line is what is found in the parts.** -/
theorem flatMap_linesOfChars (ps : List π) :
    (linesOfChars (ps.flatMap written)).flatMap find = ps.flatMap slots :=
    flatMap_go hfind hwhole ps []

end Parts

end AddonAudit.Text
