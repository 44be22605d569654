/-
  AddonAudit.Proofs.Text.Replacing — replacing a part of a text that is made of pieces.

  Where the part is one of the pieces, and no occurrence of it starts in the others, replacing it in
  the text is replacing it among the pieces.
-/
import AddonAudit.Text.Basic

namespace AddonAudit.Text

open List

variable {by_ a text : List Char}

theorem afterFront?_of_ne {c d : Char} (h : c ≠ d) (front text : List Char) :
    afterFront? (c :: front) (d :: text) = none := by
  rw [afterFront?, if_neg (by simpa using h)]

theorem afterFront?_eq_some_iff : ∀ {front text rest : List Char},
    afterFront? front text = some rest ↔ text = front ++ rest
  | [], text, rest => by simp [afterFront?]
  | f :: front, [], rest => by simp [afterFront?]
  | f :: front, c :: text, rest => by
    unfold afterFront?
    split
    · rename_i heq
      rw [afterFront?_eq_some_iff, cons_append, beq_iff_eq.mp heq, cons_inj_right]
    · rename_i hne
      simp [Ne.symm (by simpa using hne : f ≠ c)]

theorem replaceChars_of_ne_nil {part : List Char} (hpart : part ≠ []) (by_ text : List Char) :
    replaceChars part by_ text = replaceCount (text.length + 1) part by_ text := by
  rw [replaceChars, if_neg (by simpa using hpart)]

theorem toList_replace (s by_ : String) {part : String} (hpart : part ≠ "") :
    (replace s part by_).toList
      = replaceCount (s.toList.length + 1) part.toList by_.toList s.toList := by
  unfold replace
  rw [String.toList_ofList, replaceChars_of_ne_nil (by simpa using hpart)]

theorem cutFirst?_eq_some {part text a rest : List Char}
    (h : cutFirst? part text = some (a, rest)) : text = a ++ (part ++ rest) := by
  induction text generalizing a with
  | nil =>
    unfold cutFirst? at h
    split at h
    · rename_i hpart
      cases h
      simpa using hpart
    · cases h
  | cons c text ih =>
    unfold cutFirst? at h
    split at h
    · rename_i hafter
      cases h
      rw [nil_append]
      exact afterFront?_eq_some_iff.mp hafter
    · obtain ⟨⟨a', rest'⟩, hcut, heq⟩ := Option.map_eq_some_iff.mp h
      cases heq
      rw [ih hcut, cons_append]

/-- Replacing adds no characters but those that are put in. -/
theorem mem_replaceCount {fuel : Nat} {part by_ text : List Char} {c : Char}
    (h : c ∈ replaceCount fuel part by_ text) : c ∈ text ∨ c ∈ by_ := by
  induction fuel generalizing text with
  | zero => exact .inl h
  | succ fuel ih =>
    unfold replaceCount at h
    split at h
    · rename_i a rest hcut
      rw [cutFirst?_eq_some hcut]
      simp only [mem_append] at h ⊢
      rcases h with (h | h) | h
      · exact .inl (.inl h)
      · exact .inr h
      · exact (ih h).imp_left fun h => .inr (.inr h)
    · exact .inl h

theorem mem_replace {s part by_ : String} {c : Char} (hpart : part ≠ "")
    (h : c ∈ (replace s part by_).toList) : c ∈ s.toList ∨ c ∈ by_.toList := by
  rw [toList_replace s by_ hpart] at h
  exact mem_replaceCount h

/-- A text in which no occurrence of a part starts, whatever follows. -/
def Apart (part a : List Char) : Prop :=
  ∀ text, cutFirst? part (a ++ text) = (cutFirst? part text).map fun (x, y) => (a ++ x, y)

theorem Apart.of_not_mem {p : Char} (part : List Char) (h : p ∉ a) : Apart (p :: part) a := by
  intro text
  induction a with
  | nil => simp
  | cons c a ih =>
    rw [mem_cons, not_or] at h
    rw [cons_append, cutFirst?, afterFront?_of_ne h.1, ih h.2, Option.map_map]
    rfl

/-- A text in front that the sought part stands apart from is kept. -/
theorem Apart.replaceCount {part : List Char} (h : Apart part a) (fuel : Nat) :
    replaceCount fuel part by_ (a ++ text) = a ++ replaceCount fuel part by_ text := by
  cases fuel with
  | zero => rfl
  | succ fuel =>
    rw [Text.replaceCount, Text.replaceCount, h text]
    cases cutFirst? part text with
    | none => rfl
    | some cut => simp

section Pieces

variable {β : Type} {f g : β → List Char} {p : Char} {part : List Char} {xs : List β}

theorem replaceCount_flatMap (h : ∀ x ∈ xs, f x = p :: part ∧ g x = by_ ∨ Apart (p :: part) (f x) ∧
    g x = f x) {fuel : Nat} (hfuel :
    xs.length < fuel) : replaceCount fuel (p :: part) by_ (xs.flatMap f) = xs.flatMap g := by
  induction xs generalizing fuel with
  | nil => cases fuel <;> rfl
  | cons x xs ih =>
    rw [length_cons] at hfuel
    have ih := fun fuel => @ih (fun y hy => h y (mem_cons_of_mem x hy)) fuel
    rw [flatMap_cons, flatMap_cons]
    rcases h x mem_cons_self with ⟨hf, hg⟩ | ⟨hapart, hg⟩
    · cases fuel with
      | zero => omega
      | succ fuel =>
        have hcut : cutFirst? (p :: part) (p :: (part ++ xs.flatMap f)) =
            some ([], xs.flatMap f) := by
          rw [cutFirst?, afterFront?_eq_some_iff.mpr (cons_append ..).symm]
        rw [hf, hg, cons_append, replaceCount, hcut]
        dsimp only
        rw [ih fuel (by omega), nil_append]
    · rw [hapart.replaceCount, ih fuel (by omega), hg]

theorem length_le_flatMap (hf : ∀ x, f x ≠ []) (xs : List β) :
    xs.length ≤ (xs.flatMap f).length := by
  induction xs with
  | nil => exact Nat.le_refl _
  | cons x xs ih =>
    have hpos := length_pos_iff.mpr (hf x)
    rw [flatMap_cons, length_append, length_cons]
    omega

/-- **Replacing a part of a text replaces the pieces that are the part**, if it stands apart from
    all others. -/
theorem replaceChars_flatMap (hf : ∀ x, f x ≠ [])
    (h : ∀ x, f x = p :: part ∧ g x = by_ ∨ Apart (p :: part) (f x) ∧ g x = f x) (xs : List β) :
    replaceChars (p :: part) by_ (xs.flatMap f) = xs.flatMap g := by
  rw [replaceChars_of_ne_nil (cons_ne_nil p part)]
  exact replaceCount_flatMap (fun x _ => h x) (Nat.lt_succ_of_le (length_le_flatMap hf xs))

end Pieces

end AddonAudit.Text
