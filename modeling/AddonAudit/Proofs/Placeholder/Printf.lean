/-
  AddonAudit.Proofs.Placeholder.Printf — messages with the placeholders `%s` and `%d`.

  A simple message is made of parts: characters other than the percent sign, doubled percent signs,
  and the two placeholders.  Its arguments are found by dropping doubled signs and reading line by
  line, while it is filled from left to right as it stands.  Both see the same placeholders, however
  the parts adjoin, so that the verdict on a translation compares the placeholders of two messages
  one by one.
-/
import AddonAudit.Placeholder.Printf
import AddonAudit.Proofs.Text.Replacing

namespace AddonAudit.Printf

open List Text

/-! ## §1. Simple messages. -/

/-- A part of a simple message. -/
inductive Part where
  | char (c : Char) (h : c ≠ '%')
  | percent
  | slot (s : Sample)

/-- The letter of a placeholder. -/
def letter : Sample → Char
  | .text => 's'
  | .number => 'd'

/-- The characters of a part. -/
def Part.written : Part → List Char
  | .char c _ => [c]
  | .percent => ['%', '%']
  | .slot s => ['%', letter s]

/-- The characters of a message. -/
def written (ps : List Part) : List Char := ps.flatMap Part.written

/-- The stand-in for the argument of a placeholder. -/
def Part.slot? : Part → Option Sample
  | .slot s => some s
  | _ => none

/-- The placeholders of a message. -/
def slots (ps : List Part) : List Sample := ps.filterMap Part.slot?

/-- Whether a part is no doubled percent sign. -/
def Part.isBare : Part → Bool
  | .percent => false
  | _ => true

theorem written_cons (p : Part) (ps : List Part) : written (p :: ps) = p.written ++ written ps :=
    rfl

theorem Part.written_ne_nil (p : Part) : p.written ≠ [] := by cases p <;> exact cons_ne_nil _ _

/-! ## §2. What is found in a message. -/

/-- A percent sign with a letter, or a character that is none, stands apart from doubled signs. -/
theorem apart_of_isBare {p : Part} (hp : p.isBare) : Apart ['%', '%'] p.written := by
  cases p with
  | char c hc => exact .of_not_mem _ (by simpa [Part.written] using hc.symm)
  | percent => cases hp
  | slot s =>
    intro text
    -- the letter keeps the percent sign from meeting one behind it
    have hletter : '%' ≠ letter s := by cases s <;> decide
    rw [Part.written, cons_append, cons_append, nil_append, cutFirst?, afterFront?,
      if_pos (by decide), afterFront?_of_ne hletter, cutFirst?, afterFront?_of_ne hletter]
    cases cutFirst? ['%', '%'] text <;> rfl

/-- **Dropping doubled percent signs leaves the other parts.** -/
theorem replaceChars_written (ps : List Part) :
    replaceChars ['%', '%'] [] (written ps) = written (ps.filter Part.isBare) := by
  have hkept (qs : List Part) : qs.flatMap (fun p => if p.isBare then p.written else [])
      = written (qs.filter Part.isBare) := by
    induction qs with
    | nil => rfl
    | cons q qs ih =>
      rw [flatMap_cons, filter_cons, ih]
      cases q <;> rfl
  rw [← hkept]
  refine replaceChars_flatMap Part.written_ne_nil (fun p => ?_) ps
  cases p with
  | percent => exact .inl ⟨rfl, rfl⟩
  | char c hc => exact .inr ⟨apart_of_isBare rfl, rfl⟩
  | slot s => exact .inr ⟨apart_of_isBare rfl, rfl⟩

/-- What is found of a placeholder. -/
def found (s : Sample) : Placeholder := ⟨none, s⟩

theorem placeholder?_letter (s : Sample) (rest : List Char) :
    placeholder? (letter s :: rest) = some (found s, rest) := by
  cases s <;> rfl

/-- The placeholders of a line. -/
theorem placeholdersFrom_written (ps : List Part) (hbare : ∀ p ∈ ps, p.isBare) : ∀ fuel,
    (written ps).length < fuel → placeholdersFrom fuel (written ps) = (slots ps).map found := by
  induction ps with
  | nil =>
    intro fuel h
    cases fuel <;> rfl
  | cons p ps ih =>
    intro fuel h
    obtain ⟨hp, hps⟩ := forall_mem_cons.mp hbare
    rw [written_cons, length_append] at h
    rw [written_cons]
    cases fuel with
    | zero => omega
    | succ fuel =>
      cases p with
      | char c hc =>
        have hrest := ih hps fuel (by simp only [Part.written, length_singleton] at h; omega)
        show placeholdersFrom (fuel + 1) (c :: written ps) = _
        rw [placeholdersFrom]
        · exact hrest
        · exact fun h => hc h
      | percent => cases hp
      | slot s =>
        have hrest := ih hps fuel (by simp only [Part.written, length_cons, length_nil] at h; omega)
        show placeholdersFrom (fuel + 1) ('%' :: letter s :: written ps) = _
        rw [placeholdersFrom, placeholder?_letter]
        show found s :: placeholdersFrom fuel (written ps) = _
        rw [hrest]
        rfl

/-- What is found in a text, line by line. -/
def foundIn (lines : List (List Char)) : List Placeholder :=
  lines.flatMap fun line => placeholdersFrom (line.length + 1) line

theorem foundIn_cons (line : List Char) (lines : List (List Char)) :
    foundIn (line :: lines) = placeholdersFrom (line.length + 1) line ++ foundIn lines :=
    flatMap_cons

theorem go_char {c : Char} {line cs : List Char} (h : ¬ (c = '\r' ∧ ∃ rest, cs = '\n' :: rest)) :
    linesOfChars.go line (c :: cs) = if isLineBreak c then line.reverse :: linesOfChars.go [] cs
        else linesOfChars.go (c :: line) cs := by
  rw [linesOfChars.go]
  exact fun rest hc hcs => h ⟨hc, rest, hcs⟩

/-- **Line ends hide no placeholder**: what is found behind the parts `qs` of an open line. -/
theorem foundIn_go (ps : List Part) : ∀ qs : List Part, (∀ p ∈ qs ++ ps, p.isBare) →
    foundIn (linesOfChars.go (written qs).reverse (written ps)) = (slots (qs ++ ps)).map found := by
  induction ps with
  | nil =>
    intro qs hbare
    rw [append_nil] at hbare ⊢
    show foundIn (if (written qs).reverse.isEmpty then [] else [(written qs).reverse.reverse]) = _
    rw [← placeholdersFrom_written qs hbare _ (Nat.lt_succ_self _)]
    cases hline : written qs with
    | nil => rfl
    | cons c cs => simp [foundIn]
  | cons p ps ih =>
    intro qs hbare
    have hqs : ∀ q ∈ qs, q.isBare := fun q hq => hbare q (mem_append_left _ hq)
    have hps : ∀ q ∈ [] ++ ps, q.isBare := fun q hq => hbare q (by simp_all)
    -- the line that is open goes on behind the part
    have hopen := ih (qs ++ [p]) (by simpa using hbare)
    have hline := placeholdersFrom_written qs hqs _ (Nat.lt_succ_self _)
    rw [append_assoc, singleton_append] at hopen
    cases p with
    | char c hc =>
      have hslots : slots (qs ++ .char c hc :: ps) = slots qs ++ slots ps := filterMap_append
      by_cases hpair : c = '\r' ∧ ∃ rest, written ps = '\n' :: rest
      · -- the second character of a line end would open and close an empty line
        obtain ⟨rfl, rest, hrest⟩ := hpair
        have hnext := ih [] hps
        rw [hrest] at hnext
        have hempty : foundIn (linesOfChars.go [] ('\n' :: rest)) =
          foundIn (linesOfChars.go [] rest) := rfl
        rw [written_cons, hrest]
        show foundIn ((written qs).reverse.reverse :: linesOfChars.go [] rest) = _
        rw [foundIn_cons, reverse_reverse, hline, ← hempty, hslots, map_append]
        exact congrArg _ hnext
      · rw [written_cons]
        show foundIn (linesOfChars.go _ (c :: written ps)) = _
        rw [go_char hpair]
        split
        · rw [foundIn_cons, reverse_reverse, hline, hslots, map_append]
          exact congrArg _ (ih [] hps)
        · rw [← hopen]
          simp [written, Part.written]
    | percent => exact absurd (hbare .percent (by simp)) (by decide)
    | slot s =>
      rw [← hopen]
      have hletter : isLineBreak (letter s) = false ∧ letter s ≠ '\r' := by cases s <;> decide
      rw [written_cons]
      show foundIn (linesOfChars.go _ ('%' :: letter s :: written ps)) = _
      rw [go_char fun h => absurd h.1 (by decide), if_neg (by decide), go_char fun h =>
        hletter.2 h.1, if_neg (by simp [hletter.1])]
      simp [written, Part.written]

theorem slots_filter_isBare (ps : List Part) : slots (ps.filter Part.isBare) = slots ps := by
  induction ps with
  | nil => rfl
  | cons p ps ih =>
    cases p with
    | char c hc => exact ih
    | percent => exact ih
    | slot s => exact congrArg (s :: ·) ih

/-- **What is found in a message are its placeholders.** -/
theorem placeholders_written (ps : List Part) :
    placeholders (String.ofList (written ps)) = (slots ps).map found := by
  have hbare : ∀ p ∈ [] ++ ps.filter Part.isBare, p.isBare := fun p hp => (mem_filter.mp hp).2
  unfold placeholders
  rw [String.toList_ofList, replaceChars_written]
  exact (foundIn_go _ [] hbare).trans (by rw [nil_append, slots_filter_isBare])

theorem argumentsOf_written {ps : List Part} (h : slots ps ≠ []) :
    argumentsOf (String.ofList (written ps)) = .listed (slots ps) := by
  have hlisted : (((slots ps).map found).filter (·.name.isNone)).map (·.sample) = slots ps := by
    rw [filter_eq_self.mpr (by simp [found]), map_map]
    exact map_id' _
  unfold argumentsOf
  dsimp only
  rw [placeholders_written, hlisted, if_pos (by simpa using h)]

/-! ## §3. Filling a message. -/

/-- How arguments meet placeholders, one by one. -/
def meet : List Sample → List Sample → Except Misfit Unit
  | [], [] => .ok ()
  | _ :: _, [] => .error .tooMany
  | [], _ :: _ => .error .tooFew
  | .text :: _, .number :: _ => .error (.needsReal 'd' "str")
  | _ :: xs, _ :: ss => meet xs ss

/-- A placeholder takes the next argument. -/
theorem fillOne_slot (s : Sample) (rest : List Char) (index : Nat) (xs : List Sample) :
    fillOne ⟨letter s :: rest, index, .listed xs⟩
      = match xs, s with
        | [], _ => .error .tooFew
        | .text :: _, .number => .error (.needsReal 'd' "str")
        | _ :: xs, _ => .ok ⟨rest, index + 1, .listed xs⟩ := by
  cases s <;> rcases xs with _ | ⟨_ | _, xs⟩ <;> rfl

theorem fillFrom_char {c : Char} (hc : c ≠ '%') (fuel index : Nat) (rest : List Char)
    (xs : Supply) :
    fillFrom (fuel + 1) ⟨c :: rest, index, xs⟩ = fillFrom fuel ⟨rest, index + 1, xs⟩ := by
  rw [fillFrom]
  split
  · rename_i heq
    cases heq
  · rename_i heq
    exact absurd (cons.inj heq).1 hc
  · rename_i heq
    exact absurd (cons.inj heq).1 hc
  · rename_i heq
    cases heq
    rfl

theorem fillFrom_written (ps : List Part) :
    ∀ (fuel index : Nat) (xs : List Sample), ps.length < fuel →
    fillFrom fuel ⟨written ps, index, .listed xs⟩ = meet xs (slots ps) := by
  induction ps with
  | nil =>
    intro fuel index xs h
    cases fuel with
    | zero => omega
    | succ fuel => cases xs <;> rfl
  | cons p ps ih =>
    intro fuel index xs h
    rw [length_cons] at h
    cases fuel with
    | zero => omega
    | succ fuel =>
      have hrest := fun index xs => ih fuel index xs (by omega)
      cases p with
      | char c hc =>
        exact (fillFrom_char hc fuel index (written ps) (.listed xs)).trans (hrest (index + 1) xs)
      | percent => exact hrest (index + 2) xs
      | slot s =>
        have hpercent : fillFrom (fuel + 1) ⟨written (.slot s :: ps), index, .listed xs⟩
            = fillOne ⟨letter s :: written ps, index + 1, .listed xs⟩ >>= fillFrom fuel := by
          cases s <;> rfl
        rw [hpercent, fillOne_slot]
        rcases xs with _ | ⟨_ | _, xs⟩
        · rfl
        · cases s with
          | text => exact hrest (index + 2) xs
          | number => rfl
        · cases s <;> exact hrest (index + 2) xs

/-- **Filling a message meets its placeholders with the arguments.** -/
theorem fill_written (ps : List Part) (xs : List Sample) :
    fill (String.ofList (written ps)) (.listed xs) = meet xs (slots ps) := by
  unfold fill
  rw [String.toList_ofList, ← String.length_toList, String.toList_ofList]
  exact fillFrom_written ps _ 0 xs (Nat.lt_succ_of_le (length_le_flatMap Part.written_ne_nil ps))

/-! ## §4. The verdict on a translation. -/

/-- Placeholders that do not take the arguments of others: there are not as many, or a number is
    asked for in place of a text. -/
def Mismatch (xs ss : List Sample) : Prop :=
  xs.length ≠ ss.length ∨ ∃ i : Nat, xs[i]? = some .text ∧ ss[i]? = some .number

theorem meet_self (xs : List Sample) : meet xs xs = .ok () := by
  induction xs with
  | nil => rfl
  | cons x xs ih => cases x <;> exact ih

theorem mismatch_cons {x s : Sample} {xs ss : List Sample} (h : ¬ (x = .text ∧ s = .number)) :
    Mismatch (x :: xs) (s :: ss) ↔ Mismatch xs ss := by
  unfold Mismatch
  refine or_congr (by simp) ⟨?_, ?_⟩
  · rintro ⟨i, hx, hs⟩
    cases i with
    | zero => exact absurd ⟨by simpa using hx, by simpa using hs⟩ h
    | succ i => exact ⟨i, hx, hs⟩
  · rintro ⟨i, hx, hs⟩
    exact ⟨i + 1, hx, hs⟩

/-- **Arguments meet placeholders unless these mismatch.** -/
theorem meet_cases (xs : List Sample) : ∀ ss : List Sample,
    Mismatch xs ss ∧ (∃ m, meet xs ss = .error m) ∨ ¬ Mismatch xs ss ∧ meet xs ss = .ok () := by
  induction xs with
  | nil =>
    intro ss
    cases ss with
    | nil => exact .inr ⟨by simp [Mismatch], rfl⟩
    | cons s ss => exact .inl ⟨.inl (by simp), _, rfl⟩
  | cons x xs ih =>
    intro ss
    cases ss with
    | nil => exact .inl ⟨.inl (by simp), _, rfl⟩
    | cons s ss =>
      by_cases h : x = .text ∧ s = .number
      · obtain ⟨rfl, rfl⟩ := h
        exact .inl ⟨.inr ⟨0, rfl, rfl⟩, _, rfl⟩
      · have hmeet : meet (x :: xs) (s :: ss) = meet xs ss := by
          cases x with
          | number => cases s <;> rfl
          | text =>
            cases s with
            | text => rfl
            | number => exact absurd ⟨rfl, rfl⟩ h
        rw [mismatch_cons h, hmeet]
        exact ih ss

/-- **The verdict on a translation with simple placeholders.**  It is refused exactly if it has not
    as many placeholders as its source, or a `%d` where that has a `%s`; else it is accepted. -/
theorem check_written (source translated : List Part) (h : slots source ≠ []) :
    ((∃ m, check (String.ofList (written source)) (String.ofList (written translated)) = .error m)
      ↔ Mismatch (slots source) (slots translated)) ∧
    (¬ Mismatch (slots source) (slots translated) →
      check (String.ofList (written source)) (String.ofList (written translated)) = .ok ()) := by
  have hcheck : check (String.ofList (written source)) (String.ofList (written translated))
      = meet (slots source) (slots translated) := by
    unfold check
    dsimp only
    rw [argumentsOf_written h, if_neg (by simpa [Arguments.isEmpty] using h), fill_written,
      meet_self, fill_written]
  rw [hcheck]
  rcases meet_cases (slots source) (slots translated) with ⟨hmiss, herror⟩ | ⟨hmatch, hok⟩
  · exact ⟨iff_of_true herror hmiss, fun hnot => absurd hmiss hnot⟩
  · refine ⟨iff_of_false ?_ hmatch, fun _ => hok⟩
    rw [hok]
    rintro ⟨m, hm⟩
    cases hm

/-- A source with a text, a number and a percent sign. -/
def shareOf : List Part := [.slot .text, .char ' ' (by decide), .slot .number, .percent]

/-- A translation that takes the arguments of the source, over two lines. -/
def shareBroken : List Part :=
  [.percent, .slot .text, .char '\r' (by decide), .char '\n' (by decide), .slot .text]

/-- One in which the placeholders have changed places is refused. -/
theorem check_written_shareOf : check "%s %d%%" "%%%s\r\n%s" = .ok () ∧
    ∃ m, check "%s %d%%" "%d%% %s" = .error m := by
  have hmatch : ¬ Mismatch (slots shareOf) (slots shareBroken) := by
    rcases meet_cases (slots shareOf) (slots shareBroken) with ⟨-, m, hm⟩ | ⟨hmatch, -⟩
    · cases hm
    · exact hmatch
  refine ⟨(check_written shareOf shareBroken (by decide)).2 hmatch, ?_⟩
  exact (check_written shareOf [.slot .number, .percent, .char ' ' (by decide), .slot .text]
    (by decide)).1.mpr (.inr ⟨0, rfl, rfl⟩)

end AddonAudit.Printf
