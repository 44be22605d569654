/-
  AddonAudit.Proofs.Setup.Pin — which pins a text has, and what setting them does.

  Pins are replaced from left to right without regard to what stands around them.  A stretch of text
  in which no pin starts is copied, up to a character that no pin reaches across; a pin at the front
  is replaced, and the rest is treated as if it stood alone.
-/
import AddonAudit.Proofs.Text.Replacing
import AddonAudit.Setup.Pin
import Mathlib.Data.List.Infix
import Mathlib.Data.List.TakeWhile

namespace AddonAudit

open List

/-! ## §1. Fronts of texts. -/

namespace Text

variable {c : Char}

/-- A front is found before a character that it does not hold, or not at all. -/
theorem afterFront?_append {front : List Char} (hc : c ∉ front) (rest : List Char) : ∀ text :
    List Char,
      afterFront? front (text ++ c :: rest) = (afterFront? front text).map (· ++ c :: rest) := by
  induction front with
  | nil => exact fun _ => rfl
  | cons f front ih =>
    obtain ⟨hne, hc⟩ := ne_and_not_mem_of_not_mem_cons hc
    intro text
    cases text with
    | nil =>
      have hbeq : (f == c) = false := beq_eq_false_iff_ne.mpr hne.symm
      simp [afterFront?, hbeq]
    | cons d text =>
      simp only [cons_append, afterFront?]
      split
      · exact ih hc text
      · rfl

end Text

namespace Setup

open Text (isDecimal isBlank afterFront?)

/-! ## §2. Versions. -/

/-- A number in decimal digits. -/
def IsDigits (cs : List Char) : Prop := cs ≠ [] ∧ ∀ c ∈ cs, isDecimal c

/-- A text that does not start with a digit. -/
def Stops (cs : List Char) : Prop := ∀ c ∈ cs.head?, isDecimal c = false

variable {cs : List Char}

theorem splitNumber?_eq_some_iff {digits rest : List Char} :
    splitNumber? cs = some (digits, rest) ↔ IsDigits digits ∧ cs = digits ++ rest ∧ Stops rest := by
  unfold splitNumber?
  constructor
  · intro h
    split at h
    · cases h
    · rename_i hne
      cases h
      refine ⟨⟨hne, fun c hc => mem_takeWhile_imp hc⟩, takeWhile_append_dropWhile.symm,
        fun c hc => ?_⟩
      have hhead := head?_dropWhile_not isDecimal cs
      rw [Option.mem_def.mp hc] at hhead
      simpa using hhead
  · rintro ⟨⟨hne, hdigits⟩, rfl, hstops⟩
    have hrest : rest.takeWhile isDecimal = [] := by
      cases rest with
      | nil => rfl
      | cons c rest => exact takeWhile_cons_of_neg (by simpa using hstops c rfl)
    have htake : (digits ++ rest).takeWhile isDecimal = digits := by
      rw [takeWhile_append_of_pos hdigits, hrest, append_nil]
    have hdrop := takeWhile_append_dropWhile (p := isDecimal) (l := digits ++ rest)
    rw [htake, append_cancel_left_eq] at hdrop
    rw [htake, hdrop]
    split
    · exact absurd rfl hne
    · rfl

/-- A version `vX.Y.Z`. -/
def Numbered (version : List Char) : Prop :=
  ∃ major minor patch, IsDigits major ∧ IsDigits minor ∧ IsDigits patch ∧
    version = 'v' :: (major ++ '.' :: (minor ++ '.' :: patch))

variable {version : List Char}

/-- A version is found at the front of a text if the text starts with it and goes on with no
    digit. -/
theorem versionAtFront?_eq_some_iff :
    versionAtFront? cs = some version ↔ Numbered version ∧ ∃ rest, cs = version ++ rest ∧
    Stops rest := by
  unfold versionAtFront?
  simp only [Option.bind_eq_bind, Option.bind_eq_some_iff, Prod.exists,
    Text.afterFront?_eq_some_iff, splitNumber?_eq_some_iff]
  constructor
  · rintro ⟨_, rfl, major, _, ⟨hmajor, rfl, -⟩, _, rfl, minor, _, ⟨hminor, rfl, -⟩, _, rfl, patch,
      rest, ⟨hpatch, rfl, hstops⟩, h⟩
    cases h
    exact ⟨⟨major, minor, patch, hmajor, hminor, hpatch, by simp⟩, rest, by simp, hstops⟩
  · have hdot (cs) : Stops ('.' :: cs) := by rintro c ⟨⟩; decide
    rintro ⟨⟨major, minor, patch, hmajor, hminor, hpatch, rfl⟩, rest, rfl, hstops⟩
    simp only [cons_append, append_assoc]
    exact ⟨_, rfl, major, _, ⟨hmajor, rfl, hdot _⟩, _, rfl, minor, _, ⟨hminor, rfl, hdot _⟩, _, rfl,
      patch, rest, ⟨hpatch, rfl, hstops⟩, rfl⟩

/-- The characters of versions. -/
def IsVersionChar (c : Char) : Prop := c = 'v' ∨ c = '.' ∨ isDecimal c = true

instance (c : Char) : Decidable (IsVersionChar c) := inferInstanceAs (Decidable (_ ∨ _ ∨ _))

theorem Numbered.chars (h : Numbered version) : ∀ c ∈ version, IsVersionChar c := by
  obtain ⟨major, minor, patch, ⟨-, hmajor⟩, ⟨-, hminor⟩, ⟨-, hpatch⟩, rfl⟩ := h
  intro c hc
  simp only [mem_cons, mem_append] at hc
  rcases hc with hc | hc | hc | hc | hc | hc
  · exact .inl hc
  · exact .inr (.inr (hmajor c hc))
  · exact .inr (.inl hc)
  · exact .inr (.inr (hminor c hc))
  · exact .inr (.inl hc)
  · exact .inr (.inr (hpatch c hc))

theorem Numbered.head (h : Numbered version) : version.head? = some 'v' := by
  obtain ⟨_, _, _, _, _, _, rfl⟩ := h
  rfl

/-- What a version at the front of a text is made of. -/
theorem versionAtFront?_eq_some (h : versionAtFront? cs = some version) :
    (∃ rest, cs = version ++ rest) ∧ version.head? = some 'v' ∧ ∀ c ∈ version, IsVersionChar c := by
  obtain ⟨hversion, rest, hcs, -⟩ := versionAtFront?_eq_some_iff.mp h
  exact ⟨⟨rest, hcs⟩, hversion.head, hversion.chars⟩

/-- Whether a text starts with another one and goes on with no digit, is seen before a character
    that is not in the other text. -/
theorem exists_stops_append {x : List Char} {c : Char} (hx : c ∉ x) (hc : isDecimal c = false)
    (cs rest : List Char) : (∃ r, cs ++ c :: rest = x ++ r ∧ Stops r) ↔ ∃ r, cs = x ++ r ∧
    Stops r := by
  have hstops (r : List Char) : Stops (r ++ c :: rest) ↔ Stops r := by cases r <;> simp [Stops, hc]
  constructor
  · rintro ⟨r, heq, hr⟩
    rcases append_eq_append_iff.mp heq with ⟨a, rfl, ha⟩ | ⟨a, rfl, rfl⟩
    · cases a with
      | nil => exact ⟨[], by simp, by simp [Stops]⟩
      | cons d a =>
        cases ha
        simp at hx
    · exact ⟨a, rfl, (hstops a).mp hr⟩
  · rintro ⟨r, rfl, hr⟩
    exact ⟨r ++ c :: rest, append_assoc .., (hstops r).mpr hr⟩

/-- A version ends before a character that stands in no version. -/
theorem versionAtFront?_append {c : Char} (hc : ¬ IsVersionChar c) (rest cs : List Char) :
    versionAtFront? (cs ++ c :: rest) = versionAtFront? cs := by
  ext version
  simp only [versionAtFront?_eq_some_iff]
  refine and_congr_right fun hversion => exists_stops_append (fun hmem =>
    hc (hversion.chars c hmem)) ?_ cs rest
  exact Bool.eq_false_iff.mpr fun h => hc (.inr (.inr h))

/-- A text that is a version and nothing more. -/
def IsVersion (cs : List Char) : Prop := versionAtFront? cs = some cs

instance (cs : List Char) : Decidable (IsVersion cs) := inferInstanceAs (Decidable (_ = _))

theorem IsVersion.numbered (h : IsVersion cs) : Numbered cs := (versionAtFront?_eq_some_iff.mp h).1

theorem IsVersion.not_mem (h : IsVersion cs) {c : Char} (hc : ¬ IsVersionChar c) : c ∉ cs :=
  fun hmem => hc (h.numbered.chars c hmem)

/-! ## §3. Stretches without pins. -/

namespace Mark

/-- A stretch of text in which no pin starts: it does not even hold the word of a revision. -/
def Quiet : Mark → List Char → Prop
  | .revision, cs => ∀ s, s <:+ cs → Mark.revision.split? s = none
  | .handle, cs => ∀ s, s <:+ cs → Mark.handle.pin? s = none

instance : (m : Mark) → (cs : List Char) → Decidable (m.Quiet cs)
  | .revision, cs => decidable_of_iff (∀ s ∈ cs.tails, Mark.revision.split? s = none)
    ⟨fun h s hs => h s (List.mem_tails _ _ |>.mpr hs), fun h s hs =>
    h s (List.mem_tails _ _ |>.mp hs)⟩
  | .handle, cs => decidable_of_iff (∀ s ∈ cs.tails, Mark.handle.pin? s = none)
    ⟨fun h s hs => h s (List.mem_tails _ _ |>.mpr hs), fun h s hs =>
    h s (List.mem_tails _ _ |>.mp hs)⟩

/-- Characters that no pin reaches across from such a stretch. -/
def Bounds : Mark → Char → Prop
  | .revision, c => c ∉ revisionWord
  | .handle, c => ¬ IsVersionChar c

instance : (m : Mark) → (c : Char) → Decidable (m.Bounds c)
  | .revision, c => inferInstanceAs (Decidable (c ∉ revisionWord))
  | .handle, _ => inferInstanceAs (Decidable (¬ _))

variable {m : Mark} {cs : List Char} {c : Char}

theorem Quiet.of_suffix {a b : List Char} (h : m.Quiet b) (hab : a <:+ b) : m.Quiet a := by
  cases m with
  | revision => exact fun s hs => h s (hs.trans hab)
  | handle => exact fun s hs => h s (hs.trans hab)

/-- The character with which a mark starts. -/
def first : Mark → Char
  | .revision => 'r'
  | .handle => '@'

theorem revision_split?_eq_none :
    Mark.revision.split? cs = none ↔ afterFront? revisionWord cs = none := by
  show (afterFront? revisionWord cs).bind _ = none ↔ _
  cases afterFront? revisionWord cs <;> simp

theorem split?_cons_of_ne (m : Mark) (hc : c ≠ m.first) (cs : List Char) :
    m.split? (c :: cs) = none := by
  cases m with
  | revision =>
    have hbeq : ('r' == c) = false := beq_eq_false_iff_ne.mpr (Ne.symm hc)
    simp [split?, afterFront?, revisionWord, hbeq]
  | handle =>
    unfold split?
    split
    · cases ‹_ = Mark.revision›
    · rename_i heq
      exact absurd (cons.inj heq).1 hc
    · rfl

theorem pin?_cons_of_ne (m : Mark) (hc : c ≠ m.first) (cs : List Char) :
    m.pin? (c :: cs) = none := by
  unfold pin?
  rw [m.split?_cons_of_ne hc]
  rfl

/-- Characters other than the first one of a mark can be put before such a stretch. -/
theorem Quiet.append {a b : List Char} (ha : m.first ∉ a) (hb : m.Quiet b) : m.Quiet (a ++ b) := by
  induction a with
  | nil => exact hb
  | cons c a ih =>
    obtain ⟨hne, ha⟩ := ne_and_not_mem_of_not_mem_cons ha
    have ih := ih ha
    cases m with
    | revision =>
      intro s hs
      rcases suffix_cons_iff.mp hs with rfl | hs
      · exact split?_cons_of_ne _ hne.symm _
      · exact ih s hs
    | handle =>
      intro s hs
      rcases suffix_cons_iff.mp hs with rfl | hs
      · exact pin?_cons_of_ne _ hne.symm _
      · exact ih s hs

/-- No pin starts in a quiet stretch, whatever follows. -/
theorem Quiet.pin?_append {d : Char} (h : m.Quiet (d :: cs)) (hc : m.Bounds c) (rest : List Char) :
    m.pin? (d :: cs ++ c :: rest) = none := by
  cases m with
  | revision =>
    have hsplit : Mark.revision.split? (d :: cs ++ c :: rest) = none := by
      have hself := revision_split?_eq_none.mp (h _ (suffix_refl _))
      rw [revision_split?_eq_none, Text.afterFront?_append hc, hself, Option.map_none]
    unfold pin?
    rw [hsplit]
    rfl
  | handle =>
    have hself := h _ (suffix_refl _)
    by_cases hat : d = '@'
    · subst hat
      show (do return ⟨['@'], ← versionAtFront? (cs ++ c :: rest)⟩ : Option Pin) = none
      rw [versionAtFront?_append hc]
      exact hself
    · exact pin?_cons_of_ne _ hat _

variable (m : Mark) (template : List Pattern.Piece)

theorem replaceFrom_of_pin?_eq_none (h : m.pin? (c :: cs) = none) :
    m.replaceFrom template 0 (c :: cs) = c :: m.replaceFrom template 0 cs := by
  rw [replaceFrom, h]

/-- **A stretch without pins is copied**, up to a character that no pin reaches across. -/
theorem replaceFrom_quiet (hc : m.Bounds c) (rest : List Char) (h : m.Quiet cs) :
    m.replaceFrom template 0 (cs ++ c :: rest) = cs ++ m.replaceFrom template 0 (c :: rest) := by
  induction cs with
  | nil => rfl
  | cons d cs ih =>
    have hpin := h.pin?_append hc rest
    rw [cons_append] at hpin ⊢
    rw [replaceFrom_of_pin?_eq_none m template hpin, ih (h.of_suffix (suffix_cons d cs)),
      cons_append]

/-- A line without pins is copied. -/
theorem replaceFrom_line (h : m.Quiet cs) (rest : List Char) :
    m.replaceFrom template 0 (cs ++ '\n' :: rest) = cs ++
    '\n' :: m.replaceFrom template 0 rest := by
  have hbounds : m.Bounds '\n' := by cases m <;> decide
  have hfirst : '\n' ≠ m.first := by cases m <;> decide
  rw [replaceFrom_quiet m template hbounds rest h,
    replaceFrom_of_pin?_eq_none m template (m.pin?_cons_of_ne hfirst rest)]

/-! ## §4. Pins in place. -/

/-- Characters that are passed over are dropped. -/
theorem replaceFrom_skip (a b : List Char) :
    m.replaceFrom template a.length (a ++ b) = m.replaceFrom template 0 b := by
  induction a with
  | nil => rfl
  | cons c a ih => exact ih

/-- A pin at the front is replaced, and the rest is treated as if it stood alone. -/
theorem replaceFrom_of_pin?_eq_some {p : Pin} {rest : List Char} (hne : p.text ≠ [])
    (h : m.pin? (p.text ++ rest) = some p) :
    m.replaceFrom template 0 (p.text ++ rest) = p.fill template ++
    m.replaceFrom template 0 rest := by
  cases htext : p.text with
  | nil => exact absurd htext hne
  | cons c cs =>
    rw [htext, cons_append] at h
    rw [cons_append, replaceFrom, h]
    show p.fill template ++ m.replaceFrom template (p.text.length - 1) (cs ++ rest) = _
    rw [htext, length_cons, Nat.add_sub_cancel, replaceFrom_skip]

/-- How a mark is written. -/
def lead : Mark → List Char
  | .revision => ['r', 'e', 'v', ':', ' ']
  | .handle => ['@']

end Mark

/-- The replacement that keeps what stands before a version and sets the version. -/
def setTo (version : List Char) : List Pattern.Piece := .group 1 :: version.map .char

theorem Pin.fill_setTo (p : Pin) (version : List Char) :
    p.fill (setTo version) = p.lead ++ version := by
  unfold fill Pattern.fill setTo
  simp [flatMap_map]

/-- What stands after a mark, with its version set. -/
def repin (version rev : List Char) : List Char :=
  match versionAtFront? rev with
  | some old => version ++ rev.drop old.length
  | none => rev

/-- A text that starts with a character other than a blank. -/
def Sharp (cs : List Char) : Prop := ∃ c, cs.head? = some c ∧ isBlank c = false

namespace Mark

theorem pin?_lead (m : Mark) {rev : List Char} (h : Sharp rev) (rest : List Char) :
    m.pin? (m.lead ++ rev ++ '\n' :: rest) = (versionAtFront? rev).map (⟨m.lead, ·⟩) := by
  have hversion : versionAtFront? (rev ++ '\n' :: rest) = versionAtFront? rev :=
    versionAtFront?_append (by decide) rest rev
  obtain ⟨c, hhead, hblank⟩ := h
  cases rev with
  | nil => cases hhead
  | cons d rev =>
    cases hhead
    have hsplit : m.split? (m.lead ++ (c :: rev) ++ '\n' :: rest)
        = some (m.lead, c :: rev ++ '\n' :: rest) := by
      cases m with
      | handle => rfl
      | revision =>
        have hspace : isBlank ' ' := rfl
        simp [split?, lead, afterFront?, revisionWord, hblank, hspace]
    unfold pin?
    rw [hsplit]
    show (versionAtFront? (c :: rev ++ '\n' :: rest)).bind _ = _
    rw [hversion]
    cases versionAtFront? (c :: rev) <;> rfl

/-- **What stands after a mark gets the new version**, up to the end of its line. -/
theorem replaceFrom_lead (m : Mark) (version : List Char) {rev : List Char} (hsharp : Sharp rev)
    (hquiet : m.Quiet rev) (rest : List Char) :
    m.replaceFrom (setTo version) 0 (m.lead ++ rev ++ '\n' :: rest)
      = m.lead ++ repin version rev ++ '\n' :: m.replaceFrom (setTo version) 0 rest := by
  have hpin := m.pin?_lead hsharp rest
  unfold repin
  cases hversion : versionAtFront? rev with
  | some old =>
    obtain ⟨⟨tail, rfl⟩, -, -⟩ := versionAtFront?_eq_some hversion
    rw [hversion] at hpin
    have htext : m.lead ++ (old ++ tail) ++ '\n' :: rest
        = (⟨m.lead, old⟩ : Pin).text ++ (tail ++ '\n' :: rest) := by simp [Pin.text]
    rw [htext] at hpin ⊢
    rw [replaceFrom_of_pin?_eq_some _ _ (by cases m <;> simp [Pin.text, lead]) hpin, Pin.fill_setTo,
      replaceFrom_line _ _ (hquiet.of_suffix (suffix_append old tail))]
    simp
  | none =>
    rw [hversion] at hpin
    -- what pins nothing is passed over
    have hstart : m.replaceFrom (setTo version) 0 (m.lead ++ rev ++ '\n' :: rest)
        = m.lead ++ m.replaceFrom (setTo version) 0 (rev ++ '\n' :: rest) := by
      cases m with
      | revision =>
        rw [show lead revision = ['r', 'e', 'v', ':', ' '] from rfl] at hpin ⊢
        simp only [cons_append, nil_append] at hpin ⊢
        rw [replaceFrom_of_pin?_eq_none _ _ hpin]
        rfl
      | handle =>
        rw [show lead handle = ['@'] from rfl] at hpin ⊢
        simp only [cons_append, nil_append] at hpin ⊢
        rw [replaceFrom_of_pin?_eq_none _ _ hpin]
    rw [hstart, replaceFrom_line _ _ hquiet, append_assoc]

end Mark

end Setup

end AddonAudit
