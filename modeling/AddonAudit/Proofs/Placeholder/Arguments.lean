/-
  AddonAudit.Proofs.Placeholder.Arguments — messages whose arguments can be told.

  A field whose name is made of digit characters is taken for a position, and its name is read as a
  number. Digit characters are more than decimal digits, and numbers have a largest length, so that
  reading can fail.
-/
import AddonAudit.Placeholder.Braces
import AddonAudit.Proofs.Traversal
import Mathlib.Data.List.TakeWhile

namespace AddonAudit.Braces

/-! ## §1. Numbers in digit characters. -/

/-- The blanks outside ASCII. -/
def wideBlanks : List Nat :=
  [0x85, 0xa0, 0x1680, 0x2000, 0x2001, 0x2002, 0x2003, 0x2004, 0x2005, 0x2006, 0x2007, 0x2008,
    0x2009, 0x200a,
   0x2028, 0x2029, 0x202f, 0x205f, 0x3000]

theorem numbersOf_ofList (cs : List Char) :
    Text.numbersOf (String.ofList cs) = (cs.foldl Text.addSign (#[], 0)).1 := by
  unfold Text.numbersOf
  rw [String.toList_ofList]

/-- No blank is in the table of digit characters; the superscript two is. -/
theorem digitRanges_contains :
    (∀ n ∈ wideBlanks, Text.digitRanges.contains n = false) ∧
    Text.digitRanges.contains 0xb2 = true := by
  unfold Text.digitRanges Text.Ranges.ofGaps
  -- the table is evaluated as a list of characters, which is much faster than as a text
  rw [numbersOf_ofList]
  decide +kernel

variable {c : Char} {cs : List Char}

theorem isDigit_bounds (h : c.isDigit = true) : 48 ≤ c.toNat ∧ c.toNat ≤ 57 := by
  simp only [Char.isDigit, Bool.and_eq_true, decide_eq_true_eq, UInt32.le_iff_toNat_le,
    ge_iff_le] at h
  exact h

theorem mem_wideBlanks (h : Text.isBlank c = true) (hwide : ¬ c.toNat < 128) :
    c.toNat ∈ wideBlanks := by
  simp only [Text.isBlank, Bool.or_eq_true, Bool.and_eq_true, beq_iff_eq, decide_eq_true_eq] at h
  simp only [wideBlanks, List.mem_cons, List.not_mem_nil, or_false]
  omega

theorem isBlank_of_isDigit (h : c.isDigit = true) : Text.isBlank c = false := by
  have hbounds := isDigit_bounds h
  rw [Bool.eq_false_iff]
  intro hblank
  simp only [Text.isBlank, Bool.or_eq_true, Bool.and_eq_true, beq_iff_eq,
    decide_eq_true_eq] at hblank
  omega

/-- No digit character is a blank. -/
theorem isOuterBlank_of_isDigitLike (h : Text.isDigitLike c = true) :
    Decimal.isOuterBlank c = false := by
  unfold Text.isDigitLike at h
  unfold Decimal.isOuterBlank
  suffices hblank : Text.isBlank c = false by rw [hblank, Bool.false_and]
  split at h
  · exact isBlank_of_isDigit h
  · rw [Bool.eq_false_iff]
    intro hblank
    rw [digitRanges_contains.1 _ (mem_wideBlanks hblank ‹_›)] at h
    cases h

/-- A character that can only be part of the digits of a number. -/
def isInner (c : Char) : Bool := !Decimal.isOuterBlank c && !(['_', '-', '+'].contains c)

theorem isInner_of_isDigitLike (h : Text.isDigitLike c = true) : isInner c = true := by
  have hsign : ['_', '-', '+'].contains c = false := by
    rw [Bool.eq_false_iff]
    intro hmem
    have hno : ∀ c ∈ ['_', '-', '+'], Text.isDigitLike c = false := by simp; decide
    rw [hno c (List.contains_iff_mem.mp hmem)] at h
    cases h
  rw [isInner, isOuterBlank_of_isDigitLike h, hsign]
  rfl

theorem dropWhile_of_forall {p : Char → Bool} (h : ∀ c ∈ cs, p c = false) :
    cs.dropWhile p = cs := by
  cases cs with
  | nil => rfl
  | cons c cs => rw [List.dropWhile_cons_of_neg (by simp [h c (List.mem_cons_self ..)])]

theorem digitRun?_go (cs : List Char) (h : ∀ c ∈ cs, c ≠ '_') : ∀ values : List Nat,
    Decimal.digitRun?.go values cs = (cs.mapM Text.decimalValue?).map (values.reverse ++ ·) := by
  induction cs with
  | nil =>
    intro values
    simp [Decimal.digitRun?.go]
  | cons c cs ih =>
    intro values
    obtain ⟨hc, hcs⟩ := List.forall_mem_cons.mp h
    rw [Decimal.digitRun?.go, List.mapM_cons]
    · cases Text.decimalValue? c with
      | none => rfl
      | some d =>
        refine (ih hcs (d :: values)).trans ?_
        cases cs.mapM Text.decimalValue? <;> simp
    · exact fun _ _ heq => absurd heq hc

theorem digitRun?_eq (hne : cs ≠ []) (h : ∀ c ∈ cs, c ≠ '_') :
    Decimal.digitRun? cs = cs.mapM Text.decimalValue? := by
  cases cs with
  | nil => exact absurd rfl hne
  | cons c cs =>
    rw [Decimal.digitRun?, List.mapM_cons]
    cases Text.decimalValue? c with
    | none => rfl
    | some d =>
      refine (digitRun?_go cs (List.forall_mem_cons.mp h).2 [d]).trans ?_
      cases cs.mapM Text.decimalValue? <;> rfl

theorem mapM_decimalValue? (h : ∀ c ∈ cs, Text.isDecimal c = true) :
    cs.mapM Text.decimalValue? = some (cs.filterMap Text.decimalValue?) := by
  induction cs with
  | nil => rfl
  | cons c cs ih =>
    obtain ⟨hc, hcs⟩ := List.forall_mem_cons.mp h
    obtain ⟨d, hd⟩ := Option.isSome_iff_exists.mp hc
    rw [List.mapM_cons, List.filterMap_cons, hd, ih hcs]
    rfl

theorem mapM_decimalValue?_none (h : ¬ ∀ c ∈ cs, Text.isDecimal c = true) :
    cs.mapM Text.decimalValue? = none := by
  induction cs with
  | nil => exact absurd (fun _ hc => by cases hc) h
  | cons c cs ih =>
    rw [List.mapM_cons]
    cases hd : Text.decimalValue? c with
    | none => rfl
    | some d =>
      have hc : Text.isDecimal c = true := by rw [Text.isDecimal, hd]; rfl
      rw [ih fun hcs => h (List.forall_mem_cons.mpr ⟨hc, hcs⟩)]
      rfl

/-- The value of decimal digits. -/
def valueOf (cs : List Char) : Nat := Decimal.valueOfDigits (cs.filterMap Text.decimalValue?)

/-- Whether digit characters stand for a number: all have a place value, and they are not too
    many. -/
def Numeral (cs : List Char) : Prop := (∀ c ∈ cs, Text.isDecimal c = true) ∧
    cs.length ≤ Decimal.maxDigits

/-- **Digits are read as the number they stand for, if they do.** -/
theorem readWhole_digits (hne : cs ≠ []) (h : ∀ c ∈ cs, isInner c = true) :
    (Numeral cs → Decimal.readWhole (String.ofList cs) = .ok (valueOf cs)) ∧
    (¬ Numeral cs → ∃ problem, Decimal.readWhole (String.ofList cs) = .error problem) := by
  simp only [isInner, Bool.and_eq_true, Bool.not_eq_true'] at h
  have hblank : ∀ c ∈ cs, Decimal.isOuterBlank c = false := fun c hc => (h c hc).1
  have hother : ∀ c ∈ cs, ∀ d ∈ ['_', '-', '+'], c ≠ d := by
    rintro c hc d hd rfl
    have hno := (h c hc).2
    rw [List.contains_iff_mem.mpr hd] at hno
    cases hno
  have hscore : ∀ c ∈ cs, c ≠ '_' := fun c hc => hother c hc _ (by simp)
  have hsign : ∀ sign ∈ ['_', '-', '+'], (cs.head? == some sign) = false := by
    intro sign hsign
    cases cs with
    | nil => rfl
    | cons c cs => simpa using hother c List.mem_cons_self sign hsign
  -- neither blanks nor signs nor underscores are left to deal with
  have hread : Decimal.readWhole (String.ofList cs)
      = if Decimal.maxDigits < Decimal.leadingDigits cs then .error
      (.tooLong (Decimal.leadingDigits cs))
        else (cs.mapM Text.decimalValue?).elim (.error .malformed)
          fun ds => .ok (Decimal.valueOfDigits ds : Int) := by
    unfold Decimal.readWhole
    rw [String.toList_ofList, dropWhile_of_forall hblank, Text.dropTailWhile,
      dropWhile_of_forall fun c hc => hblank c (List.mem_reverse.mp hc), List.reverse_reverse]
    simp only [hsign '-' (by simp), hsign '+' (by simp), Bool.or_self, Bool.false_eq_true, if_false,
      digitRun?_eq hne hscore]
    cases cs.mapM Text.decimalValue? <;> rfl
  rw [hread]
  by_cases hdecimal : ∀ c ∈ cs, Text.isDecimal c = true
  · have hleading : Decimal.leadingDigits cs = cs.length := by
      unfold Decimal.leadingDigits
      rw [List.takeWhile_eq_self_iff.mpr fun c hc => by rw [hdecimal c hc, Bool.or_true],
        List.filter_eq_self.mpr (by simpa using hscore)]
    rw [hleading, mapM_decimalValue? hdecimal]
    refine ⟨fun hnumeral => if_neg (Nat.not_lt.mpr hnumeral.2), fun hnot => ?_⟩
    exact ⟨_, if_pos (Nat.not_le.mp fun hle => hnot ⟨hdecimal, hle⟩)⟩
  · rw [mapM_decimalValue?_none hdecimal]
    refine ⟨fun hnumeral => absurd hnumeral.1 hdecimal, fun _ => ?_⟩
    split
    · exact ⟨_, rfl⟩
    · exact ⟨_, rfl⟩

/-! ## §2. The arguments of a message. -/

/-- A name that is taken for a position and stands for no number. -/
def Unreadable (name : String) : Prop :=
  name ≠ "" ∧ (∀ c ∈ name.toList, Text.isDigitLike c = true) ∧ ¬ Numeral name.toList

theorem positions?_numeral (hne : cs ≠ []) (h : ∀ c ∈ cs, Text.isDigitLike c = true)
    (hnumeral : Numeral cs) :
    positions? (String.ofList cs) = .ok (some (valueOf cs + 1 : Int)) := by
  unfold positions?
  rw [if_neg (by simpa using hne), if_pos (by simpa using h),
    (readWhole_digits hne fun c hc => isInner_of_isDigitLike (h c hc)).1 hnumeral]

theorem positions?_ok_iff (name : String) : (∃ p, positions? name = .ok p) ↔ ¬ Unreadable name := by
  unfold positions? Unreadable
  by_cases hempty : name = ""
  · simp [hempty]
  by_cases hdigits : ∀ c ∈ name.toList, Text.isDigitLike c = true
  · have hread := readWhole_digits (by simpa using hempty) fun c hc =>
      isInner_of_isDigitLike (hdigits c hc)
    rw [String.ofList_toList] at hread
    rw [if_neg (by simpa using hempty), if_pos (by simpa using hdigits)]
    by_cases hnumeral : Numeral name.toList
    · rw [hread.1 hnumeral]
      simp [hnumeral]
    · obtain ⟨problem, hproblem⟩ := hread.2 hnumeral
      rw [hproblem]
      refine iff_of_false ?_ (not_not_intro ⟨hempty, hdigits, hnumeral⟩)
      cases problem <;> simp
  · rw [if_neg (by simpa using hempty), if_neg (by simpa using hdigits)]
    simp [hdigits]

/-- **The arguments of a message can be told exactly if none of its fields is unreadable.** -/
theorem argumentsOf_ok_iff (message : String) :
    (∃ a, argumentsOf message = .ok a) ↔ ∀ name ∈ placeholders message, ¬ Unreadable name := by
  constructor
  · rintro ⟨a, ha⟩ name hname
    obtain ⟨found, hfound, -⟩ := Traversal.bind_ok_iff.mp ha
    obtain ⟨y, -, hy⟩ := Traversal.ok_of_mem_of_mapM_ok hfound hname
    obtain ⟨p, hp, -⟩ := Traversal.bind_ok_iff.mp hy
    exact (positions?_ok_iff name).mp ⟨p, hp⟩
  · intro h
    obtain ⟨found, hfound⟩ := Traversal.mapM_ok_of_forall (placeholders message)
      (f := fun n => do return (n, ← positions? n)) fun name hname => by
        obtain ⟨p, hp⟩ := (positions?_ok_iff name).mpr (h name hname)
        exact ⟨(name, p), by rw [hp]; rfl⟩
    unfold argumentsOf
    rw [hfound]
    exact ⟨_, rfl⟩

/-- Whether a source takes its own arguments, and has some. -/
def Arguments.Taken (a : Arguments) (capacity : Nat) (source : String) : Prop :=
  (a.positions ≠ 0 ∨ a.names ≠ []) ∧ a.positions ≤ room capacity ∧ fill source a = .ok ()

/-- The verdict on a translation, with the arguments of its source. -/
theorem check_of_argumentsOf {source : String} {a : Arguments} (h : argumentsOf source = .ok a)
    (translated : String) (capacity : Nat) :
    (a.Taken capacity source → check source translated capacity = .ok (fill translated a)) ∧
    (¬ a.Taken capacity source → check source translated capacity = .ok (.ok ())) := by
  unfold check Arguments.Taken
  rw [h]
  simp only [bind, Except.bind]
  by_cases hnone : a.positions = 0 ∧ a.names = []
  · rw [if_pos (by simpa using hnone)]
    exact ⟨fun htaken => by simp_all, fun _ => rfl⟩
  rw [if_neg (by simpa using hnone)]
  by_cases hmany : room capacity < a.positions
  · rw [if_pos hmany]
    exact ⟨fun htaken => absurd hmany (Nat.not_lt.mpr htaken.2.1), fun _ => rfl⟩
  rw [if_neg hmany]
  have hsome := Classical.not_and_iff_not_or_not.mp hnone
  cases hfill : fill source a with
  | error m => exact ⟨fun htaken => absurd htaken.2.2 (by simp), fun _ => rfl⟩
  | ok u => exact ⟨fun _ => rfl, fun hnot => absurd ⟨hsome, Nat.not_lt.mp hmany, rfl⟩ hnot⟩

/-- A verdict on a translation is reached exactly if the arguments of its source can be told. -/
theorem check_ok_iff (source translated : String) (capacity : Nat) :
    (∃ verdict, check source translated capacity = .ok verdict) ↔
      ∀ name ∈ placeholders source, ¬ Unreadable name := by
  rw [← argumentsOf_ok_iff]
  constructor
  · rintro ⟨verdict, hverdict⟩
    obtain ⟨a, ha, -⟩ := Traversal.bind_ok_iff.mp hverdict
    exact ⟨a, ha⟩
  · rintro ⟨a, ha⟩
    by_cases htaken : a.Taken capacity source
    · exact ⟨_, (check_of_argumentsOf ha translated capacity).1 htaken⟩
    · exact ⟨_, (check_of_argumentsOf ha translated capacity).2 htaken⟩

end AddonAudit.Braces
