/-
  AddonAudit.Proofs.Placeholder.Braces — messages with simple brace placeholders.

  A simple message is made of pieces: characters other than braces, and fields `{}`, `{0}` and
  `{name}`.  Its arguments are found by reading line by line, and counted in one of two ways, while
  it is filled from left to right as it stands.  Both see the same fields, so that the verdict on a
  translation compares the names and the number of positions of two messages.
-/
import AddonAudit.Proofs.Placeholder.Arguments
import AddonAudit.Proofs.Text.Lines

namespace AddonAudit.Braces

open List

/-! ## §1. Simple messages. -/

/-- The characters of ASCII names. -/
def isPlain (c : Char) : Bool := c.isAlphanum || c == '_'

def isName : List Char → Bool
  | [] => false
  | c :: cs => (c.isAlpha || c == '_') && cs.all isPlain

/-- A piece of a simple message. -/
inductive Piece where
  | char (c : Char) (h : isBrace c = false)
  | next
  | index (digits : List Char) (hne : digits ≠ []) (h : ∀ c ∈ digits, c.isDigit = true)
  | name (cs : List Char) (h : isName cs = true)

/-- What stands between the braces of a field. -/
def Piece.label? : Piece → Option (List Char)
  | .char _ _ => none
  | .next => some []
  | .index digits _ _ => some digits
  | .name cs _ => some cs

/-- The characters of a piece. -/
def Piece.written (p : Piece) : List Char :=
  match p with
  | .char c _ => [c]
  | p => '\x7b' :: (p.label?.getD [] ++ ['\x7d'])

/-- The characters of a message. -/
def written (ps : List Piece) : List Char := ps.flatMap Piece.written

/-- The labels of the fields of a message. -/
def labels (ps : List Piece) : List (List Char) := ps.filterMap Piece.label?

/-- The names in a message. -/
def names (ps : List Piece) : List String :=
  ps.filterMap fun
    | .name cs _ => some (String.ofList cs)
    | _ => none

/-- The indices in a message. -/
def indices (ps : List Piece) : List Nat :=
  ps.filterMap fun
    | .index digits _ _ => some (Nat.ofDigitChars 10 digits 0)
    | _ => none

/-- How many fields of a message are numbered by their order. -/
def nexts (ps : List Piece) : Nat :=
  ps.countP fun
    | .next => true
    | _ => false

/-- The positions that a message needs: one for every field that is numbered by its order, or up to
    the largest index. -/
def needed (ps : List Piece) :
    Nat := if indices ps = [] then nexts ps else (indices ps).foldl max 0 + 1

/-- Fields are numbered in at most one of the two ways. -/
def OneStyle (ps : List Piece) : Prop := nexts ps = 0 ∨ indices ps = []

variable {c : Char} {p : Piece} {l digits : List Char} {ps : List Piece} {state : Numbering}

theorem isAlpha_bounds (h : c.isAlpha) : 65 ≤ c.toNat ∧ c.toNat ≤ 90 ∨ 97 ≤ c.toNat ∧
    c.toNat ≤ 122 := by
  rcases Bool.or_eq_true_iff.mp h with h | h
  · exact .inl (of_decide_eq_true h)
  · have ⟨hlow, hhigh⟩ := Bool.and_eq_true_iff.mp h
    exact .inr ⟨of_decide_eq_true hlow, of_decide_eq_true hhigh⟩

theorem isPlain_bounds (h : isPlain c) :
    48 ≤ c.toNat ∧ c.toNat ≤ 57 ∨ 65 ≤ c.toNat ∧ c.toNat ≤ 90 ∨ c.toNat = 95 ∨ 97 ≤ c.toNat ∧
    c.toNat ≤ 122 := by
  simp only [isPlain, Char.isAlphanum, Bool.or_eq_true, beq_iff_eq] at h
  rcases h with (h | h) | rfl
  · have := isAlpha_bounds h
    omega
  · exact .inl (isDigit_bounds h)
  · exact .inr (.inr (.inl rfl))

theorem ne_of_isPlain {d : Char} (h : isPlain c) (hd : isPlain d = false) : c ≠ d := by
  rintro rfl
  exact absurd h (by simp [hd])

/-- A label has no character with a meaning of its own. -/
theorem isPlain_of_label (h : p.label? = some l) : ∀ c ∈ l, isPlain c := by
  intro c hc
  cases p with
  | char d hd => cases h
  | next =>
    cases h
    cases hc
  | index digits hne hdigits =>
    cases h
    simp [isPlain, Char.isAlphanum, hdigits c hc]
  | name cs hcs =>
    obtain rfl : cs = l := Option.some.inj h
    cases cs with
    | nil => cases hc
    | cons first rest =>
      simp only [isName, Bool.and_eq_true, all_eq_true] at hcs
      rcases mem_cons.mp hc with rfl | hc
      · have hfirst := Bool.or_eq_true_iff.mp hcs.1
        rcases hfirst with hfirst | hfirst <;> simp [isPlain, Char.isAlphanum, hfirst]
      · exact hcs.2 c hc

theorem written_cons (p : Piece) (ps : List Piece) : written (p :: ps) = p.written ++ written ps :=
    rfl

theorem labels_cons (p : Piece) (ps : List Piece) :
    labels (p :: ps) = p.label?.toList ++ labels ps := by
  rw [labels, filterMap_cons]
  cases p.label? <;> rfl

theorem eq_char_of_label (h : p.label? = none) : ∃ c hc, p = .char c hc := by
  cases p with
  | char c hc => exact ⟨c, hc, rfl⟩
  | next => cases h
  | index digits hne hdigits => cases h
  | name cs hcs => cases h

theorem written_of_label (h : p.label? = some l) :
    p.written = '\x7b' :: (l ++ ['\x7d']) := by
  cases p with
  | char c hc => cases h
  | next => cases h; rfl
  | index digits hne hdigits => cases h; rfl
  | name cs hcs => cases h; rfl

/-! ## §2. What is found in a message. -/

theorem splitName_label (h : ∀ c ∈ l, isPlain c) (rest : List Char) :
    splitName false (l ++ '\x7d' :: rest) = .ok (l, '\x7d' :: rest) := by
  induction l with
  | nil => rfl
  | cons c l ih =>
    obtain ⟨hc, hl⟩ := forall_mem_cons.mp h
    have hne : ∀ d, isPlain d = false → (c == d) = false :=
      fun d hd => by simpa using ne_of_isPlain hc hd
    rw [cons_append, splitName, if_neg (by decide), hne '\x7b' (by decide), hne '\x7d' (by decide),
      hne ':' (by decide), hne '!' (by decide), hne '[' (by decide), ih hl]
    rfl

theorem readField_label (h : ∀ c ∈ l, isPlain c) (rest : List Char) :
    readField (l ++ '\x7d' :: rest) = .ok ({ name := l }, rest) := by
  unfold readField
  rw [splitName_label h]
  rfl

/-- Plain text is read up to the first brace. -/
theorem readPart_char (hc : isBrace c = false) (cs : List Char) :
    readPart (c :: cs) = (readPart cs).map fun (p, rest) => (⟨c :: p.plain, p.field⟩, rest) := by
  unfold readPart
  rw [takeWhile_cons_of_pos (by simp [hc])]
  dsimp only
  rw [length_cons, drop_succ_cons]
  split
  · rfl
  · rfl
  · rfl
  · rfl
  · rfl
  · rename_i rest _ _ _ _ _
    cases readField rest <;> rfl

theorem readPart_label (h : ∀ c ∈ l, isPlain c) (rest : List Char) :
    readPart ('\x7b' :: (l ++ '\x7d' :: rest)) = .ok (⟨[], some { name := l }⟩, rest) := by
  have hfield := readField_label h rest
  have hhead : ∀ more, l ++ '\x7d' :: rest ≠ '\x7b' :: more := by
    intro more heq
    cases l with
    | nil => cases heq
    | cons c l => exact ne_of_isPlain (h c (mem_cons_self ..)) (by decide) (cons.inj heq).1
  unfold readPart
  rw [takeWhile_cons_of_neg (by decide)]
  dsimp only
  rw [length_nil, drop_zero]
  split
  · rename_i heq
    cases heq
  · rename_i heq
    cases heq
  · rename_i heq
    cases heq
  · rename_i heq
    exact absurd (cons.inj heq).2 (hhead _)
  · rename_i heq
    simp at heq
  · rename_i heq
    obtain ⟨-, rfl⟩ := cons.inj heq
    rw [hfield]
    rfl

theorem fieldNames?_char (hc : isBrace c = false) (fuel : Nat) (cs : List Char) :
    fieldNames? (fuel + 1) (c :: cs) = fieldNames? (fuel + 1) cs := by
  cases cs with
  | nil =>
    show fieldNames? (fuel + 1) [c] = some []
    rw [fieldNames?, readPart_char hc]
    · cases fuel <;> rfl
    · simp
  | cons d cs =>
    rw [fieldNames?, readPart_char hc, fieldNames?]
    · cases readPart (d :: cs) <;> rfl
    · simp
    · simp

/-- The names of the fields of a line. -/
theorem fieldNames?_written (ps : List Piece) : ∀ fuel, ps.length < fuel →
    fieldNames? fuel (written ps) = some ((labels ps).map String.ofList) := by
  induction ps with
  | nil =>
    intro fuel h
    cases fuel <;> rfl
  | cons p ps ih =>
    intro fuel h
    rw [length_cons] at h
    cases fuel with
    | zero => omega
    | succ fuel =>
      rw [written_cons]
      cases hlabel : p.label? with
      | none =>
        obtain ⟨c, hc, rfl⟩ := eq_char_of_label hlabel
        show fieldNames? (fuel + 1) (c :: written ps) = _
        rw [fieldNames?_char hc, ih _ (by omega)]
        rfl
      | some l =>
        have hread := readPart_label (isPlain_of_label hlabel) (written ps)
        rw [written_of_label hlabel, cons_append, append_assoc, singleton_append, fieldNames?,
          hread]
        · show (fieldNames? fuel (written ps)).map _ = _
          rw [ih fuel (by omega), labels_cons, hlabel]
          rfl
        · simp

theorem length_le_written (ps : List Piece) : ps.length ≤ (written ps).length := by
  induction ps with
  | nil => exact Nat.le_refl _
  | cons p ps ih =>
    have hp : 0 < p.written.length := by cases p <;> exact Nat.succ_pos _
    rw [written_cons, length_append, length_cons]
    omega

/-- **What is found in a message are the labels of its fields.** -/
theorem placeholders_written (ps : List Piece) :
    placeholders (String.ofList (written ps)) = (labels ps).map String.ofList := by
  unfold placeholders
  rw [String.toList_ofList]
  have hslots : ∀ ps, ps.flatMap (fun p => p.label?.toList.map String.ofList) =
      (labels ps).map String.ofList := by
    intro ps
    induction ps with
    | nil => rfl
    | cons p ps ih =>
      rw [flatMap_cons, ih, labels_cons, map_append]
  rw [← hslots]
  refine Text.flatMap_linesOfChars ?_ ?_ ps
  · intro ps
    rw [hslots]
    exact congrArg (·.getD []) (fieldNames?_written ps _ (Nat.lt_succ_of_le (length_le_written ps)))
  · intro p
    cases hlabel : p.label? with
    | none =>
      obtain ⟨c, hc, rfl⟩ := eq_char_of_label hlabel
      exact .inr ⟨⟨c, rfl⟩, rfl⟩
    | some l =>
      refine .inl fun c hc => ?_
      rw [written_of_label hlabel, mem_cons, mem_append, mem_singleton] at hc
      rcases hc with rfl | hc | rfl
      · decide
      · have hbounds := isPlain_bounds (isPlain_of_label hlabel c hc)
        simp only [Text.isLineBreak, Bool.or_eq_false_iff, Bool.and_eq_false_iff,
          decide_eq_false_iff_not, beq_eq_false_iff_ne]
        omega
      · decide

/-! ## §3. The arguments of a message. -/

/-- The number of positions that a field is taken to ask for. -/
def Piece.asks : Piece → Option Nat
  | .next => some 0
  | .index digits _ _ => some (Nat.ofDigitChars 10 digits 0 + 1)
  | _ => none

/-- Whether the index of a field is not too long to be read. -/
def Piece.isShort : Piece → Prop
  | .index digits _ _ => digits.length ≤ Decimal.maxDigits
  | _ => True

theorem isDigitLike_of_isDigit (h : c.isDigit) : Text.isDigitLike c := by
  have hbounds := isDigit_bounds h
  rw [Text.isDigitLike, if_pos (by omega), h]

/-- What a name starts with is no digit. -/
theorem isDigit_of_starts (h : (c.isAlpha || c == '_')) : c.toNat < 128 ∧ c.isDigit = false := by
  have hbounds : 65 ≤ c.toNat ∧ c.toNat < 128 := by
    rcases Bool.or_eq_true_iff.mp h with h | h
    · have := isAlpha_bounds h
      omega
    · rw [beq_iff_eq.mp h]
      decide
  refine ⟨hbounds.2, ?_⟩
  by_contra hdigit
  have := isDigit_bounds (Bool.not_eq_false _ ▸ hdigit)
  omega

theorem isDigitLike_of_starts (h : (c.isAlpha || c == '_')) : Text.isDigitLike c = false := by
  rw [Text.isDigitLike, if_pos (isDigit_of_starts h).1, (isDigit_of_starts h).2]

theorem isDecimal_of_starts (h : (c.isAlpha || c == '_')) : Text.isDecimal c = false := by
  rw [Text.isDecimal_ascii (isDigit_of_starts h).1, (isDigit_of_starts h).2]

theorem decimalValue?_of_isDigit (h : c.isDigit) :
    Text.decimalValue? c = some (c.toNat - '0'.toNat) := by
  have hbounds := isDigit_bounds h
  rw [Text.decimalValue?, if_pos (by omega), if_pos h]
  rfl

theorem valueOf_digits (h : ∀ c ∈ digits, c.isDigit) :
    valueOf digits = Nat.ofDigitChars 10 digits 0 := by
  have hvalues : digits.filterMap Text.decimalValue? = digits.map (·.toNat - '0'.toNat) := by
    rw [← filterMap_eq_map]
    exact filterMap_congr fun c hc => decimalValue?_of_isDigit (h c hc)
  unfold valueOf Decimal.valueOfDigits Nat.ofDigitChars
  rw [hvalues, foldl_map]
  simp only [Nat.mul_comm]

theorem positions?_label (h : p.label? = some l) (hshort : p.isShort) :
    positions? (String.ofList l) = .ok (p.asks.map Int.ofNat) := by
  cases p with
  | char c hc => cases h
  | next => cases h; rfl
  | index digits hne hdigits =>
    obtain rfl : digits = l := Option.some.inj h
    have hdecimal : ∀ c ∈ digits, Text.isDecimal c := fun c hc => by
      rw [Text.isDecimal, decimalValue?_of_isDigit (hdigits c hc)]
      rfl
    rw [positions?_numeral hne (fun c hc => isDigitLike_of_isDigit (hdigits c hc)) ⟨hdecimal,
      hshort⟩, valueOf_digits hdigits]
    rfl
  | name cs hcs =>
    obtain rfl : cs = l := Option.some.inj h
    cases cs with
    | nil => cases hcs
    | cons c cs =>
      have hc : Text.isDigitLike c = false := isDigitLike_of_starts (Bool.and_eq_true_iff.mp hcs).1
      unfold positions?
      rw [if_neg (by simp), if_neg (by simp [hc])]
      rfl

/-- What is found in a message, with the positions that are asked for. -/
def found (ps : List Piece) : List (String × Option Int) :=
  ps.filterMap fun p => p.label?.map fun l => (String.ofList l, p.asks.map Int.ofNat)

theorem mapM_labels (ps : List Piece) (hshort : ∀ p ∈ ps, p.isShort) :
    ((labels ps).map String.ofList).mapM (fun n => do return (n, ← positions? n))
      = .ok (found ps) := by
  induction ps with
  | nil => rfl
  | cons p ps ih =>
    obtain ⟨hp, hps⟩ := forall_mem_cons.mp hshort
    rw [labels_cons, found, filterMap_cons]
    cases hlabel : p.label? with
    | none => exact ih hps
    | some l =>
      rw [Option.toList_some, singleton_append, map_cons, mapM_cons, positions?_label hlabel hp,
        ih hps]
      rfl

theorem filterMap_found (ps : List Piece) :
    (found ps).filterMap (·.2) = (ps.filterMap Piece.asks).map Int.ofNat := by
  rw [found, filterMap_filterMap, map_filterMap]
  refine filterMap_congr fun p _ => ?_
  cases p <;> rfl

theorem names_found (ps : List Piece) : ((found ps).filter (·.2.isNone)).map (·.1) = names ps := by
  induction ps with
  | nil => rfl
  | cons p ps ih =>
    cases p with
    | char c hc => exact ih
    | next => exact ih
    | index digits hne hdigits => exact ih
    | name cs hcs => exact congrArg (String.ofList cs :: ·) ih

theorem asks_of_indices (h : indices ps = []) :
    ps.filterMap Piece.asks = replicate (nexts ps) 0 := by
  induction ps with
  | nil => rfl
  | cons p ps ih =>
    cases p with
    | char c hc => exact ih h
    | next =>
      have hnexts : nexts (.next :: ps) = nexts ps + 1 := countP_cons_of_pos rfl
      rw [hnexts, replicate_succ]
      exact congrArg (0 :: ·) (ih h)
    | index digits hne hdigits => cases h
    | name cs hcs => exact ih h

theorem asks_of_nexts (h : nexts ps = 0) : ps.filterMap Piece.asks = (indices ps).map (· + 1) := by
  unfold indices nexts at *
  rw [map_filterMap]
  refine filterMap_congr fun p hp => ?_
  have hnext := countP_eq_zero.mp h p hp
  cases p with
  | next => exact absurd rfl hnext
  | char c hc => rfl
  | index digits hne hdigits => rfl
  | name cs hcs => rfl

theorem foldl_max_ofNat (xs : List Nat) : ∀ k : Nat,
    (xs.map Int.ofNat).foldl max (Int.ofNat k) = Int.ofNat (xs.foldl max k) := by
  induction xs with
  | nil => exact fun _ => rfl
  | cons x xs ih =>
    intro k
    have hmax : max (Int.ofNat k) (Int.ofNat x) = Int.ofNat (max k x) := by
      show max (k : Int) (x : Int) = ((max k x : Nat) : Int)
      omega
    rw [map_cons, foldl_cons, hmax, ih, foldl_cons]

theorem foldl_max_succ (xs : List Nat) : ∀ k :
    Nat, (xs.map (· + 1)).foldl max (k + 1) = xs.foldl max k + 1 := by
  induction xs with
  | nil => exact fun _ => rfl
  | cons x xs ih =>
    intro k
    rw [map_cons, foldl_cons, Nat.add_max_add_right, ih, foldl_cons]

theorem foldl_max_le_iff (xs : List Nat) (n : Nat) : ∀ k : Nat, xs.foldl max k ≤ n ↔ k ≤ n ∧
    ∀ x ∈ xs, x ≤ n := by
  induction xs with
  | nil => simp
  | cons x xs ih =>
    intro k
    rw [foldl_cons, ih, forall_mem_cons, Nat.max_le, and_assoc]

/-- The largest number that is asked for, or how many there are if that is zero. -/
theorem most_asks (hstyle : OneStyle ps) :
    (if (ps.filterMap Piece.asks).foldl max 0 = 0 then (ps.filterMap Piece.asks).length
      else (ps.filterMap Piece.asks).foldl max 0) = needed ps := by
  unfold needed
  rcases hstyle with hnexts | hindices
  · rw [asks_of_nexts hnexts, hnexts]
    cases indices ps with
    | nil => rfl
    | cons x xs =>
      rw [map_cons, foldl_cons, Nat.zero_max, foldl_max_succ, if_neg (by simp), if_neg (by simp),
        foldl_cons, Nat.zero_max]
  · have hzero : (replicate (nexts ps) 0).foldl max 0 = 0 := by
      rw [← Nat.le_zero, foldl_max_le_iff]
      exact ⟨Nat.le_refl 0, fun x hx => Nat.le_of_eq (eq_of_mem_replicate hx)⟩
    rw [asks_of_indices hindices, hzero, if_pos rfl, if_pos hindices, length_replicate]

/-- **A message supplies its names, and as many positions as it needs.** -/
theorem argumentsOf_written (hstyle : OneStyle ps) (hshort : ∀ p ∈ ps, p.isShort) :
    argumentsOf (String.ofList (written ps)) = .ok ⟨needed ps, (names ps).eraseDups⟩ := by
  have hnat : ∀ most count : Nat, (if (Int.ofNat most == 0) then count else (Int.ofNat most).toNat)
      = if most = 0 then count else most := by
    intro most count
    cases most <;> rfl
  have hmost : ((ps.filterMap Piece.asks).map Int.ofNat).foldl max 0 = Int.ofNat _ :=
    foldl_max_ofNat (ps.filterMap Piece.asks) 0
  unfold argumentsOf
  rw [placeholders_written, mapM_labels ps hshort]
  simp only [bind, Except.bind, pure, Except.pure, filterMap_found, names_found, hmost, hnat,
    length_map, most_asks hstyle]

theorem needed_le_iff (hstyle : OneStyle ps) (n : Nat) :
    needed ps ≤ n ↔ nexts ps ≤ n ∧ ∀ i ∈ indices ps, i < n := by
  unfold needed
  split
  · rename_i hnone
    simp [hnone]
  · rename_i hsome
    have hnexts : nexts ps = 0 := hstyle.resolve_right hsome
    obtain ⟨i, hi⟩ := exists_mem_of_ne_nil _ hsome
    rw [hnexts]
    cases n with
    | zero => simpa using ⟨i, hi⟩
    | succ n =>
      simp only [Nat.add_le_add_iff_right, foldl_max_le_iff, Nat.zero_le, true_and,
        Nat.lt_add_one_iff]

/-! ## §4. Filling a message. -/

/-- How many positions have been numbered by their order. -/
def Numbering.used : Numbering → Nat
  | .automatic next => next
  | _ => 0

/-- Whether the fields of a message can be numbered on. -/
def Numbering.Suits : Numbering → List Piece → Prop
  | .undecided, ps => OneStyle ps
  | .automatic _, ps => indices ps = []
  | .manual, ps => nexts ps = 0

theorem get_plain (a : Arguments) (h : ∀ c ∈ l, isPlain c) (state : Numbering) :
    a.get l state = (number l state).bind fun (index, state) => index.elim
        (if a.names.contains (String.ofList l) then .ok (.number 0, state)
          else .error (.noName (String.ofList l)))
        fun i => if i < a.positions then .ok (.number i, state) else .error (.noIndex i) := by
  have hfirst : l.takeWhile (fun c => c != '.' && c != '[') = l :=
    takeWhile_eq_self_iff.mpr fun c hc => by
    simp [ne_of_isPlain (h c hc) (d := '.') (by decide),
      ne_of_isPlain (h c hc) (d := '[') (by decide)]
  unfold Arguments.get
  dsimp only
  rw [hfirst, drop_length]
  cases number l state with
  | error m => rfl
  | ok r =>
    obtain ⟨_ | i, state⟩ := r
    · simp only [bind, Except.bind, Option.elim]
      split <;> rfl
    · simp only [bind, Except.bind, Option.elim]
      split <;> rfl

/-- A field that is numbered by its order takes the next position. -/
theorem get_next (a : Arguments) (h : state ≠ .manual) :
    a.get [] state = if state.used < a.positions then .ok
    (.number state.used, .automatic (state.used + 1))
      else .error (.noIndex state.used) := by
  rw [get_plain a fun _ hc => by cases hc]
  cases state with
  | undecided => rfl
  | automatic next => rfl
  | manual => exact absurd rfl h

theorem number_index (hne : digits ≠ []) (h : ∀ c ∈ digits, c.isDigit)
    (hstate : ∀ next, state ≠ .automatic next) : number digits state
      = if maxNumber < Nat.ofDigitChars 10 digits 0 then .error .tooManyDigits
        else .ok (some (Nat.ofDigitChars 10 digits 0), .manual) := by
  have hdecimal : digits.takeWhile Text.isDecimal = digits :=
    takeWhile_eq_self_iff.mpr fun c hc => by
    rw [Text.isDecimal, decimalValue?_of_isDigit (h c hc)]
    rfl
  have hread : readNumber digits = if maxNumber <
    Nat.ofDigitChars 10 digits 0 then .error .tooManyDigits
      else .ok (some (Nat.ofDigitChars 10 digits 0), []) := by
    unfold readNumber
    dsimp only
    rw [hdecimal, if_neg (by simpa using hne), drop_length, ← valueOf_digits h]
    rfl
  unfold number indexOf?
  rw [hread]
  split
  · rfl
  · cases state with
    | undecided => rfl
    | automatic next => exact absurd rfl (hstate next)
    | manual => rfl

/-- A field with an index takes the argument at that position. -/
theorem get_index (a : Arguments) (hne : digits ≠ [])
    (h : ∀ c ∈ digits, c.isDigit) (hstate : ∀ next, state ≠ .automatic next) : a.get digits state
      = if maxNumber < Nat.ofDigitChars 10 digits 0 then .error .tooManyDigits
        else if Nat.ofDigitChars 10 digits 0 < a.positions then .ok
        (.number (Nat.ofDigitChars 10 digits 0), .manual)
        else .error (.noIndex (Nat.ofDigitChars 10 digits 0)) := by
  rw [get_plain a (isPlain_of_label (p := .index digits hne h) rfl), number_index hne h hstate]
  split <;> rfl

/-- A field with a name takes the argument of that name. -/
theorem get_name (a : Arguments) {cs : List Char} (h : isName cs) (state : Numbering) :
    a.get cs state = if a.names.contains (String.ofList cs) then .ok (.number 0, state)
      else .error (.noName (String.ofList cs)) := by
  have hnumber : number cs state = .ok (none, state) := by
    cases cs with
    | nil => cases h
    | cons c cs =>
      have hc : Text.isDecimal c = false := isDecimal_of_starts (Bool.and_eq_true_iff.mp h).1
      unfold number indexOf? readNumber
      rw [takeWhile_cons_of_neg (by simp [hc])]
      rfl
  rw [get_plain a (isPlain_of_label (p := .name cs h) rfl), hnumber]
  rfl

theorem fillFrom_nil (a : Arguments) (depth fuel : Nat) (state : Numbering) :
    fillFrom a (depth + 1) fuel state [] = .ok ("", state) := by
  cases fuel <;> rw [fillFrom]

/-- Plain text in front is laid out as it stands. -/
theorem fillFrom_char (a : Arguments) (hc : isBrace c = false) (depth fuel : Nat)
    (state : Numbering) (cs : List Char) :
    (∃ r, fillFrom a (depth + 1) (fuel + 1) state (c :: cs) = .ok r) ↔
      ∃ r, fillFrom a (depth + 1) (fuel + 1) state cs = .ok r := by
  cases cs with
  | nil =>
    have hread : readPart [c] = .ok (⟨[c], none⟩, []) := readPart_char hc []
    rw [fillFrom_nil, fillFrom, hread]
    · simp only [bind, Except.bind.eq_2, fillFrom_nil]
      exact iff_of_true ⟨_, rfl⟩ ⟨_, rfl⟩
    · simp
  | cons d cs =>
    rw [fillFrom, readPart_char hc, fillFrom]
    · cases readPart (d :: cs) with
      | error m => rfl
      | ok r =>
        obtain ⟨⟨plain, _ | f⟩, rest⟩ := r
        · simp only [bind, Except.map, Except.bind.eq_2, Traversal.exists_bind_iff, pure,
            Except.pure, Except.ok.injEq, exists_eq']
        · cases hnested : f.nested <;>
            simp only [bind, Except.map, Except.bind.eq_2, Traversal.exists_bind_iff, pure,
            Except.pure, Except.ok.injEq,
              exists_eq', hnested, Bool.false_eq_true, if_false, if_true]
    · simp
    · simp

theorem fillFrom_label (a : Arguments) (h : ∀ c ∈ l, isPlain c) (depth fuel : Nat)
    (state : Numbering) (rest : List Char) :
    (∃ r, fillFrom a (depth + 1) (fuel + 1) state ('\x7b' :: (l ++ '\x7d' :: rest)) = .ok r) ↔
      ∃ g, a.get l state = .ok g ∧ ∃ r, fillFrom a (depth + 1) fuel g.2 rest = .ok r := by
  rw [fillFrom, readPart_label h]
  · simp only [bind, Except.bind.eq_2, Traversal.exists_bind_iff, pure, Except.pure, convert,
      Bool.false_eq_true, if_false, Value.lay, String.toList_ofList, isEmpty_nil, if_true,
      Except.ok.injEq, exists_eq', and_true]
  · simp

/-- Whether arguments suit a message, of whose positions `used` have been numbered by their order
    before. -/
def Accepts (a : Arguments) (used : Nat) (ps : List Piece) : Prop :=
  (∀ n ∈ names ps, n ∈ a.names) ∧ (nexts ps = 0 ∨ used + nexts ps ≤ a.positions) ∧
    ∀ i ∈ indices ps, i ≤ maxNumber ∧ i < a.positions

theorem nexts_next (ps : List Piece) : nexts (.next :: ps) = nexts ps + 1 := countP_cons_of_pos rfl

theorem accepts_next (a : Arguments) (used : Nat) (ps : List Piece) :
    Accepts a used (.next :: ps) ↔ used < a.positions ∧ Accepts a (used + 1) ps := by
  have hpositions : nexts ps + 1 = 0 ∨ used + (nexts ps + 1) ≤ a.positions ↔
      used < a.positions ∧ (nexts ps = 0 ∨ used + 1 + nexts ps ≤ a.positions) := by omega
  unfold Accepts
  rw [nexts_next, hpositions]
  exact ⟨fun ⟨h₁, h₂, h₃⟩ => ⟨h₂.1, h₁, h₂.2, h₃⟩, fun ⟨h₁, h₂, h₃, h₄⟩ => ⟨h₂, ⟨h₁, h₃⟩, h₄⟩⟩

theorem accepts_index (a : Arguments) (used : Nat) (hnexts : nexts ps = 0)
    (hne : digits ≠ []) (h : ∀ c ∈ digits, c.isDigit) : Accepts a used (.index digits hne h :: ps) ↔
      (Nat.ofDigitChars 10 digits 0 ≤ maxNumber ∧ Nat.ofDigitChars 10 digits 0 < a.positions) ∧
      Accepts a 0 ps := by
  have hindices : indices (.index digits hne h :: ps) =
    Nat.ofDigitChars 10 digits 0 :: indices ps := rfl
  have hnexts' : nexts (.index digits hne h :: ps) = 0 := hnexts
  unfold Accepts
  rw [hindices, hnexts, hnexts', forall_mem_cons]
  exact ⟨fun ⟨h₁, _, h₃, h₄⟩ => ⟨h₃, h₁, .inl rfl, h₄⟩, fun ⟨h₁, h₂, _, h₄⟩ =>
    ⟨h₂, .inl rfl, h₁, h₄⟩⟩

theorem accepts_name (a : Arguments) (used : Nat) (ps : List Piece) {cs : List Char}
    (h : isName cs) : Accepts a used (.name cs h :: ps) ↔ String.ofList cs ∈ a.names ∧
    Accepts a used ps := by
  have hnames : names (.name cs h :: ps) = String.ofList cs :: names ps := rfl
  unfold Accepts
  rw [hnames, forall_mem_cons, and_assoc]
  exact Iff.rfl

theorem exists_ite_ok {ε α : Type} {c : Prop} [Decidable c] {x : α} {e : ε} {P : α → Prop} :
    (∃ g, (if c then .ok x else .error e : Except ε α) = .ok g ∧ P g) ↔ c ∧ P x := by
  split <;> simp_all

/-- **A message is filled by the arguments that suit it.**  The state tells how the fields before
    were numbered, which leaves one way for those that follow. -/
theorem fillFrom_written (a : Arguments) (depth : Nat) (ps : List Piece) :
    ∀ (fuel : Nat) (state : Numbering), ps.length < fuel → state.Suits ps →
      ((∃ r, fillFrom a (depth + 1) fuel state (written ps) = .ok r) ↔
      Accepts a state.used ps) := by
  induction ps with
  | nil =>
    intro fuel state _ _
    exact iff_of_true ⟨_, fillFrom_nil a depth fuel state⟩
      ⟨by simp [names], .inl rfl, by simp [indices]⟩
  | cons p ps ih =>
    intro fuel state hfuel hsuits
    rw [length_cons] at hfuel
    obtain ⟨fuel, rfl⟩ : ∃ k, fuel = k + 1 := ⟨fuel - 1, by omega⟩
    cases p with
    | char c hc =>
      have hrest := ih (fuel + 1) state (by omega) (by cases state <;> exact hsuits)
      exact (fillFrom_char a hc depth fuel state (written ps)).trans hrest
    | next =>
      -- empty braces do not stand beside numbers, so none was met before
      have hstate : state ≠ .manual := by
        rintro rfl
        exact absurd hsuits (by simp [Numbering.Suits, nexts_next])
      have hindices : indices ps = [] := by
        cases state with
        | undecided => exact hsuits.resolve_left (by simp [nexts_next])
        | automatic n => exact hsuits
        | manual => exact absurd rfl hstate
      refine (fillFrom_label a (l := []) (by simp) depth fuel state (written ps)).trans ?_
      rw [get_next a hstate, exists_ite_ok, accepts_next,
        ih fuel (.automatic (state.used + 1)) (by omega) hindices]
      rfl
    | index digits hne hdigits =>
      have hstate : ∀ n, state ≠ .automatic n := by
        rintro n rfl
        cases hsuits
      have hnexts : nexts ps = 0 := by
        cases state with
        | undecided => exact hsuits.resolve_right (by simp [indices])
        | automatic n => exact absurd rfl (hstate n)
        | manual => exact hsuits
      have hplain := isPlain_of_label (p := .index digits hne hdigits) rfl
      rw [written_cons, written_of_label (p := .index digits hne hdigits) rfl, cons_append,
        append_assoc]
      refine (fillFrom_label a hplain depth fuel state (written ps)).trans ?_
      rw [get_index a hne hdigits hstate, accepts_index a _ hnexts hne hdigits]
      -- a number that is too large is refused whatever there is
      by_cases hmax : maxNumber < Nat.ofDigitChars 10 digits 0
      · rw [if_pos hmax]
        exact iff_of_false (fun ⟨_, h, _⟩ => by cases h) fun h => absurd hmax (Nat.not_lt.mpr h.1.1)
      · rw [if_neg hmax, exists_ite_ok, ih fuel .manual (by omega) hnexts]
        exact and_congr_left' (iff_and_self.mpr fun _ => Nat.not_lt.mp hmax)
    | name cs hcs =>
      have hplain := isPlain_of_label (p := .name cs hcs) rfl
      rw [written_cons, written_of_label (p := .name cs hcs) rfl, cons_append, append_assoc]
      refine (fillFrom_label a hplain depth fuel state (written ps)).trans ?_
      rw [get_name a hcs, exists_ite_ok, accepts_name,
        ih fuel state (by omega) (by cases state <;> exact hsuits), contains_iff_mem]

/-- A message takes the arguments that have its names and the positions that it needs. -/
theorem fill_ok_iff (hstyle : OneStyle ps) {a : Arguments} {capacity : Nat}
    (hroom : a.positions ≤ room capacity) : fill (String.ofList (written ps)) a = .ok () ↔
    (∀ n ∈ names ps, n ∈ a.names) ∧ needed ps ≤ a.positions := by
  have hfuel := Nat.lt_succ_of_le (length_le_written ps)
  have hfill : fill (String.ofList (written ps)) a = .ok () ↔
      ∃ r, fillFrom a 2 ((written ps).length + 1) .undecided (written ps) = .ok r := by
    unfold fill
    rw [String.toList_ofList, ← String.length_toList, String.toList_ofList]
    cases fillFrom a 2 ((written ps).length + 1) .undecided (written ps) <;> simp [bind,
      Except.bind, pure, Except.pure]
  have hnumber : ∀ i, i < a.positions → i ≤ maxNumber := by
    unfold room maxPositions at hroom
    unfold maxNumber
    omega
  rw [hfill, fillFrom_written a 1 ps _ .undecided hfuel hstyle, needed_le_iff hstyle, Accepts]
  refine and_congr_right fun _ => and_congr ?_ (forall₂_congr fun i _ =>
    and_iff_right_of_imp (hnumber i))
  show nexts ps = 0 ∨ 0 + nexts ps ≤ a.positions ↔ nexts ps ≤ a.positions
  omega

/-! ## §5. The verdict on a translation. -/

/-- Fields that do not take the arguments of others: one has a name that these have not, or they
    need more positions. -/
def Unmet (source translated : List Piece) : Prop :=
  (∃ n ∈ names translated, n ∉ names source) ∨ needed source < needed translated

/-- A message with a field needs a position or has a name. -/
theorem needs_of_labels (hstyle : OneStyle ps) (h : labels ps ≠ []) :
    needed ps ≠ 0 ∨ names ps ≠ [] := by
  by_contra hnot
  obtain ⟨hneeded, hnames⟩ := not_or.mp hnot
  have hnone := (needed_le_iff hstyle 0).mp (Nat.le_zero.mpr (not_not.mp hneeded))
  obtain ⟨l, hl⟩ := exists_mem_of_ne_nil _ h
  obtain ⟨p, hp, hlabel⟩ := mem_filterMap.mp hl
  cases p with
  | char c hc => cases hlabel
  | next => exact absurd (countP_pos_iff.mpr ⟨.next, hp, rfl⟩) (Nat.not_lt.mpr hnone.1)
  | index digits hne hdigits => exact Nat.not_lt_zero _ (hnone.2 _ (mem_filterMap.mpr ⟨_, hp, rfl⟩))
  | name cs hcs =>
    have hname : String.ofList cs ∈ names ps := mem_filterMap.mpr ⟨_, hp, rfl⟩
    exact hnames (ne_nil_of_mem hname)

/-- **The verdict on a translation with simple fields**, on a machine of any capacity.  If the
    positions that the source needs can be handed over, the translation is refused exactly if it has
    a name that the source has not, or needs more positions; else it is accepted.  If they cannot,
    the source does not take its own arguments, and every translation is accepted. -/
theorem check_pieces (capacity : Nat) (source translated : List Piece)
    (hfields : labels source ≠ []) (hsource : OneStyle source) (htranslated : OneStyle translated)
    (hshort : ∀ p ∈ source, p.isShort) :
    (needed source ≤ room capacity →
      ((∃ m, check (String.ofList (written source)) (String.ofList (written translated)) capacity
          = .ok (.error m))
        ↔ Unmet source translated) ∧
      (¬ Unmet source translated →
        check (String.ofList (written source)) (String.ofList (written translated)) capacity
          = .ok (.ok ()))) ∧
    (room capacity < needed source →
      check (String.ofList (written source)) (String.ofList (written translated)) capacity
        = .ok (.ok ())) := by
  have hverdict := check_of_argumentsOf (argumentsOf_written hsource hshort)
    (String.ofList (written translated)) capacity
  constructor
  · intro hroom
    have hfill {ps : List Piece} (hstyle : OneStyle ps) :=
      fill_ok_iff hstyle (a := ⟨needed source, (names source).eraseDups⟩) hroom
    simp only [List.mem_eraseDups] at hfill
    -- the source takes what it needs
    have htaken : Arguments.Taken ⟨needed source, (names source).eraseDups⟩ capacity
        (String.ofList (written source)) := by
      refine ⟨?_, hroom, (hfill hsource).mpr ⟨fun _ hn => hn, Nat.le_refl _⟩⟩
      refine (needs_of_labels hsource hfields).imp_right fun hnames => ?_
      obtain ⟨n, hn⟩ := List.exists_mem_of_ne_nil _ hnames
      exact List.ne_nil_of_mem (List.mem_eraseDups.mpr hn)
    have hmet : fill (String.ofList (written translated)) ⟨needed source,
      (names source).eraseDups⟩ = .ok ()
        ↔ ¬ Unmet source translated := by
      rw [hfill htranslated, Unmet, not_or, Nat.not_lt]
      simp
    rw [hverdict.1 htaken]
    cases hresult : fill (String.ofList (written translated)) ⟨needed source,
      (names source).eraseDups⟩ with
    | ok u => exact ⟨iff_of_false (fun ⟨m, hm⟩ => by cases hm) (hmet.mp hresult), fun _ => rfl⟩
    | error m =>
      have hunmet : Unmet source translated := by
        by_contra hnot
        rw [hmet.mpr hnot] at hresult
        cases hresult
      exact ⟨iff_of_true ⟨m, rfl⟩ hunmet, fun hnot => absurd hunmet hnot⟩
  · intro hroom
    exact hverdict.2 fun htaken => absurd htaken.2.1 (Nat.not_le.mpr hroom)

/-- A source with a name and two positions. -/
def ofTotal : List Piece :=
  [.next, .char '\n' (by decide), .name "total".toList (by decide), .next]

/-- One index too many for a source with two positions, and one that fits, are told apart on an
    ordinary machine; where one argument fills the memory, neither is. -/
theorem check_pieces_ofTotal :
    check (String.ofList (written ofTotal)) "\x7b01\x7d \x7btotal\x7d" = .ok (.ok ()) ∧
      (∃ m, check (String.ofList (written ofTotal)) "\x7b2\x7d" = .ok (.error m)) ∧
      check (String.ofList (written ofTotal)) "\x7b2\x7d" 1 = .ok (.ok ()) := by
  have hroom : needed ofTotal ≤ room usualCapacity := by decide
  have hshort : ∀ p ∈ ofTotal, p.isShort := by simp [ofTotal, Piece.isShort]
  refine ⟨?_, ?_, ?_⟩
  · refine ((check_pieces usualCapacity ofTotal
      [.index ['0', '1'] (by decide) (by simp), .char ' ' (by decide), .name "total".toList
      (by decide)]
      (by decide) (.inr rfl) (.inl rfl) hshort).1 hroom).2 ?_
    rintro (⟨n, hn, hnot⟩ | h)
    · exact hnot hn
    · exact absurd h (by decide)
  · exact ((check_pieces usualCapacity ofTotal [.index ['2'] (by decide) (by simp)] (by decide)
      (.inr rfl) (.inl rfl) hshort).1 hroom).1.mpr (.inr (by decide))
  · exact (check_pieces 1 ofTotal [.index ['2'] (by decide) (by simp)] (by decide) (.inr rfl)
      (.inl rfl) hshort).2 (by decide)

/-- An index that no call can supply, on any machine: the source does not take its own arguments,
    and a translation with a name that the source has not is accepted. -/
theorem check_beyond_positions :
    Unmet [.index "9223372036854775808".toList (by decide) (List.all_eq_true.mp (by decide))]
        [.name ['x'] (by decide)] ∧
      ∀ capacity, check "\x7b9223372036854775808\x7d" "\x7bx\x7d" capacity = .ok (.ok ()) := by
  refine ⟨.inl ⟨"x", by simp [names], by simp [names]⟩, fun capacity => ?_⟩
  let ps : List Piece := [.index "9223372036854775808".toList (by decide) (by simp)]
  have hshort : ∀ p ∈ ps, p.isShort := by simp [ps, Piece.isShort, Decimal.maxDigits]
  have harguments := argumentsOf_written (.inl rfl) hshort
  have hmany : room capacity < needed ps := Nat.lt_of_le_of_lt (Nat.min_le_right _ _) (by decide)
  exact (check_of_argumentsOf harguments "\x7bx\x7d" capacity).2 fun htaken =>
    absurd htaken.2.1 (Nat.not_le.mpr hmany)

end AddonAudit.Braces
