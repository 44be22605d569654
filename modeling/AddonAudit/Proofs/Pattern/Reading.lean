/-
  AddonAudit.Proofs.Pattern.Reading — reading patterns that are put together.

  A pattern is written as tokens, and tokens are read one after another.  A clause is a list of
  tokens that is read as nodes wherever it stands; clauses can stand one after another and be the
  options of a group.  So the tree of a pattern follows from how it is put together, whatever texts
  go into it.
-/
import AddonAudit.Proofs.Pattern.Language
import AddonAudit.Proofs.Pattern.Template

namespace AddonAudit.Pattern

open List

/-! ## §1. Tokens. -/

/-- Whether characters are a token: one character, or a backslash and the character after it. -/
def IsToken (t : List Char) : Prop := (∃ c, c ≠ '\\' ∧ t = [c]) ∨ ∃ c, t = ['\\', c]

/-- Whether all of a list are tokens. -/
def Tokens (ts : List (List Char)) : Prop := ∀ t ∈ ts, IsToken t

/-- Whether tokens do not start with a sign that changes what stands before them. -/
def Quiet (ts : List (List Char)) : Prop := ts.head? ≠ some ['?'] ∧ ts.head? ≠ some ['+']

/-- A state in which groups from a number on are free and no condition asks for a group. -/
structure Fresh (g : Nat) (s : State) : Prop where
  groups : s.groups = g
  asked : s.asked = []

/-- Such a state before tokens, of which there are at most as many as the pattern has characters. -/
structure At (g : Nat) (ts : List (List Char)) (s : State) : Prop extends Fresh g s where
  tokens : Tokens ts
  next : s.next = ts.head?
  rest : s.rest = ts.tail.flatten
  length : ts.length ≤ s.length

variable {c : Char} {g : Nat} {s : State} {t : List Char} {ts : List (List Char)}

theorem isToken_char (h : c ≠ '\\') : IsToken [c] := .inl ⟨c, h, rfl⟩

theorem isToken_escape (c : Char) : IsToken ['\\', c] := .inr ⟨c, rfl⟩

theorem IsToken.length_pos (h : IsToken t) : 0 < t.length := by
  rcases h with ⟨c, -, rfl⟩ | ⟨c, rfl⟩
  · exact Nat.zero_lt_one
  · exact Nat.zero_lt_two

theorem tokens_nil : Tokens [] := fun _ h => absurd h not_mem_nil

theorem Tokens.cons (hts : Tokens ts) (ht : IsToken t) :
    Tokens (t :: ts) := forall_mem_cons.mpr ⟨ht, hts⟩

theorem Tokens.append {us : List (List Char)} (hts : Tokens ts) (hus : Tokens us) :
    Tokens (ts ++ us) :=
  forall_mem_append.mpr ⟨hts, hus⟩

theorem Tokens.length_le (h : Tokens ts) : ts.length ≤ ts.flatten.length := by
  induction ts with
  | nil => exact Nat.le_refl 0
  | cons t ts ih =>
    obtain ⟨ht, hts⟩ := forall_mem_cons.mp h
    have hfirst := ht.length_pos
    have hrest := ih hts
    rw [flatten_cons, length_cons, length_append]
    omega

/-- The token after the next one is found. -/
theorem Fresh.advance (h : Fresh g s) (hts : Tokens ts) (hrest : s.rest = ts.flatten)
    (hlength : ts.length ≤ s.length) : ∃ s', advance s = .ok ((), s') ∧ At g ts s' := by
  cases ts with
  | nil =>
    refine ⟨{ s with next := none }, ?_,
      { h with tokens := hts, next := rfl, rest := hrest, length := hlength }⟩
    unfold Pattern.advance
    rw [get_bind, hrest]
    rfl
  | cons t ts =>
    rcases hts t mem_cons_self with ⟨c, hc, rfl⟩ | ⟨c, rfl⟩
    · exact ⟨_, advance_char hrest hc,
        { h with tokens := hts, next := rfl, rest := rfl, length := hlength }⟩
    · refine ⟨{ s with next := some ['\\', c], rest := ts.flatten, index := s.index + 2 }, ?_,
        { h with tokens := hts, next := rfl, rest := rfl, length := hlength }⟩
      unfold Pattern.advance
      rw [get_bind, hrest]
      rfl

theorem At.advance (h : At g (t :: ts) s) : ∃ s', advance s = .ok ((), s') ∧ At g ts s' :=
  h.toFresh.advance (forall_mem_cons.mp h.tokens).2 h.rest (Nat.le_of_succ_le h.length)

theorem At.token (h : At g (t :: ts) s) : ∃ s', token s = .ok (some t, s') ∧ At g ts s' := by
  obtain ⟨s', hadvance, hs'⟩ := h.advance
  exact ⟨s', (token_of_advance hadvance).trans (by rw [h.next, head?_cons]), hs'⟩

theorem At.accept (h : At g ([c] :: ts) s) : ∃ s', accept c s = .ok (true, s') ∧ At g ts s' := by
  obtain ⟨s', hadvance, hs'⟩ := h.advance
  refine ⟨s', ?_, hs'⟩
  unfold Pattern.accept
  rw [get_bind, h.next, head?_cons, if_pos (beq_self_eq_true _), bind_of_ok hadvance]
  rfl

theorem tell_eq (s : State) : tell s = .ok (s.tell, s) := rfl

theorem accept_other (h : s.next ≠ some [c]) : accept c s = .ok (false, s) := by
  unfold accept
  rw [get_bind, if_neg (by simpa using h)]
  rfl

/-! ## §2. Clauses. -/

/-- Tokens that are read as nodes, whatever comes before and if what comes after is of a kind;
    groups from `g` on are used, and those from `g'` on are still free.  There are four steps for
    each token. -/
structure Reads (After : List (List Char) → Prop) (g g' : Nat) (ts : List (List Char))
    (ns : List Node) : Prop where
  tokens : Tokens ts
  quiet : ∀ {more}, After more → Quiet (ts ++ more)
  read : ∀ {fuel : Nat} (first : Bool) (before : List Node) {s : State} {more : List (List Char)},
    At g (ts ++ more) s → After more → 4 * (ts ++ more).length ≤ fuel →
      ∃ k s', readSequence fuel first {} before s = readSequence k first {} (ns.reverse ++
      before) s' ∧
        4 * more.length ≤ k ∧ At g' more s'

/-- Tokens that are read as nodes, if no sign of repetition comes after them. -/
abbrev Clause := Reads Quiet

/-- Tokens that are read as one node, whatever comes after them: a sign of repetition too. -/
abbrev Atom (g g' : Nat) (ts : List (List Char)) (n : Node) :
    Prop := Reads (fun _ => True) g g' ts [n]

theorem clause_nil (g : Nat) : Clause g g [] [] :=
  ⟨tokens_nil, id, fun _ _ s _ hs _ hfuel => ⟨_, s, rfl, hfuel, hs⟩⟩

/-- **Clauses one after another.** -/
theorem Clause.append {g₁ g₂ g₃ : Nat} {ts us : List (List Char)} {ns ms : List Node}
    (h : Clause g₁ g₂ ts ns) (h' : Clause g₂ g₃ us ms) : Clause g₁ g₃ (ts ++ us) (ns ++ ms) := by
  refine ⟨h.tokens.append h'.tokens, fun hquiet => ?_, ?_⟩
  · rw [append_assoc]
    exact h.quiet (h'.quiet hquiet)
  · intro fuel first before s more hs hquiet hfuel
    rw [append_assoc] at hs hfuel
    obtain ⟨k, s₁, hread, hk, hs₁⟩ := h.read first before hs (h'.quiet hquiet) hfuel
    obtain ⟨k', s₂, hread', hk', hs₂⟩ := h'.read first (ns.reverse ++ before) hs₁ hquiet hk
    exact ⟨k', s₂, by rw [hread, hread', reverse_append, append_assoc], hk', hs₂⟩

theorem Atom.clause {g' : Nat} {n : Node} (h : Atom g g' ts n) : Clause g g' ts [n] :=
  ⟨h.tokens, fun _ => h.quiet trivial, fun first before _ _ hs _ => h.read first before hs trivial⟩

/-! ## §3. Single tokens. -/

section Atoms

variable {n : Node}

/-- A token that is read as a node, together with those that belong to it. -/
theorem atom_of_step {us : List (List Char)} {x : Read Node} (ht : IsToken t) (hus : Tokens us)
    (hquiet : t ≠ ['?'] ∧ t ≠ ['+'])
    (hstep : ∀ (fuel : Nat) (first : Bool) (before : List Node) (s : State),
      readSequence (fuel + 1) first {} before { s with next := some t }
        = (advance >>= fun _ => x >>= fun n => readSequence fuel first {} (n :: before))
        { s with next := some t })
    (hx : ∀ {s more}, At g (us ++ more) s → ∃ s', x s = .ok (n, s') ∧ At g more s') :
    Atom g g (t :: us) n := by
  refine ⟨hus.cons ht, fun _ => ⟨?_, ?_⟩, ?_⟩
  · exact fun h => hquiet.1 (Option.some.inj h)
  · exact fun h => hquiet.2 (Option.some.inj h)
  · intro fuel first before s more hs _ hfuel
    rw [cons_append, length_cons, length_append] at hfuel
    obtain ⟨fuel, rfl⟩ : ∃ n, fuel = n + 1 := ⟨fuel - 1, by omega⟩
    obtain ⟨s₁, hadvance, hs₁⟩ := hs.advance
    obtain ⟨s₂, hnode, hs₂⟩ := hx hs₁
    refine ⟨fuel, s₂, ?_, by omega, hs₂⟩
    have hsame : s = { s with next := some t } := by rw [← show s.next = some t from hs.next]
    rw [hsame, hstep, ← hsame, bind_of_ok hadvance, bind_of_ok hnode]
    rfl

variable (g : Nat)

/-- A sign that stands for a node. -/
theorem atom_sign {c : Char} (hc : c ≠ '\\' ∧ c ≠ '?' ∧ c ≠ '+')
    (hstep : ∀ (fuel : Nat) (first : Bool) (before : List Node) (s : State),
      readSequence (fuel + 1) first {} before { s with next := some [c] }
        = (advance >>= fun _ => readSequence fuel first {} (n :: before))
        { s with next := some [c] }) :
    Atom g g [[c]] n :=
  atom_of_step (x := pure n) (isToken_char hc.1) tokens_nil (by simpa using hc.2) hstep fun hs =>
  ⟨_, rfl, hs⟩

/-- A character without a meaning of its own stands for itself. -/
theorem atom_plain {c : Char} (h : isPlainToken c) : Atom g g [[c]] (literal {} c.toNat) := by
  have hne : ∀ d, isPlainToken d = false → c ≠ d := by
    rintro d hd rfl
    rw [h] at hd
    cases hd
  refine atom_sign g ⟨hne _ (by decide), hne _ (by decide), hne _ (by decide)⟩
    fun fuel first before s => ?_
  have hends : endsSequence [c] = false := by
    simpa [endsSequence] using ⟨hne '|' (by decide), hne ')' (by decide)⟩
  show (if endsSequence [c] then _ else _ : Read (List Node)) _ = _
  rw [if_neg (by rw [hends]; exact Bool.false_ne_true)]
  exact congrArg (fun f => (advance >>= f) _) (funext fun _ => if_pos h)

theorem atom_dot : Atom g g [['.']] (.any false) := atom_sign g (by decide) fun _ _ _ _ => rfl

theorem atom_start : Atom g g [['^']] (.spot (.start false)) :=
    atom_sign g (by decide) fun _ _ _ _ => rfl

theorem atom_finish : Atom g g [['$']] (.spot (.finish false)) :=
    atom_sign g (by decide) fun _ _ _ _ => rfl

/-- An escape that is read as a node. -/
theorem atom_escape {c : Char} (h : ∀ s, escape {} c s = .ok (n, s)) : Atom g g [['\\', c]] n :=
  atom_of_step (isToken_escape c) tokens_nil (by simp) (fun _ _ _ _ => rfl) fun hs => ⟨_, h _, hs⟩

/-- A decimal digit. -/
def digit : Node := .set ⟨[.named .digit false false], false, false⟩

theorem atom_digit : Atom g g [['\\', 'd']] digit := atom_escape g fun _ => rfl

/-- A capital letter. -/
def capital : Node := .set ⟨[.span 65 90], false, false⟩

/-- The tokens of a capital letter. -/
def capitalTokens : List (List Char) := [['['], ['A'], ['-'], ['Z'], [']']]

theorem readSet_capital {g : Nat} (hs : At g (['A'] :: ['-'] :: ['Z'] :: [']'] :: ts) s) :
    ∃ s', readSet {} s = .ok (capital, s') ∧ At g ts s' := by
  obtain ⟨n, hn⟩ : ∃ n, s.length + 1 = n + 1 + 1 :=
    ⟨s.length - 1, by have := hs.length; simp at this; omega⟩
  have hnone : accept '^' s = .ok (false, s) := accept_other (by simp [hs.next])
  have hfirst : ∀ s, setMember false ['A'] s = .ok (.span 65 65, s) := fun _ => rfl
  have hsecond : ∀ s, setMember false ['Z'] s = .ok (.span 90 90, s) := fun _ => rfl
  obtain ⟨s₁, h₁, hs₁⟩ := hs.token
  obtain ⟨s₂, h₂, hs₂⟩ := hs₁.accept
  obtain ⟨s₃, h₃, hs₃⟩ := hs₂.token
  obtain ⟨s₄, h₄, hs₄⟩ := hs₃.token
  have hmembers : ∀ start, setMembers false start (n + 1 + 1) [] s = .ok ([.span 65 90], s₄) := by
    intro start
    refine (bind_of_ok h₁).trans ?_
    refine (bind_of_ok (hfirst _)).trans ?_
    refine (bind_of_ok h₂).trans ?_
    refine (bind_of_ok h₃).trans ?_
    refine (bind_of_ok (hsecond _)).trans ?_
    exact bind_of_ok h₄
  refine ⟨s₄, ?_, hs₄⟩
  unfold readSet
  refine (bind_of_ok (tell_eq _)).trans ?_
  refine (bind_of_ok hnone).trans ?_
  rw [get_bind, hn, bind_of_ok (hmembers _)]
  rfl

theorem atom_capital : Atom g g capitalTokens capital := by
  refine atom_of_step (isToken_char (by decide)) ?_ (by decide) (fun _ _ _ _ => rfl) readSet_capital
  refine (((tokens_nil.cons ?_).cons ?_).cons ?_).cons ?_
  all_goals exact isToken_char (by decide)

end Atoms

section Repetition

variable {fuel : Nat} {first : Bool} {before : List Node} {n : Node}

/-- Whether a node may be repeated. -/
def Node.isRepeatable : Node → Bool
  | .spot _ => false
  | .loop _ _ _ _ => false
  | _ => true

theorem repeatLast_greedy (position least : Nat) (hn : n.isRepeatable) (hs : At g ts s)
    (hquiet : Quiet ts) :
    repeatLast position least none (n :: before) s = .ok (.loop .greedy least none [n] :: before,
    s) := by
  rw [Quiet, ← hs.next] at hquiet
  have hmode : readMode s = .ok (.greedy, s) :=
    (bind_of_ok (accept_other hquiet.1)).trans (bind_of_ok (accept_other hquiet.2))
  cases n with
  | spot x => cases hn
  | loop mode least most body => cases hn
  | _ => exact bind_of_ok hmode

/-- **An atom that is repeated:** after a plus at least once, after a star as often as one likes. -/
theorem Atom.many {g' : Nat} (h : Atom g g' ts n) (hn : n.isRepeatable) {least : Nat}
    (hc : c = '+' ∧ least = 1 ∨ c = '*' ∧ least = 0) :
    Clause g g' (ts ++ [[c]]) [.loop .greedy least none [n]] := by
  have htoken : IsToken [c] := by
    rcases hc with ⟨rfl, -⟩ | ⟨rfl, -⟩
    · exact isToken_char (by decide)
    · exact isToken_char (by decide)
  refine ⟨h.tokens.append (tokens_nil.cons htoken), fun _ => ?_, ?_⟩
  · rw [append_assoc]
    exact h.quiet trivial
  · intro fuel first before s more hs hquiet hfuel
    rw [append_assoc] at hs hfuel
    obtain ⟨k, s₁, hread, hk, hs₁⟩ := h.read first before hs trivial hfuel
    rw [singleton_append, length_cons] at hk
    obtain ⟨k, rfl⟩ : ∃ n, k = n + 1 := ⟨k - 1, by omega⟩
    obtain ⟨s₂, hadvance, hs₂⟩ := hs₁.advance
    refine ⟨k, s₂, hread.trans ?_, by omega, hs₂⟩
    show (get >>= _ : Read (List Node)) s₁ = _
    rw [get_bind, hs₁.next]
    rcases hc with ⟨rfl, rfl⟩ | ⟨rfl, rfl⟩
    · exact (bind_of_ok hadvance).trans (bind_of_ok (repeatLast_greedy _ 1 hn hs₂ hquiet))
    · exact (bind_of_ok hadvance).trans (bind_of_ok (repeatLast_greedy _ 0 hn hs₂ hquiet))

/-- A sequence ends with the pattern, before the next option and before the end of its group. -/
theorem readSequence_end (hnext : s.next = none ∨ s.next = some ['|'] ∨ s.next = some [')']) :
    readSequence fuel first {} before s = .ok (before.reverse, s) := by
  cases fuel with
  | zero => rfl
  | succ fuel =>
    show (get >>= _ : Read (List Node)) s = _
    rw [get_bind]
    rcases hnext with hnext | hnext | hnext
    · rw [hnext]
      rfl
    · rw [hnext]
      rfl
    · rw [hnext]
      rfl

end Repetition

/-! ## §4. Texts. -/

/-- The nodes of a text that stands for itself. -/
def literals (cs : List Char) : List Node := cs.map fun c => literal {} c.toNat

theorem clause_literals (g : Nat) {f : Char → List Char} {cs : List Char}
    (h : ∀ c ∈ cs, Atom g g [f c] (literal {} c.toNat)) : Clause g g (cs.map f) (literals cs) := by
  induction cs with
  | nil => exact clause_nil g
  | cons c cs ih =>
    obtain ⟨hc, hcs⟩ := forall_mem_cons.mp h
    exact hc.clause.append (ih hcs)

/-- A special character after a backslash stands for itself. -/
theorem escape_special (h : isSpecial c) (s : State) :
    escape {} c s = .ok (literal {} c.toNat, s) := by
  have hmem : c ∈ ['(', ')', '[', ']', '\x7b', '\x7d', '?', '*', '+', '-', '|', '^', '$', '\\', '.',
    '&', '~', '#',
      ' ', '\t', '\n', '\r', '\x0b', '\x0c'] := contains_iff_mem.mp h
  simp only [mem_cons, not_mem_nil, or_false] at hmem
  rcases hmem with rfl | rfl | rfl | rfl | rfl | rfl | rfl | rfl | rfl | rfl | rfl | rfl | rfl | rfl | rfl | rfl | rfl
    | rfl | rfl | rfl | rfl | rfl | rfl | rfl
  all_goals rfl

theorem isPlainToken_of_not_isSpecial (h : isSpecial c = false) : isPlainToken c := by
  have hall : ∀ d ∈ ".\\[\x7b()*+?^$|".toList, isSpecial d := all_eq_true.mp (by decide)
  unfold isPlainToken
  rw [Bool.not_eq_true', Bool.eq_false_iff]
  intro hmem
  rw [hall c (contains_iff_mem.mp hmem)] at h
  cases h

/-- The tokens of a quoted text. -/
def quoteTokens (text : String) : List (List Char) :=
  text.toList.map fun c => if isSpecial c then ['\\', c] else [c]

theorem flatten_quoteTokens (text : String) : (quoteTokens text).flatten = (quote text).toList := by
  unfold quoteTokens quote
  rw [String.toList_ofList, flatMap_def]

/-- **A quoted text stands for itself.** -/
theorem clause_quote (g : Nat) (text : String) :
    Clause g g (quoteTokens text) (literals text.toList) := by
  refine clause_literals g fun c _ => ?_
  cases h : isSpecial c with
  | true => exact atom_escape g (escape_special h)
  | false => exact atom_plain g (isPlainToken_of_not_isSpecial h)

/-! ## §5. Options. -/

/-- Tokens that are read as options, up to the parenthesis after them. -/
structure Options (g g' : Nat) (ts : List (List Char)) (os : List (List Node)) : Prop where
  tokens : Tokens ts
  quiet : ∀ more, Quiet (ts ++ [')'] :: more)
  read : ∀ {fuel : Nat} (first : Bool) {s : State} {more : List (List Char)},
    At g (ts ++ [')'] :: more) s → 4 * (ts ++ [')'] :: more).length < fuel →
      ∃ s', readOptions fuel false {} first s = .ok (os, s') ∧ At g' ([')'] :: more) s'

section Cases

variable {g₁ g₂ g₃ : Nat} {ts us : List (List Char)} {ns : List Node} {os : List (List Node)}

/-- A clause before the end of an option. -/
theorem Clause.read_end (h : Clause g₁ g₂ ts ns) {s : State} {more : List (List Char)} {fuel : Nat}
    (first : Bool) (hs : At g₁ (ts ++ more) s) (hfuel : 4 * (ts ++ more).length ≤ fuel)
    (hmore : more.head? = none ∨ more.head? = some ['|'] ∨ more.head? = some [')']) :
    ∃ s', readSequence fuel first {} [] s = .ok (ns, s') ∧ At g₂ more s' := by
  have hquiet : Quiet more := by
    unfold Quiet
    rcases hmore with hmore | hmore | hmore
    all_goals simp [hmore]
  obtain ⟨k, s', hread, -, hs'⟩ := h.read first [] hs hquiet hfuel
  rw [← hs'.next] at hmore
  rw [readSequence_end hmore, append_nil, reverse_reverse] at hread
  exact ⟨s', hread, hs'⟩

theorem Clause.option (h : Clause g₁ g₂ ts ns) : Options g₁ g₂ ts [ns] := by
  refine ⟨h.tokens, fun more => h.quiet ⟨nofun, nofun⟩, ?_⟩
  intro fuel first s more hs hfuel
  obtain ⟨fuel, rfl⟩ : ∃ n, fuel = n + 1 := ⟨fuel - 1, by omega⟩
  obtain ⟨s', hend, hs'⟩ := h.read_end false hs (Nat.le_of_lt_succ hfuel) (.inr (.inr rfl))
  refine ⟨s', ?_, hs'⟩
  rw [readOptions]
  exact (bind_of_ok hend).trans (bind_of_ok (accept_other (by simp [hs'.next])))

/-- An option before others. -/
theorem Clause.or (h : Clause g₁ g₂ ts ns) (hos : Options g₂ g₃ us os) :
    Options g₁ g₃ (ts ++ ['|'] :: us) (ns :: os) := by
  refine ⟨h.tokens.append (hos.tokens.cons (isToken_char (by decide))), fun more => ?_, ?_⟩
  · rw [append_assoc]
    exact h.quiet ⟨nofun, nofun⟩
  · intro fuel first s more hs hfuel
    obtain ⟨fuel, rfl⟩ : ∃ n, fuel = n + 1 := ⟨fuel - 1, by omega⟩
    rw [append_assoc] at hs hfuel
    obtain ⟨s₁, hend, hs₁⟩ := h.read_end false hs (Nat.le_of_lt_succ hfuel) (.inr (.inl rfl))
    obtain ⟨s₂, haccept, hs₂⟩ := hs₁.accept
    have hlength : 4 * (us ++ [')'] :: more).length < fuel := by
      rw [length_append, cons_append, length_cons] at hfuel
      omega
    obtain ⟨s₃, hoptions, hs₃⟩ := hos.read false hs₂ hlength
    refine ⟨s₃, ?_, hs₃⟩
    rw [readOptions]
    refine (bind_of_ok hend).trans ?_
    refine (bind_of_ok haccept).trans ?_
    rw [if_pos rfl, get_bind]
    exact bind_of_ok hoptions

/-- Options as one sequence. -/
def bodyOf : List (List Node) → List Node
  | [o] => o
  | os => [.choice os]

theorem readBody_of_readOptions {fuel : Nat} {s s' : State}
    (h : readOptions fuel false {} true s = .ok (os, s')) :
    readBody (fuel + 1) {} s = .ok (bodyOf os, s') := by
  rw [readBody]
  refine (bind_of_ok h).trans ?_
  match os with
  | [] => rfl
  | [o] => rfl
  | o :: o' :: os => rfl

/-- A group is opened, read and closed. -/
theorem readGroup_capture {fuel g' : Nat} (start : Nat) {s s' : State} {body : List Node}
    (hs : s.groups = g) (h : readBody fuel {} { s with groups := g + 1 } = .ok (body, s'))
    (hs' : At g' ([')'] :: ts) s') :
    ∃ s'', readGroup (fuel + 1) {} start (.capture none) s = .ok (.group (some g) body, s'') ∧
    At g' ts s'' := by
  obtain ⟨s₁, haccept, hs₁⟩ := hs'.accept
  have hopen : openGroup none s = .ok (g, { s with groups := g + 1 }) := by
    subst hs
    rfl
  have hclosing : closing start s' = .ok ((), s₁) := by
    unfold closing
    rw [bind_of_ok haccept]
    rfl
  refine ⟨{ s₁ with widths := (g, widthOf s₁.widths body) :: s₁.widths }, ?_, { hs₁ with }⟩
  rw [readGroup]
  refine (bind_of_ok hopen).trans ?_
  refine (bind_of_ok h).trans ?_
  exact bind_of_ok hclosing

/-- **Options in parentheses.** -/
theorem Options.atom {g g' : Nat} (h : Options (g + 1) g' ts os) :
    Atom g g' (['('] :: (ts ++ [[')']])) (.group (some g) (bodyOf os)) := by
  have hclose : Tokens [[')']] := tokens_nil.cons (isToken_char (by decide))
  refine ⟨(h.tokens.append hclose).cons (isToken_char (by decide)), fun _ => ⟨nofun, nofun⟩, ?_⟩
  intro fuel first before s more hs _ hfuel
  rw [cons_append, append_assoc, singleton_append] at hs hfuel
  rw [length_cons] at hfuel
  -- the group, its body and its options take a step each; the parenthesis brings four
  obtain ⟨fuel, rfl⟩ : ∃ n, fuel = n + 1 + 1 + 1 := ⟨fuel - 3, by omega⟩
  obtain ⟨s₁, hadvance, hs₁⟩ := hs.advance
  obtain ⟨s₂, hoptions, hs₂⟩ := h.read true (s := { s₁ with groups := g + 1 })
    { hs₁ with groups := rfl } (by omega : _ < fuel)
  obtain ⟨s₃, hgroup, hs₃⟩ := readGroup_capture (s₁.tell - 1) hs₁.groups
    (readBody_of_readOptions hoptions) hs₂
  refine ⟨fuel + 1 + 1, s₃, ?_, ?_, hs₃⟩
  · show (get >>= _ : Read (List Node)) _ = _
    rw [get_bind, hs.next]
    refine (bind_of_ok hadvance).trans ?_
    refine (bind_of_ok (tell_eq _)).trans ?_
    -- no question mark follows, so that this is a group with a number
    refine (bind_of_ok (bind_of_ok (accept_other (hs₁.next ▸ (h.quiet more).1)))).trans ?_
    exact bind_of_ok hgroup
  · rw [length_append, length_cons] at hfuel
    omega

end Cases

/-! ## §6. Whole patterns. -/

mutual
theorem Node.isBounded_of_isRegular : ∀ (n : Node), n.isRegular → n.isBounded
  | .set _, _ => rfl
  | .any _, _ => rfl
  | .spot _, _ => rfl
  | .group _ body, h => areBounded_of_isRegular body h
  | .choice options, h => areBoundedOptions_of_areRegular options h
  | .loop _ _ _ body, h => by
    rw [Node.isRegular, Bool.and_eq_true, Bool.and_eq_true] at h
    exact areBounded_of_isRegular body h.1.2
  | .atomic _, h => by cases h
  | .look _ _ _ _, h => by cases h
  | .again _ _, h => by cases h
  | .given _ _ _, h => by cases h

/-- Regular patterns do not look behind. -/
theorem areBounded_of_isRegular : ∀ (ns : List Node), isRegular ns → areBounded ns
  | [], _ => rfl
  | n :: ns, h => by
    rw [isRegular, Bool.and_eq_true] at h
    rw [areBounded, n.isBounded_of_isRegular h.1, areBounded_of_isRegular ns h.2]
    rfl

theorem areBoundedOptions_of_areRegular : ∀ (os : List (List Node)), areRegular os →
    areBoundedOptions os
  | [], _ => rfl
  | o :: os, h => by
    rw [areRegular, Bool.and_eq_true] at h
    rw [areBoundedOptions, areBounded_of_isRegular o h.1, areBoundedOptions_of_areRegular os h.2]
    rfl
end

/-- **A clause is read as its nodes.** -/
theorem Clause.read_eq {ns : List Node} (h : Clause 1 g ts ns) (hns : isRegular ns)
    {pattern : String} (hpattern : pattern.toList = ts.flatten) :
    Pattern.read pattern = .ok ns := by
  have hlength : ts.length ≤ pattern.length := by
    rw [← String.length_toList, hpattern]
    exact h.tokens.length_le
  have hfresh : Fresh 1 ({ rest := pattern.toList, length := pattern.length } : State) := ⟨rfl, rfl⟩
  obtain ⟨s₁, hadvance, hs₁⟩ := hfresh.advance h.tokens hpattern hlength
  rw [← append_nil ts] at hs₁
  have hsteps : 4 * (ts ++ []).length ≤ 4 * s₁.length + 7 := by
    have := hs₁.length
    omega
  obtain ⟨s₂, hend, hs₂⟩ := h.read_end true hs₁ hsteps (.inl rfl)
  have hoptions : readOptions (4 * s₁.length + 8) true {} true s₁ = .ok ([ns], s₂) := by
    rw [readOptions]
    exact (bind_of_ok hend).trans (bind_of_ok (accept_other (by simp [hs₂.next])))
  have hall : readAll { rest := pattern.toList, length := pattern.length } = .ok (ns, s₂) := by
    unfold readAll
    refine (bind_of_ok hadvance).trans ?_
    rw [get_bind]
    refine (bind_of_ok hoptions).trans ?_
    rw [get_bind, hs₂.next]
    simp only [hs₂.asked]
    show (if !areBounded ns then _ else _ : Read (List Node)) _ = _
    rw [areBounded_of_isRegular ns hns]
    rfl
  unfold Pattern.read
  rw [hall]
  rfl

end AddonAudit.Pattern
