/-
  AddonAudit.Proofs.Yaml.Rewrite — reading a text in which a value was replaced by another of its
  length.

  A rewritten text differs from the old one in words after a colon and a space.  Two readings, one
  of each text, go in step: they stand at the same place, and what they see there is the same or a
  letter of such a word.  Only this module looks at the characters; what reads tokens is built from
  the moves below.
-/
import AddonAudit.Proofs.Traversal
import AddonAudit.Yaml.Token
import Mathlib.Data.List.Forall2
import Mathlib.Data.List.TakeWhile

namespace AddonAudit.Yaml

open List

/-! ## §1. Readings in step. -/

section InStep

variable {α β γ δ σ τ : Type}

/-- Two outcomes match if their results belong together, where there are any. -/
def Matched (R : α → β → Prop) (x : Except Problem α) (x' : Except Problem β) : Prop :=
  ∀ ⦃a b⦄, x = .ok a → x' = .ok b → R a b

theorem Matched.bind {R : α → β → Prop} {Q : γ → δ → Prop} {x : Except Problem α}
    {x' : Except Problem β} {g : α → Except Problem γ} {g' : β → Except Problem δ}
    (h : Matched R x x')
    (hg : ∀ a b, R a b → Matched Q (g a) (g' b)) : Matched Q (x >>= g) (x' >>= g') := by
  intro c d hc hd
  obtain ⟨a, ha, hc⟩ := Traversal.bind_ok_iff.mp hc
  obtain ⟨b, hb, hd⟩ := Traversal.bind_ok_iff.mp hd
  exact hg a b (h ha hb) hc hd

/-- Two readings are in step if they end with results and in states that belong together. -/
abbrev InStep (R : α → β → Prop) (Q : σ → τ → Prop) :
    Except Problem (α × σ) → Except Problem (β × τ) → Prop := Matched fun x x' => R x.1 x'.1 ∧
    Q x.2 x'.2

/-- Readings that go in step from states that belong together before to such states after. -/
def Along (P : σ → τ → Prop) (R : α → β → Prop) (Q : σ → τ → Prop) (f : StateT σ (Except Problem) α)
    (f' : StateT τ (Except Problem) β) : Prop := ∀ ⦃s s'⦄, P s s' → InStep R Q (f s) (f' s')

/-- A reading that goes in step with itself. -/
abbrev Keeps (S : σ → σ → Prop) (f : StateT σ (Except Problem) α) : Prop := Along S Eq S f f

variable {R : α → β → Prop} {R' : γ → δ → Prop} {P Q Q' : σ → τ → Prop} {s : σ} {s' : τ}
  {f g : StateT σ (Except Problem) α} {f' g' : StateT τ (Except Problem) β}

theorem Matched.ok {a : α} {b : β} {t : σ} {t' : τ} (hR : R a b) (hQ : Q t t') :
    InStep R Q (.ok (a, t)) (.ok (b, t')) := by
  rintro _ _ ⟨⟩ ⟨⟩
  exact ⟨hR, hQ⟩

theorem Along.pure {a : α} {b : β} (h : R a b) :
    Along P R P (pure a) (pure b) := fun _ _ hs => .ok h hs

theorem Along.throw (p : Problem) : Along P R Q (throw p) f' := fun _ _ _ _ _ h => nomatch h

theorem Along.throwRight (p : Problem) :
    Along P R Q f (MonadExcept.throw p) := fun _ _ _ _ _ _ h => nomatch h

theorem Along.bind {g : α → StateT σ (Except Problem) γ} {g' : β → StateT τ (Except Problem) δ}
    (h : Along P R Q f f') (hg : ∀ a b, R a b → Along Q R' Q' (g a) (g' b)) :
    Along P R' Q' (f >>= g) (f' >>= g') :=
  fun _ _ hs => Matched.bind (h hs) fun x x' hx => hg x.1 x'.1 hx.1 hx.2

theorem Along.next {f' : StateT τ (Except Problem) α} {g : α → StateT σ (Except Problem) γ}
    {g' : α → StateT τ (Except Problem) δ} (h : Along P Eq Q f f')
    (hg : ∀ a, Along Q R' Q' (g a) (g' a)) :
    Along P R' Q' (f >>= g) (f' >>= g') := h.bind fun a _ heq => heq ▸ hg a

theorem Along.discard (h : Along P R Q f f') : Along P Eq Q (discard f) (discard f') :=
  h.bind fun _ _ _ => .pure rfl

theorem Along.ite {c c' : Prop} [Decidable c] [Decidable c'] (hc : c' ↔ c) (hf : c →
    Along P R Q f f') (hg :
    ¬c → Along P R Q g g') : Along P R Q (if c then f else g) (if c' then f' else g') := by
  by_cases h : c
  · rw [if_pos h, if_pos (hc.mpr h)]
    exact hf h
  · rw [if_neg h, if_neg fun h' => h (hc.mp h')]
    exact hg h

/-- What is decided alike needs no reason. -/
theorem Along.same {c : Prop} [Decidable c] (hf : Along P R Q f f') (hg : Along P R Q g g') :
    Along P R Q (if c then f else g) (if c then f' else g') := .ite .rfl (fun _ => hf) fun _ => hg

theorem Along.set {t : σ} {t' : τ} {g : PUnit → StateT σ (Except Problem) α}
    {g' : PUnit → StateT τ (Except Problem) β} (h : Q' t t') (hg : Along Q' R Q (g ⟨⟩) (g' ⟨⟩)) :
    Along P R Q (set t >>= g) (set t' >>= g') := fun _ _ _ => hg h

/-- What is refused under a condition goes in step with what is refused under another. -/
theorem Along.unless {γ' δ' : Type} {c c' : Prop} [Decidable c] [Decidable c'] {p p' : Problem}
    {k : γ' → StateT σ (Except Problem) α} {k' : δ' → StateT τ (Except Problem) β}
    (h : Along P R Q f f') :
    Along P R Q (if c then MonadExcept.throw p >>= k else f)
    (if c' then MonadExcept.throw p' >>= k' else f') := by
  split
  · exact fun _ _ _ _ _ h => nomatch h
  · split
    · exact fun _ _ _ _ _ _ h => nomatch h
    · exact h

end InStep

/-! ## §2. Letters. -/

/-- Letters, digits and points, which no rule for tokens tells apart inside a word. -/
def isLetter (c : Char) : Bool := c.isAlphanum || c == '.'

/-- Characters at one place in two texts: the same, or letters of two words. -/
def Similar (c c' : Char) : Prop := c = c' ∨ isLetter c = true ∧ isLetter c' = true

variable {x : Char}

theorem beq_of_isLetter {c : Char} (hc : isLetter c) (hx : isLetter x = false) :
    (c == x) = false := by
  rw [beq_eq_false_iff_ne]
  rintro rfl
  rw [hc] at hx
  cases hx

/-- A class of characters that holds all letters or none. -/
def Steady (p : Char → Bool) (b : Bool) : Prop := ∀ c, isLetter c = true → p c = b

variable {b : Bool} {p : Char → Bool} {c c' : Char}

theorem Similar.steady (h : Similar c c') (hp : Steady p b) : p c' = p c := by
  rcases h with rfl | ⟨hc, hc'⟩
  · rfl
  · rw [hp c hc, hp c' hc']

theorem Steady.apart (hp : Steady p b) (hc : p c ≠ b) : isLetter c = false := by
  rw [Bool.eq_false_iff]
  exact fun hletter => hc (hp c hletter)

theorem Similar.eq_of_isLetter (h : Similar c c') (hc : isLetter c = false) : c' = c := by
  rcases h with rfl | ⟨hletter, -⟩
  · rfl
  · rw [hc] at hletter
    cases hletter

theorem Steady.beq (hx : isLetter x = false) : Steady (· == x) false :=
  fun _ hc => beq_of_isLetter hc hx

theorem Similar.beq (h : Similar c c') (hx : isLetter x = false) : (c' == x) = (c == x) :=
  h.steady (.beq hx)

theorem Steady.or {q : Char → Bool} {b' : Bool} (hp : Steady p b) (hq : Steady q b') :
    Steady (fun c => p c || q c) (b || b') := by
  intro c hc
  show (p c || q c) = _
  rw [hp c hc, hq c hc]

theorem Steady.and {q : Char → Bool} {b' : Bool} (hp : Steady p b) (hq : Steady q b') :
    Steady (fun c => p c && q c) (b && b') := by
  intro c hc
  show (p c && q c) = _
  rw [hp c hc, hq c hc]

theorem Steady.not (hp : Steady p b) : Steady (fun c => !p c) !b := by
  intro c hc
  show (!p c) = _
  rw [hp c hc]

theorem steady_contains {xs : List Char} (h : xs.any isLetter = false) :
    Steady (fun c => xs.contains c) false := by
  intro c hc
  show xs.contains c = false
  rw [contains_eq_mem, decide_eq_false_iff_not]
  intro hmem
  exact any_eq_false.mp h c hmem hc

theorem steady_isBreak : Steady isBreak false :=
  ((((Steady.beq rfl).or (.beq rfl)).or (.beq (by decide))).or (.beq (by decide))).or
    (.beq (by decide))

theorem steady_isLineEnd : Steady isLineEnd false := steady_isBreak.or (.beq (by decide))

theorem steady_isGap : Steady isGap false := steady_isLineEnd.or (.beq (by decide))

theorem steady_isBlankOrEnd : Steady isBlankOrEnd false := steady_isGap.or (.beq (by decide))

/-! ## §3. Rewritten texts. -/

/-- Words of one length that can stand for one another in a value. -/
structure Words where
  old : List Char
  new : List Char
  length : new.length = old.length
  old_letters : ∀ c ∈ old, isLetter c = true
  new_letters : ∀ c ∈ new, isLetter c = true
  old_head : ∃ c cs, old = c :: cs ∧ c ≠ '.'
  new_head : ∃ c cs, new = c :: cs ∧ c ≠ '.'

/-- Where a reader stands in a rewritten text: after the colon before a word, at the word, or
    elsewhere. -/
inductive Spot where
  | loose
  | colon
  | word

/-- A text and the same text with the new word in place of some old ones after a colon and a
    space. -/
inductive Rewritten (ws : Words) : Spot → List Char → List Char → Prop
  | nil : Rewritten ws .loose [] []
  | cons (c : Char) {r r' : List Char} : Rewritten ws .loose r r' →
      Rewritten ws .loose (c :: r) (c :: r')
  | colon {r r' : List Char} : Rewritten ws .colon r r' →
      Rewritten ws .loose (':' :: r) (':' :: r')
  | space {r r' : List Char} : Rewritten ws .word r r' →
      Rewritten ws .colon (' ' :: r) (' ' :: r')
  | word {r r' : List Char} : Rewritten ws .loose r r' →
      Rewritten ws .word (ws.old ++ r) (ws.new ++ r')

/-- Texts that were read from rewritten ones: the same up to rewritten words. -/
inductive Reworded (ws : Words) : List Char → List Char → Prop
  | nil : Reworded ws [] []
  | cons (c : Char) {r r' : List Char} : Reworded ws r r' → Reworded ws (c :: r) (c :: r')
  | word {r r' : List Char} : Reworded ws r r' → Reworded ws (ws.old ++ r) (ws.new ++ r')

variable {ws : Words} {a r r' : List Char} {spot : Spot} {n : Nat}

theorem Reworded.refl (cs : List Char) : Reworded ws cs cs := by
  induction cs with
  | nil => exact .nil
  | cons c cs ih => exact .cons c ih

theorem Reworded.append {a' b b' : List Char} (ha : Reworded ws a a') (hb : Reworded ws b b') :
    Reworded ws (a ++ b) (a' ++ b') := by
  induction ha with
  | nil => exact hb
  | cons c _ ih => exact .cons c ih
  | word _ ih =>
    rw [append_assoc, append_assoc]
    exact .word ih

theorem Rewritten.refl (cs : List Char) : Rewritten ws .loose cs cs := by
  induction cs with
  | nil => exact .nil
  | cons c cs ih => exact .cons c ih

theorem Rewritten.reworded (h : Rewritten ws spot r r') : Reworded ws r r' := by
  induction h with
  | nil => exact .nil
  | cons c _ ih => exact .cons c ih
  | colon _ ih => exact .cons ':' ih
  | space _ ih => exact .cons ' ' ih
  | word _ ih => exact .word ih

/-- Two words of letters are similar character by character. -/
theorem similar_of_letters {b : List Char} (hlength : b.length = a.length)
    (ha : ∀ c ∈ a, isLetter c) (hb : ∀ c ∈ b, isLetter c) : Forall₂ Similar a b := by
  induction a generalizing b with
  | nil =>
    cases b with
    | nil => exact .nil
    | cons _ _ => cases hlength
  | cons c a ih =>
    cases b with
    | nil => cases hlength
    | cons c' b =>
      refine .cons (.inr ⟨ha c (by simp), hb c' (by simp)⟩) (ih (by simpa using hlength) ?_ ?_)
      · exact fun x hx => ha x (mem_cons_of_mem c hx)
      · exact fun x hx => hb x (mem_cons_of_mem c' hx)

theorem Reworded.similar (h : Reworded ws r r') : Forall₂ Similar r r' := by
  induction h with
  | nil => exact .nil
  | cons c _ ih => exact .cons (.inl rfl) ih
  | word _ ih => exact rel_append (similar_of_letters ws.length ws.old_letters ws.new_letters) ih

theorem Reworded.length_eq (h : Reworded ws r r') : r'.length = r.length := h.similar.length_eq.symm

/-- The character at a place; the end of the text is the null character. -/
def charAt (r : List Char) (n : Nat) : Char := (r[n]?).getD '\x00'

theorem similar_charAt (h : Forall₂ Similar r r') (n : Nat) :
    Similar (charAt r n) (charAt r' n) := by
  induction h generalizing n with
  | nil => exact .inl rfl
  | cons hc _ ih =>
    cases n with
    | zero => exact hc
    | succ n => exact ih n

theorem charAt_drop (r : List Char) (m n : Nat) : charAt (r.drop m) n = charAt r (m + n) := by
  rw [charAt, getElem?_drop, charAt]

/-! ## §4. Cuts. -/

/-- A place that is in the middle of no word: one of the characters around it is no letter. -/
def Seam (r : List Char) (n : Nat) : Prop :=
  n = 0 ∨ isLetter (charAt r (n - 1)) = false ∨ isLetter (charAt r n) = false

theorem Seam.tail (h : Seam (c :: r) (n + 1)) : Seam r n := by
  rcases h with h | h | h
  · cases h
  · cases n with
    | zero => exact .inl rfl
    | succ n => exact .inr (.inl h)
  · exact .inr (.inr h)

/-- A cut after the start of a word is after its end. -/
theorem Seam.word (ha : ∀ c ∈ a, isLetter c) (h : Seam (a ++ r) (n + 1)) (hne : a ≠ []) :
    ∃ m, n + 1 = a.length + m ∧ Seam r m := by
  induction a generalizing n with
  | nil => exact absurd rfl hne
  | cons c a ih =>
    cases a with
    | nil => exact ⟨n, Nat.add_comm n 1, h.tail⟩
    | cons d a =>
      cases n with
      | zero =>
        have hc : isLetter c := ha c (by simp)
        have hd : isLetter d := ha d (by simp)
        simp [Seam, charAt, hc, hd] at h
      | succ n =>
        obtain ⟨m, hm, hseam⟩ := ih (fun x hx => ha x (mem_cons_of_mem c hx)) h.tail
          (cons_ne_nil _ _)
        exact ⟨m, by rw [hm, length_cons (a := c)]; omega, hseam⟩

/-- **Both texts can be cut where no word is**: what is before the cut differs in rewritten words
    only. -/
theorem Rewritten.cut (h : Rewritten ws spot r r') (hn : Seam r n) :
    Reworded ws (r.take n) (r'.take n) ∧
      ∃ spot', Rewritten ws spot' (r.drop n) (r'.drop n) := by
  induction n using Nat.strongRecOn generalizing spot r r' with
  | ind n ih =>
    cases n with
    | zero => exact ⟨.nil, _, h⟩
    | succ n =>
      cases h with
      | nil => exact ⟨.nil, _, .nil⟩
      | cons c hr => exact (ih n n.lt_succ_self hr hn.tail).imp_left (.cons c)
      | colon hr => exact (ih n n.lt_succ_self hr hn.tail).imp_left (.cons ':')
      | space hr => exact (ih n n.lt_succ_self hr hn.tail).imp_left (.cons ' ')
      | word hr =>
        obtain ⟨c, cs, hold, -⟩ := ws.old_head
        obtain ⟨m, hm, hseam⟩ := hn.word ws.old_letters (by simp [hold])
        have hlt : m < n + 1 := by simp [hold] at hm; omega
        obtain ⟨htake, hdrop⟩ := ih m hlt hr hseam
        rw [hm, take_length_add_append, drop_length_add_append, ← ws.length, take_length_add_append,
          drop_length_add_append]
        exact ⟨htake.word, hdrop⟩

theorem charAt_takeWhile (h : n < (r.takeWhile p).length) : p (charAt r n) := by
  induction r generalizing n with
  | nil => simp at h
  | cons c r ih =>
    cases hc : p c with
    | false => simp [hc] at h
    | true =>
      cases n with
      | zero => exact hc
      | succ n => exact ih (by simpa [hc] using h)

theorem seam_of_lt_takeWhile (hp : Steady p false) (h : n ≤ (r.takeWhile p).length) : Seam r n := by
  cases n with
  | zero => exact .inl rfl
  | succ n => exact .inr (.inl (hp.apart (by simp [charAt_takeWhile h])))

/-- A run of a class that holds all letters or none does not end inside a word. -/
theorem seam_takeWhile (hp : Steady p b) (r : List Char) : Seam r (r.takeWhile p).length := by
  cases b with
  | false => exact seam_of_lt_takeWhile hp le_rfl
  | true =>
    -- what follows the run is no letter
    refine .inr (.inr ?_)
    induction r with
    | nil => rfl
    | cons c r ih =>
      cases hc : p c with
      | true => simpa [hc, charAt] using ih
      | false =>
        rw [takeWhile_cons, if_neg (by simp [hc])]
        exact hp.apart (c := c) (by simp [hc])

theorem length_takeWhile_similar (hp : Steady p b) (h : Forall₂ Similar r r') :
    (r'.takeWhile p).length = (r.takeWhile p).length := by
  induction h with
  | nil => rfl
  | @cons c _ _ _ hc _ ih => cases hin : p c <;> simp [hc.steady hp, hin, ih]

theorem takeWhile_similar (hp : Steady p false) (h : Forall₂ Similar r r') :
    r'.takeWhile p = r.takeWhile p := by
  induction h with
  | nil => rfl
  | @cons c _ _ _ hc _ ih =>
    cases hin : p c with
    | false => simp [hc.steady hp, hin]
    | true =>
      obtain rfl := hc.eq_of_isLetter (hp.apart (by simp [hin]))
      simp [hin, ih]

/-- Away from words, the next characters are the same, and what follows is away from words, or there
    is a colon among them. -/
theorem Rewritten.take_loose (n : Nat) (h : Rewritten ws .loose r r') :
    (r'.take n = r.take n ∧ Rewritten ws .loose (r.drop n) (r'.drop n)) ∨
    (':' ∈ r.take n ∧ ':' ∈ r'.take n) := by
  induction n generalizing r r' with
  | zero => exact .inl ⟨rfl, h⟩
  | succ n ih =>
    cases h with
    | nil => exact .inl ⟨rfl, .nil⟩
    | cons c hr =>
      rcases ih hr with ⟨htake, hdrop⟩ | ⟨hmem, hmem'⟩
      · exact .inl ⟨by simp [htake], hdrop⟩
      · exact .inr ⟨by simp [hmem], by simp [hmem']⟩
    | colon hr => exact .inr ⟨by simp, by simp⟩

/-- Away from words, a run that cannot pass a colon and a space is the same. -/
theorem Rewritten.run_loose (hp : p ':' = false ∨ p ' ' = false) (h : Rewritten ws .loose r r') :
    r'.takeWhile p = r.takeWhile p := by
  generalize hspot : Spot.loose = spot at h
  induction h with
  | nil => rfl
  | cons c hr ih => cases hc : p c <;> simp [hc, ih hspot]
  | colon hr ih =>
    cases hr with
    | space hr => rcases hp with hp | hp <;> cases hc : p ':' <;> simp_all
  | space hr ih => cases hspot
  | word hr ih => cases hspot

/-! ## §5. States in step. -/

variable (ws) in
/-- Tokens of rewritten texts: only scalars can differ, in rewritten words. -/
inductive Token.Reworded : Token → Token → Prop
  | same (t : Token) : Token.Reworded t t
  | scalar {t t' : String} (plain : Bool) : Yaml.Reworded ws t.toList t'.toList →
      Token.Reworded (.scalar t plain) (.scalar t' plain)

variable (ws) in
/-- States in step: all is the same but the text ahead and the texts of scalars.  Something may be
    known about the spot and the text ahead. -/
inductive Ahead (φ : Spot → List Char → Prop) : Lexer → Lexer → Prop
  | intro {spot : Spot} {s : Lexer} {r' : List Char} {ts' : List Token} : φ spot s.rest →
      Rewritten ws spot s.rest r' → List.Forall₂ (Token.Reworded ws) s.tokens ts' →
      Ahead φ s { s with rest := r', tokens := ts' }

variable (ws) in
/-- States in step anywhere. -/
abbrev Near : Lexer → Lexer → Prop := Ahead ws fun _ _ => True

variable (ws) in
/-- States in step away from words. -/
abbrev Loose : Lexer → Lexer → Prop := Ahead ws fun spot _ => spot = .loose

/-- What is known of a spot, and of the character there. -/
abbrev Sees (φ : Spot → List Char → Prop) (p : Char → Bool) (spot : Spot) (r : List Char) : Prop :=
  φ spot r ∧ p (charAt r 0)

variable {α β γ : Type} {φ ψ : Spot → List Char → Prop} {s s' : Lexer} {R : α → β → Prop}
  {P Q : Lexer → Lexer → Prop} {f : Lexing α} {f' : Lexing β}

theorem Ahead.mono (hφ : ∀ spot r, φ spot r → ψ spot r) (h : Ahead ws φ s s') :
    Ahead ws ψ s s' := by
  cases h with
  | intro hspot hr ht => exact .intro (hφ _ _ hspot) hr ht

theorem Along.of (h : Along (Ahead ws ψ) R Q f f') (hφ : ∀ spot r, φ spot r → ψ spot r) :
    Along (Ahead ws φ) R Q f f' := fun _ _ hs => h (hs.mono hφ)

theorem Along.left (h : Along (Ahead ws φ) R Q f f') :
    Along (Ahead ws fun spot r => φ spot r ∧ ψ spot r) R Q f f' :=
  h.of fun _ _ h => h.1

theorem Along.near (h : Along P R (Ahead ws φ) f f') : Along P R (Near ws) f f' :=
  fun _ _ hs _ _ hx hx' => (h hs hx hx').imp_right (Ahead.mono fun _ _ _ => trivial)

theorem Along.done {a : α} {b : β} (h : R a b) :
    Along (Ahead ws φ) R (Near ws) (Pure.pure a) (Pure.pure b) :=
  (Along.pure h).near

/-! ## §6. Moves. -/

/-- A reading that looks at the state sees the same in it but for the text ahead and the tokens. -/
theorem Along.getRest {g : Lexer → Lexing α} {g' : Lexer → Lexing β}
    (h : ∀ (s : Lexer) (r' : List Char) (ts' : List Token),
    Ahead ws φ s { s with rest := r', tokens := ts' } →
      Along (Ahead ws fun spot r => φ spot r ∧ r = s.rest) R Q (g s)
      (g' { s with rest := r', tokens := ts' })) :
    Along (Ahead ws φ) R Q (get >>= g) (get >>= g') := by
  intro s s' hs
  cases hs with
  | intro hspot hr ht => exact h s _ _ (.intro hspot hr ht) (.intro ⟨hspot, rfl⟩ hr ht)

theorem Along.get {g : Lexer → Lexing α} {g' : Lexer → Lexing β}
    (h : ∀ (s : Lexer) (r' : List Char) (ts' : List Token),
    Ahead ws φ s { s with rest := r', tokens := ts' } →
      Along (Ahead ws φ) R Q (g s) (g' { s with rest := r', tokens := ts' })) :
    Along (Ahead ws φ) R Q (MonadState.get >>= g) (MonadState.get >>= g') :=
  .getRest fun s r' ts' hs => (h s r' ts' hs).left

theorem Ahead.length (h : Ahead ws φ s s') : s'.rest.length = s.rest.length := by
  cases h with
  | intro _ hr _ => exact hr.reworded.length_eq

theorem Ahead.similar (h : Ahead ws φ s s') (n : Nat) : Similar (s.peekAt n) (s'.peekAt n) := by
  cases h with
  | intro _ hr _ => exact similar_charAt hr.reworded.similar n

/-- What is seen at a place is similar. -/
theorem Along.peekAt {n : Nat} {g : Char → Lexing α} {g' : Char → Lexing β}
    (h : ∀ c c', Similar c c' →
      Along (Ahead ws fun spot r => φ spot r ∧ charAt r n = c) R Q (g c) (g' c')) :
    Along (Ahead ws φ) R Q (peekAt n >>= g) (peekAt n >>= g') := by
  intro s s' hs
  have hsimilar := hs.similar n
  cases hs with
  | intro hspot hr ht => exact h _ _ hsimilar (.intro ⟨hspot, rfl⟩ hr ht)

theorem Along.peek {g : Char → Lexing α} {g' : Char → Lexing β} (h : ∀ c c', Similar c c' →
      Along (Ahead ws fun spot r => φ spot r ∧ charAt r 0 = c) R Q (g c) (g' c')) :
    Along (Ahead ws φ) R Q (peek >>= g) (peek >>= g') := Along.peekAt (n := 0) h

/-- A class that holds all letters or none is decided alike. -/
theorem Along.ifSees {g : Lexing α} {g' : Lexing β} (hp : Steady p b)
    (hf : Along (Ahead ws (Sees φ p)) R Q f f')
    (hg : Along (Ahead ws φ) R Q g g') :
    Along (Ahead ws φ) R Q (Yaml.peek >>= fun c => if p c then f else g)
      (Yaml.peek >>= fun c => if p c then f' else g') := by
  refine .peek fun c c' hc => .ite (by rw [hc.steady hp]) (fun h => hf.of ?_) fun _ => hg.left
  rintro spot r ⟨hspot, rfl⟩
  exact ⟨hspot, h⟩

/-- Away from words the next character is the same. -/
theorem Along.peekLoose {g : Char → Lexing α} {g' : Char → Lexing β}
    (h : ∀ c, Along (Ahead ws fun spot r => spot = .loose ∧ charAt r 0 = c) R Q (g c) (g' c)) :
    Along (Loose ws) R Q (Yaml.peek >>= g) (Yaml.peek >>= g') := by
  intro s s' hs
  cases hs with
  | @intro spot _ r' ts' hspot hr ht =>
    subst hspot
    have hsame : charAt r' 0 = charAt s.rest 0 := by
      generalize s.rest = r at hr ⊢
      cases hr with
      | nil => rfl
      | cons c hr => rfl
      | colon hr => rfl
    show InStep R Q (g (charAt s.rest 0) s) (g' (charAt r' 0) _)
    rw [hsame]
    exact h _ (.intro ⟨rfl, rfl⟩ hr ht)

theorem Along.require {g : Unit → Lexing α} {g' : Unit → Lexing β} {b b' : Bool}
    (hg : b → b' → Along P R Q (g ()) (g' ())) :
    Along P R Q (Yaml.require b >>= g) (Yaml.require b' >>= g') := by
  cases b with
  | false => exact .throw _
  | true =>
    cases b' with
    | false => exact .throwRight _
    | true => exact hg rfl rfl

/-- What has to be seen is known after that. -/
theorem Along.requireSees {g : Unit → Lexing α} {g' : Unit → Lexing β}
    (hg : Along (Ahead ws (Sees φ p)) R Q (g ()) (g' ())) :
    Along (Ahead ws φ) R Q (Yaml.peek >>= fun c => Yaml.require (p c) >>= g)
      (Yaml.peek >>= fun c => Yaml.require (p c) >>= g') := by
  refine .peek fun c c' _ => .require fun hc _ => hg.of ?_
  rintro spot r ⟨hspot, rfl⟩
  exact ⟨hspot, hc⟩

theorem step_similar (h : Forall₂ Similar s.rest r') (ts' : List Token) :
    ({ s with rest := r', tokens := ts' } : Lexer).step
      = { s.step with rest := r'.drop 1, tokens := ts' } := by
  unfold Lexer.step
  generalize s.rest = r at h ⊢
  cases h with
  | nil => rfl
  | @cons c c' r r' hc hr =>
    have hhead : (r'.head? != some '\n') = (r.head? != some '\n') := by
      cases hr with
      | nil => rfl
      | cons hd _ => simpa [bne] using hd.beq (x := '\n') rfl
    simp only [bne, hc.beq (x := '\r') (by decide), hc.beq (x := '\ufeff') (by decide),
      hc.steady steady_isBreak] at hhead ⊢
    rw [hhead]
    split
    · rfl
    · split
      · rfl
      · rfl

theorem step_frame (s : Lexer) : s.step.rest = s.rest.drop 1 ∧ s.step.tokens = s.tokens := by
  unfold Lexer.step
  split
  · rename_i hrest
    rw [hrest]
    exact ⟨rfl, rfl⟩
  · rename_i c r hrest
    rw [hrest]
    dsimp only
    split
    · exact ⟨rfl, rfl⟩
    · split
      · exact ⟨rfl, rfl⟩
      · exact ⟨rfl, rfl⟩

theorem steps_frame (s : Lexer) (n : Nat) :
    (n.repeat Lexer.step s).rest = s.rest.drop n ∧ (n.repeat Lexer.step s).tokens = s.tokens := by
  induction n with
  | zero => exact ⟨rfl, rfl⟩
  | succ n ih =>
    obtain ⟨hrest, htokens⟩ := step_frame (n.repeat Lexer.step s)
    rw [Nat.repeat, hrest, htokens, ih.1, ih.2, drop_drop]
    exact ⟨rfl, rfl⟩

theorem steps_similar (h : Forall₂ Similar s.rest r') (ts' : List Token) (n : Nat) :
    n.repeat Lexer.step { s with rest := r', tokens := ts' }
      = { n.repeat Lexer.step s with rest := r'.drop n, tokens := ts' } := by
  induction n with
  | zero => rfl
  | succ n ih =>
    have hahead : Forall₂ Similar (n.repeat Lexer.step s).rest (r'.drop n) := by
      rw [(steps_frame s n).1]
      exact forall₂_drop n h
    rw [Nat.repeat, ih, step_similar hahead, drop_drop]
    rfl

/-- Readers that move on together are in step where they come to. -/
theorem skip_along (hto : ∀ spot r r', φ spot r → Rewritten ws spot r r' →
      ∃ spot', ψ spot' (r.drop n) ∧ Rewritten ws spot' (r.drop n) (r'.drop n)) :
    Along (Ahead ws φ) Eq (Ahead ws ψ) (skip n) (skip n) := by
  intro s s' hs
  cases hs with
  | @intro _ _ r' ts' hspot hr ht =>
    obtain ⟨spot', hψ, hr'⟩ := hto _ _ _ hspot hr
    obtain ⟨hrest, htokens⟩ := steps_frame s n
    rw [← hrest] at hψ hr'
    rw [← htokens] at ht
    refine .ok rfl ?_
    show Ahead ws ψ (n.repeat Lexer.step s) (n.repeat Lexer.step _)
    rw [steps_similar hr.reworded.similar]
    exact .intro hψ hr' ht

/-- Past a character that is no letter, readers are in step. -/
theorem skip_past (hφ : ∀ spot r, φ spot r → isLetter (charAt r n) = false) :
    Along (Ahead ws φ) Eq (Near ws) (skip (n + 1)) (skip (n + 1)) := by
  refine skip_along fun spot r r' hspot hr => ?_
  obtain ⟨-, spot', hto⟩ := hr.cut (n := n + 1) (.inr (.inl (hφ spot r hspot)))
  exact ⟨spot', trivial, hto⟩

/-- Away from words and past anything but colons, readers stay away from words. -/
theorem skip_loose (hφ : ∀ spot r, φ spot r → spot = .loose ∧ ':' ∉ r.take n) :
    Along (Ahead ws φ) Eq (Loose ws) (skip n) (skip n) := by
  refine skip_along fun spot r r' hspot hr => ?_
  obtain ⟨rfl, hcolon⟩ := hφ spot r hspot
  rcases hr.take_loose n with ⟨-, hto⟩ | ⟨hmem, -⟩
  · exact ⟨.loose, rfl, hto⟩
  · exact absurd hmem hcolon

/-- Characters that stand in no word, nor before one. -/
abbrev IsSign (x : Char) : Prop := isLetter x = false ∧ x ≠ ' ' ∧ x ≠ ':'

theorem IsSign.loose (hx : IsSign x) (h : Rewritten ws spot r r') (hc : charAt r 0 = x) :
    Rewritten ws .loose r r' := by
  obtain ⟨hletter, hspace, -⟩ := hx
  cases h with
  | nil => exact .nil
  | cons c hr => exact .cons c hr
  | colon hr => exact .colon hr
  | space hr => exact absurd hc.symm hspace
  | word hr =>
    obtain ⟨d, ds, hold, -⟩ := ws.old_head
    rw [hold] at hc
    rw [← hc] at hletter
    have := ws.old_letters d (by simp [hold])
    rw [show charAt _ 0 = d from rfl, this] at hletter
    cases hletter

/-- At a sign, readers are away from words. -/
theorem Along.ofSign (hx : IsSign x) (h : Along (Ahead ws fun spot r => spot = .loose ∧
    charAt r 0 = x) R Q f f') : Along (Ahead ws (Sees φ (· == x))) R Q f f' := by
  intro s s' hs
  cases hs with
  | intro hspot hr ht =>
    have hc := beq_iff_eq.mp hspot.2
    exact h (.intro ⟨rfl, hc⟩ (hx.loose hr hc) ht)

theorem colon_not_mem_take_one (hc : charAt r 0 ≠ ':') : ':' ∉ r.take 1 := by
  cases r with
  | nil => simp
  | cons c r => simpa using fun h => hc h.symm

/-- Past a sign, readers are away from words. -/
theorem skip_at (hφ : ∀ spot r, φ spot r → IsSign (charAt r 0)) :
    Along (Ahead ws φ) Eq (Loose ws) (skip 1) (skip 1) := by
  refine skip_along fun spot r r' hspot hr => ?_
  have hx := hφ spot r hspot
  rcases (hx.loose hr rfl).take_loose 1 with ⟨-, hto⟩ | ⟨hmem, -⟩
  · exact ⟨.loose, rfl, hto⟩
  · exact absurd hmem (colon_not_mem_take_one hx.2.2)

theorem skip_sign (hx : IsSign x) :
    Along (Ahead ws (Sees φ (· == x))) Eq (Loose ws) (skip 1) (skip 1) :=
  skip_at fun _ _ h => by rwa [eq_of_beq h.2]

theorem takeRun_along {T : List Char → List Char → Prop} (hrun : ∀ spot r r', φ spot r →
    Rewritten ws spot r r' →
      (r'.takeWhile p).length = (r.takeWhile p).length ∧ T (r.takeWhile p) (r'.takeWhile p) ∧
        ∃ spot', ψ spot' (r.drop (r.takeWhile p).length) ∧
          Rewritten ws spot' (r.drop (r.takeWhile p).length) (r'.drop (r.takeWhile p).length)) :
    Along (Ahead ws φ) T (Ahead ws ψ) (takeRun p) (takeRun p) := by
  refine .getRest fun s r' ts' h => ?_
  cases h with
  | intro hspot hr ht =>
    obtain ⟨hlength, hT, -⟩ := hrun _ _ _ hspot hr
    dsimp only
    rw [hlength]
    refine (skip_along ?_).bind fun _ _ _ => .pure hT
    rintro spot _ r' ⟨hspot, rfl⟩ hr
    exact (hrun _ _ _ hspot hr).2.2

theorem take_takeWhile (p : Char → Bool) (r : List Char) :
    r.take (r.takeWhile p).length = r.takeWhile p :=
  (prefix_iff_eq_take.mp <| takeWhile_prefix p).symm

/-- A run of a class that holds all letters or none differs in rewritten words only. -/
theorem takeRun_over (hp : Steady p b) :
    Along (Ahead ws φ) (Reworded ws) (Near ws) (takeRun p) (takeRun p) := by
  refine takeRun_along fun spot r r' _ hr => ?_
  have hlength := length_takeWhile_similar hp hr.reworded.similar
  obtain ⟨htake, spot', hdrop⟩ := hr.cut (seam_takeWhile hp r)
  refine ⟨hlength, ?_, spot', trivial, hdrop⟩
  rwa [take_takeWhile, ← hlength, take_takeWhile] at htake

/-- A run of a class without letters is the same in both texts. -/
theorem takeRun_apart (hp : Steady p false) :
    Along (Ahead ws φ) Eq (Near ws) (takeRun p) (takeRun p) := by
  refine takeRun_along fun spot r r' _ hr => ?_
  have hsimilar := hr.reworded.similar
  exact ⟨length_takeWhile_similar hp hsimilar, (takeWhile_similar hp hsimilar).symm,
    (hr.cut (seam_takeWhile hp r)).2.imp fun _ hto => ⟨trivial, hto⟩⟩

/-- Away from words, a run of a class without the colon is the same. -/
theorem takeRun_loose (hp : p ':' = false) : Keeps (Loose ws) (takeRun p) := by
  refine takeRun_along fun spot r r' hspot hr => ?_
  subst hspot
  have hrun := hr.run_loose (.inl hp)
  rcases hr.take_loose (r.takeWhile p).length with ⟨-, hto⟩ | ⟨hmem, -⟩
  · exact ⟨by rw [hrun], hrun.symm, .loose, rfl, hto⟩
  · rw [take_takeWhile] at hmem
    rw [mem_takeWhile_imp hmem] at hp
    cases hp

/-- Away from words, a run of a class with all letters and without the space is the same. -/
theorem takeRun_to_space (hp : Steady p true) (hspace : p ' ' = false) :
    Along (Loose ws) Eq (Near ws) (takeRun p) (takeRun p) := by
  refine takeRun_along fun spot r r' hspot hr => ?_
  subst hspot
  have hrun := hr.run_loose (.inr hspace)
  exact ⟨by rw [hrun], hrun.symm, (hr.cut (seam_takeWhile hp r)).2.imp fun _ hto => ⟨trivial, hto⟩⟩

end AddonAudit.Yaml
