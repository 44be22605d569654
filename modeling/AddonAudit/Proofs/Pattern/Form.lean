/-
  AddonAudit.Proofs.Pattern.Form — patterns by the texts that they stand for.

  A form is a pattern that is read wherever it stands and whose nodes stand for texts of a kind.
  Forms are put together like patterns: one after another, and as options in parentheses.  The tree
  of a form need not be known to tell which texts it matches.  What it matches is of the kind; a
  text of the kind is matched if it is a single line, in which a dot is any character.
-/
import AddonAudit.Proofs.Pattern.Reading
import Mathlib.Data.String.Basic

namespace AddonAudit.Pattern

open List

/-! ## §1. Nodes and texts. -/

/-- A text of one kind, and a text of another after it. -/
def Joined (S S' : String → Prop) (text : String) : Prop := ∃ a b, text = a ++ b ∧ S a ∧ S' b

/-- A language that has texts of a kind only, and of these all that are lines. -/
structure Tells (l : Language) (S : String → Prop) : Prop where
  sound : ∀ {before mid after}, l before mid after → S (String.ofList mid)
  complete : ∀ {before mid after}, '\n' ∉ mid → S (String.ofList mid) → l before mid after

/-- Nodes that stand for texts of a kind, wherever they are. -/
structure Stands (ns : List Node) (S : String → Prop) : Prop extends Tells (spans ns) S where
  regular : isRegular ns = true

variable {S : String → Prop} {ns : List Node} {p : Char → Bool}

theorem Stands.congr {S' : String → Prop} (h : Stands ns S) (hS : ∀ text, S text ↔ S' text) :
    Stands ns S' :=
  (funext fun text => propext (hS text) : S = S') ▸ h

theorem Stands.append {ms : List Node} {S' : String → Prop} (h : Stands ns S) (h' : Stands ms S') :
    Stands (ns ++ ms) (Joined S S') where
  sound hspans := by
    rw [spans_append] at hspans
    obtain ⟨a, b, rfl, ha, hb⟩ := hspans
    exact ⟨String.ofList a, String.ofList b, String.ofList_append, h.sound ha, h'.sound hb⟩
  complete := by
    rintro before mid after hline ⟨a, b, heq, ha, hb⟩
    rw [String.ofList_eq, String.toList_append] at heq
    subst heq
    rw [mem_append, not_or] at hline
    rw [spans_append]
    exact ⟨a.toList, b.toList, rfl, h.complete hline.1 (by rwa [String.ofList_toList]),
      h'.complete hline.2 (by rwa [String.ofList_toList])⟩
  regular := by rw [isRegular_append, h.regular, h'.regular, Bool.and_self]

theorem Stands.group {ns : List Node} {S : String → Prop} (h : Stands ns S) (number : Option Nat) :
    Stands [.group number ns] S := by
  have hspans : spans [.group number ns] = spans ns := by
    rw [spans, spans, Language.seq_nothing, Node.spans]
  exact { hspans ▸ h.toTells with regular := by rw [isRegular, Node.isRegular, h.regular]; rfl }

theorem holds_literal {c d : Char} : CharSet.holds ⟨[.span c.toNat c.toNat], false, false⟩ d ↔
    d = c := by
  have hholds : CharSet.holds ⟨[.span c.toNat c.toNat], false, false⟩ d
      = (decide (c.toNat ≤ d.toNat) && decide (d.toNat ≤ c.toNat)) := by
    simp [CharSet.holds, Member.holds]
  rw [hholds, Bool.and_eq_true, decide_eq_true_eq, decide_eq_true_eq]
  constructor
  · intro h
    exact Char.toNat_inj.mp (Nat.le_antisymm h.2 h.1)
  · rintro rfl
    exact ⟨Nat.le_refl _, Nat.le_refl _⟩

theorem spans_literals {cs before mid after : List Char} : spans (literals cs) before mid after ↔
    mid = cs := by
  induction cs generalizing before mid with
  | nil => rfl
  | cons c cs ih =>
    constructor
    · rintro ⟨_, b, rfl, ⟨d, rfl, hd⟩, hb⟩
      rw [holds_literal.mp hd, ih.mp hb]
      rfl
    · rintro rfl
      exact ⟨[c], cs, rfl, ⟨c, rfl, holds_literal.mpr rfl⟩, ih.mpr rfl⟩

theorem isRegular_literals (cs : List Char) : isRegular (literals cs) := by
  induction cs with
  | nil => rfl
  | cons c cs ih => exact ih

theorem stands_literals (text : String) : Stands (literals text.toList) (· = text) := by
  refine ⟨⟨fun h => ?_, fun _ h => spans_literals.mpr (String.ofList_eq.mp h)⟩,
    isRegular_literals _⟩
  rw [spans_literals.mp h, String.ofList_toList]

/-! ## §2. Runs. -/

/-- Whether a text is not empty and all of its characters are of a kind. -/
def IsRunOf (p : Char → Bool) (text : String) : Prop := text ≠ "" ∧ ∀ c ∈ text.toList, p c = true

/-- Rounds that take one character of a kind each. -/
theorem times_char {l : Language} (hl : ∀ before mid after, l before mid after ↔ ∃ c, mid = [c] ∧
    p c) {n : Nat} : ∀ {before mid after : List Char}, l.times n before mid after ↔ mid.length = n ∧
    ∀ c ∈ mid, p c := by
  induction n with
  | zero =>
    intro before mid after
    constructor
    · rintro rfl
      exact ⟨rfl, fun c hc => absurd hc not_mem_nil⟩
    · rintro ⟨hmid, -⟩
      exact length_eq_zero_iff.mp hmid
  | succ n ih =>
    intro before mid after
    constructor
    · rintro ⟨_, b, rfl, ha, hb⟩
      obtain ⟨c, rfl, hc⟩ := (hl ..).mp ha
      obtain ⟨hlength, hall⟩ := ih.mp hb
      exact ⟨by rw [singleton_append, length_cons, hlength], forall_mem_cons.mpr ⟨hc, hall⟩⟩
    · rintro ⟨hlength, hall⟩
      obtain ⟨c, b, rfl⟩ := exists_cons_of_length_eq_add_one hlength
      obtain ⟨hc, hb⟩ := forall_mem_cons.mp hall
      exact ⟨[c], b, rfl, (hl ..).mpr ⟨c, rfl, hc⟩, ih.mpr ⟨Nat.succ.inj hlength, hb⟩⟩

/-- Rounds of a language of texts of a kind. -/
theorem Tells.times {l : Language} (h : Tells l S) {n : Nat} :
    Tells (l.times n) fun text => ∃ ws : List String, ws.length = n ∧ text = String.join ws ∧
    ∀ w ∈ ws, S w := by
  induction n with
  | zero =>
    refine ⟨?_, ?_⟩
    · rintro before mid after rfl
      exact ⟨[], rfl, rfl, fun w hw => absurd hw not_mem_nil⟩
    · rintro before mid after - ⟨ws, hlength, hmid, -⟩
      rw [length_eq_zero_iff.mp hlength] at hmid
      exact String.ofList_eq.mp hmid
  | succ n ih =>
    refine ⟨?_, ?_⟩
    · rintro before mid after ⟨a, b, rfl, ha, hb⟩
      obtain ⟨ws, hlength, hmid, hall⟩ := ih.sound hb
      refine ⟨String.ofList a :: ws, by rw [length_cons,
        hlength], ?_, forall_mem_cons.mpr ⟨h.sound ha, hall⟩⟩
      rw [String.ofList_append, hmid, String.join_cons]
    · rintro before mid after hline ⟨ws, hlength, hmid, hall⟩
      obtain ⟨w, ws, rfl⟩ := exists_cons_of_length_eq_add_one hlength
      obtain ⟨hw, hws⟩ := forall_mem_cons.mp hall
      rw [String.join_cons, String.ofList_eq, String.toList_append] at hmid
      subst hmid
      rw [mem_append, not_or] at hline
      exact ⟨w.toList, (String.join ws).toList, rfl,
        h.complete hline.1 (by rwa [String.ofList_toList]),
        ih.complete hline.2 ⟨ws, Nat.succ.inj hlength, String.ofList_toList, hws⟩⟩

/-- A node that stands for one character of a kind. -/
structure OneOf (n : Node) (p : Char → Bool) : Prop where
  regular : n.isRegular = true
  width : 0 < (widthOf [] [n]).least
  repeatable : n.isRepeatable = true
  spans_iff : ∀ before mid after, n.spans before mid after ↔ ∃ c, mid = [c] ∧ p c = true

theorem oneOf_set {s : CharSet} (h : ∀ c, s.holds c = p c) : OneOf (.set s) p := by
  refine ⟨rfl, Nat.one_pos, rfl, fun before mid after => ?_⟩
  show (∃ c, mid = [c] ∧ s.holds c) ↔ _
  simp only [h]

theorem oneOf_any : OneOf (.any false) (· != '\n') :=
  ⟨rfl, Nat.one_pos, rfl, fun _ _ _ => Iff.rfl⟩

theorem oneOf_digit : OneOf digit Text.isDecimal :=
  oneOf_set fun c => by simp [CharSet.holds, Member.holds, Class.holds]

theorem OneOf.spans_loop {n : Node} (h : OneOf n p) {before mid after : List Char} :
    spans [.loop .greedy 1 none [n]] before mid after ↔ IsRunOf p (String.ofList mid) := by
  have hbody : ∀ before mid after, spans [n] before mid after ↔ ∃ c, mid = [c] ∧ p c := by
    intro before mid after
    rw [spans, spans, Language.seq_nothing]
    exact h.spans_iff before mid after
  rw [spans, spans, Language.seq_nothing]
  constructor
  · rintro ⟨k, hk, -, htimes⟩
    obtain ⟨hlength, hall⟩ := (times_char hbody).mp htimes
    refine ⟨fun heq => ?_, by rwa [String.toList_ofList]⟩
    rw [String.ofList_eq.mp heq] at hlength
    exact absurd hk (by rw [← hlength]; decide)
  · rintro ⟨hne, hall⟩
    rw [String.toList_ofList] at hall
    refine ⟨mid.length, ?_, fun m hm => absurd hm (Option.not_mem_none m),
      (times_char hbody).mpr ⟨rfl, hall⟩⟩
    exact length_pos_iff.mpr fun heq => hne (by rw [heq])

theorem OneOf.stands {n : Node} (h : OneOf n p) :
    Stands [.loop .greedy 1 none [n]] (IsRunOf p) := by
  refine ⟨⟨h.spans_loop.mp, fun _ => h.spans_loop.mpr⟩, ?_⟩
  have hsingle : isRegular [n] := by
    rw [isRegular, h.regular]
    rfl
  rw [isRegular, Node.isRegular, hsingle, decide_eq_true h.width]
  rfl

/-- Texts of a kind one after another, as often as one likes. -/
def Many (S : String → Prop) (text : String) : Prop := ∃ ws : List String, text = String.join ws ∧
    ∀ w ∈ ws, S w

theorem Stands.many (h : Stands ns S) (hwidth : 0 < (widthOf [] ns).least) :
    Stands [.loop .greedy 0 none ns] (Many S) := by
  have hspans : spans [.loop .greedy 0 none ns] = (Node.loop .greedy 0 none ns).spans := by
    rw [spans, spans, Language.seq_nothing]
  refine ⟨?_, by rw [isRegular, Node.isRegular, h.regular, decide_eq_true hwidth]; rfl⟩
  rw [hspans]
  refine ⟨?_, ?_⟩
  · rintro before mid after ⟨k, -, -, htimes⟩
    obtain ⟨ws, -, hmid, hall⟩ := h.times.sound htimes
    exact ⟨ws, hmid, hall⟩
  · rintro before mid after hline ⟨ws, hmid, hall⟩
    exact ⟨ws.length, Nat.zero_le _, fun m hm => absurd hm (Option.not_mem_none m),
      h.times.complete hline ⟨ws, rfl, hmid, hall⟩⟩

/-! ## §3. Forms. -/

/-- A pattern that is read wherever it stands, and whose nodes stand for texts of a kind. -/
def Form (g g' : Nat) (pattern : String) (S : String → Prop) : Prop :=
  ∃ ts ns, pattern.toList = ts.flatten ∧ Clause g g' ts ns ∧ Stands ns S

section Forms

variable {g g' g₁ g₂ g₃ : Nat} {p q : String} {S S' : String → Prop}

theorem Form.congr (h : Form g g' p S) (hS : ∀ text, S text ↔ S' text) : Form g g' p S' := by
  obtain ⟨ts, ns, hp, hclause, hstands⟩ := h
  exact ⟨ts, ns, hp, hclause, hstands.congr hS⟩

/-- **Forms one after another.** -/
theorem Form.append (h : Form g₁ g₂ p S) (h' : Form g₂ g₃ q S') :
    Form g₁ g₃ (p ++ q) (Joined S S') := by
  obtain ⟨ts, ns, hp, hclause, hstands⟩ := h
  obtain ⟨us, ms, hq, hclause', hstands'⟩ := h'
  refine ⟨ts ++ us, ns ++ ms, ?_, hclause.append hclause', hstands.append hstands'⟩
  rw [String.toList_append, hp, hq, flatten_append]

/-! ## §4. Single forms. -/

/-- A text without signs that mean something stands for itself. -/
theorem form_text (g : Nat) {text : String} (h : text.toList.all isPlainToken) :
    Form g g text (· = text) :=
  ⟨text.toList.map fun c => [c], literals text.toList, flatMap_singleton' _ |>.symm,
    clause_literals g fun c hc => atom_plain g (all_eq_true.mp h c hc), stands_literals text⟩

theorem form_quote (g : Nat) (text : String) : Form g g (quote text) (· = text) :=
  ⟨quoteTokens text, literals text.toList, (flatten_quoteTokens text).symm, clause_quote g text,
    stands_literals text⟩

theorem Atom.form {ts : List (List Char)} {n : Node} (h : Atom g g' ts n) {kind : Char → Bool}
    (hn : OneOf n kind) (hp : p.toList = ts.flatten ++ ['+']) : Form g g' p (IsRunOf kind) := by
  refine ⟨ts ++ [['+']], _, ?_, h.many hn.repeatable (.inl ⟨rfl, rfl⟩), hn.stands⟩
  rw [hp, flatten_append]
  rfl

theorem form_digits (g : Nat) : Form g g "\\d+" (IsRunOf Text.isDecimal) :=
  (atom_digit g).form oneOf_digit (by decide)

theorem form_capitals (g : Nat) : Form g g "[A-Z]+" (IsRunOf fun c => 'A' ≤ c && c ≤ 'Z') :=
  (atom_capital g).form (oneOf_set fun c => by simp [CharSet.holds, Member.holds]; rfl) (by decide)

theorem form_rest (g : Nat) : Form g g ".+" (· ≠ "") := by
  obtain ⟨ts, ns, hp, hclause, hstands⟩ := (atom_dot g).form (p := ".+") oneOf_any (by decide)
  refine ⟨ts, ns, hp, hclause, ⟨fun h => (hstands.sound h).1, fun hline hne =>
    hstands.complete hline ⟨hne, ?_⟩⟩, hstands.regular⟩
  intro c hc
  rw [bne_iff_ne]
  rintro rfl
  exact hline (by rwa [String.toList_ofList] at hc)

/-! ## §5. Options. -/

/-- A pattern that is read as options, which stand for texts of a kind. -/
def Choices (g g' : Nat) (pattern : String) (S : String → Prop) : Prop :=
  ∃ ts os, pattern.toList = ts.flatten ∧ Options g g' ts os ∧ areRegular os = true ∧
    Tells (spansOption os) S

theorem Form.choice (h : Form g₁ g₂ p S) : Choices g₁ g₂ p S := by
  obtain ⟨ts, ns, hp, hclause, hstands⟩ := h
  refine ⟨ts, [ns], hp, hclause.option, areRegular_iff.mpr fun o ho => ?_, ?_⟩
  · rw [mem_singleton.mp ho]
    exact hstands.regular
  · exact ⟨fun h => h.elim hstands.sound False.elim, fun hline h => .inl (hstands.complete hline h)⟩

/-- An option before others. -/
theorem Form.or (h : Form g₁ g₂ p S) (h' : Choices g₂ g₃ q S') :
    Choices g₁ g₃ (p ++ "|" ++ q) fun text => S text ∨ S' text := by
  obtain ⟨ts, ns, hp, hclause, hstands⟩ := h
  obtain ⟨us, os, hq, hoptions, hregular, hspans⟩ := h'
  refine ⟨ts ++ ['|'] :: us, ns :: os, ?_, hclause.or hoptions, ?_, ?_⟩
  · rw [String.toList_append, String.toList_append, hp, hq, flatten_append, flatten_cons,
      append_assoc]
    rfl
  · rw [areRegular, hstands.regular, hregular, Bool.and_self]
  · exact ⟨fun h => h.imp hstands.sound hspans.sound,
      fun hline h => h.imp (hstands.complete hline) (hspans.complete hline)⟩

/-- **Forms with bars between them.** -/
theorem choices_intercalate {α : Type} (g : Nat) {f : α → String} {S : α → String → Prop}
    {xs : List α} (hne : xs ≠ []) (h : ∀ x ∈ xs, Form g g (f x) (S x)) :
    Choices g g ("|".intercalate (xs.map f)) fun text => ∃ x ∈ xs, S x text := by
  induction xs with
  | nil => exact absurd rfl hne
  | cons x xs ih =>
    obtain ⟨hx, hxs⟩ := forall_mem_cons.mp h
    cases xs with
    | nil => simpa using hx.choice
    | cons y ys =>
      rw [map_cons, map_cons, String.intercalate_cons_cons, ← map_cons]
      simpa using hx.or (ih (cons_ne_nil y ys) hxs)

theorem stands_bodyOf {os : List (List Node)} (hos : areRegular os) (h : Tells (spansOption os) S) :
    Stands (bodyOf os) S := by
  have hbody : isRegular (bodyOf os) ∧ spans (bodyOf os) = spansOption os := by
    match os, hos with
    | [], hos => exact ⟨rfl, Language.seq_nothing⟩
    | [o], hos =>
      refine ⟨areRegular_iff.mp hos o (mem_singleton_self o), ?_⟩
      funext before mid after
      exact propext (or_iff_left id).symm
    | o :: o' :: os, hos =>
      refine ⟨?_, Language.seq_nothing⟩
      rw [bodyOf, isRegular, Node.isRegular, hos]
      · rfl
      · exact fun _ => nofun
  exact { hbody.2 ▸ h with regular := hbody.1 }

/-- **Options in parentheses.** -/
theorem Choices.form (h : Choices (g + 1) g' p S) : Form g g' ("(" ++ p ++ ")") S := by
  obtain ⟨ts, os, hp, hoptions, hregular, hspans⟩ := h
  refine ⟨_, _, ?_, hoptions.atom.clause, (stands_bodyOf hregular hspans).group (some g)⟩
  rw [String.toList_append, String.toList_append, hp, flatten_cons, flatten_append, append_assoc]
  rfl

variable {ns : List Node}

/-- A part in parentheses, as often as one likes; each time it takes a character. -/
theorem form_many {ts : List (List Char)} (h : Clause (g + 1) g' ts ns) (hstands : Stands ns S)
    (hwidth : 0 < (widthOf [] ns).least) (hp : p.toList = ts.flatten) :
    Form g g' ("(" ++ p ++ ")*") (Many S) := by
  have hgroup : 0 < (widthOf [] [.group (some g) ns]).least := by
    rw [widthOf, widthOf, Node.width, Width.add]
    exact Nat.lt_min.mpr ⟨hwidth, Nat.pow_pos Nat.zero_lt_two⟩
  refine ⟨_, _, ?_, h.option.atom.many rfl (.inr ⟨rfl, rfl⟩), (hstands.group (some g)).many hgroup⟩
  rw [String.toList_append, String.toList_append, hp, flatten_append, flatten_cons, flatten_append,
    append_assoc, append_assoc, append_assoc]
  rfl

/-! ## §6. Whole texts. -/

/-- Nodes between start and end. -/
def anchored (ns : List Node) : List Node := .spot (.start false) :: (ns ++ [.spot (.finish false)])

theorem Stands.isRegular_anchored (h : Stands ns S) : isRegular (anchored ns) := by
  rw [anchored, isRegular, Node.isRegular, isRegular_append, h.regular]
  rfl

/-- A tree that matches names of a kind only, with or without a line feed at the end, and of these
    all that are lines. -/
structure MatchesLines (tree : List Node) (S : String → Prop) : Prop where
  sound : ∀ {name}, matchesAt tree name → ∃ text, (name = text ∨ name = text ++ "\n") ∧ S text
  complete : ∀ {name}, '\n' ∉ name.toList → S name → matchesAt tree name

theorem MatchesLines.iff {tree : List Node} (h : MatchesLines tree S) {name : String}
    (hname : '\n' ∉ name.toList) : matchesAt tree name ↔ S name := by
  refine ⟨fun hmatches => ?_, h.complete hname⟩
  obtain ⟨text, rfl | rfl, hS⟩ := h.sound hmatches
  · exact hS
  · simp at hname

theorem Stands.matches (h : Stands ns S) : MatchesLines (anchored ns) S where
  sound {name} hmatches := by
    rw [matchesAt_iff h.isRegular_anchored] at hmatches
    obtain ⟨_, after, hlist, _, _, rfl, ⟨rfl, -⟩, hspans⟩ := hmatches
    rw [spans_append] at hspans
    obtain ⟨a, _, rfl, ha, _, _, rfl, ⟨rfl, hend⟩, rfl⟩ := hspans
    -- the end may also stand before a last line feed
    refine ⟨String.ofList a, ?_, h.sound ha⟩
    rw [← String.ofList_toList (s := name), hlist]
    rcases (by simpa [Cursor.isAt] using hend : after = [] ∨ after = ['\n']) with rfl | rfl
    · exact .inl (by simp)
    · exact .inr (by simp)
  complete {name} hname hS := by
    rw [matchesAt_iff h.isRegular_anchored]
    refine ⟨name.toList, [], (append_nil _).symm, [], name.toList, rfl, ⟨rfl, rfl⟩, ?_⟩
    rw [spans_append]
    exact ⟨name.toList, [], (append_nil _).symm, h.complete hname (by rwa [String.ofList_toList]),
      [], [], rfl, ⟨rfl, rfl⟩, rfl⟩

/-- **A form between start and end matches the texts that it stands for.** -/
theorem Form.matches (h : Form 1 g p S) : ∃ tree, Pattern.read ("^" ++ p ++ "$") = .ok tree ∧
    MatchesLines tree S := by
  obtain ⟨ts, ns, hp, hclause, hstands⟩ := h
  have hwhole : Clause 1 g ([['^']] ++ ts ++ [['$']]) (anchored ns) :=
    ((atom_start 1).clause.append hclause).append (atom_finish g).clause
  refine ⟨anchored ns, hwhole.read_eq hstands.isRegular_anchored ?_, hstands.matches⟩
  rw [String.toList_append, String.toList_append, hp, flatten_append, flatten_append]
  rfl

end Forms

end AddonAudit.Pattern
