/-
  AddonAudit.Proofs.Pattern.Template — reading replacements.

  Characters other than backslashes stand for themselves, so that a reference to the first group and
  a text without backslashes give that group and the text.
-/
import AddonAudit.Pattern.Template
import Mathlib.Data.List.Basic

namespace AddonAudit.Pattern

variable {α β : Type}

variable {s s' : State} {cs : List Char}

theorem bind_of_ok {x : Read α} {f : α → Read β} {a : α} (h : x s = .ok (a, s')) :
    (x >>= f) s = f a s' := by
  show (x s).bind _ = _
  rw [h]
  rfl

theorem get_bind (f : State → Read α) (s : State) : (get >>= f) s = f s s := rfl

/-- The state before characters, the first of which is the next token. -/
def State.Before (s : State) : List Char → Prop
  | [] => s.next = none ∧ s.rest = []
  | c :: cs => s.next = some [c] ∧ s.rest = cs

theorem advance_char {c : Char} (hrest : s.rest = c :: cs) (hc : c ≠ '\\') :
    advance s = .ok ((), { s with next := some [c], rest := cs, index := s.index + 1 }) := by
  unfold advance
  rw [get_bind]
  simp [hrest, hc]
  rfl

theorem advance_before (hrest : s.rest = cs) (hcs : '\\' ∉ cs) :
    ∃ s', advance s = .ok ((), s') ∧ s'.Before cs := by
  cases cs with
  | nil =>
    refine ⟨{ s with next := none }, ?_, rfl, hrest⟩
    unfold advance
    rw [get_bind, hrest]
    rfl
  | cons c cs =>
    have hne : c ≠ '\\' := fun heq => hcs (heq ▸ List.mem_cons_self)
    exact ⟨_, advance_char hrest hne, rfl, rfl⟩

theorem token_of_advance (h : advance s = .ok ((), s')) : token s = .ok (s.next, s') := by
  unfold token
  rw [get_bind, bind_of_ok h]
  rfl

/-- Characters without backslashes stand for themselves. -/
theorem readPieces_literal (count : Nat) (cs : List Char) : ∀ (fuel : Nat) (s : State),
    cs.length < fuel → '\\' ∉ cs → s.Before cs →
    ∃ s', readPieces count fuel s = .ok (cs.map .char, s') := by
  induction cs with
  | nil =>
    intro fuel s hfuel _ hs
    obtain ⟨fuel, rfl⟩ : ∃ n, fuel = n + 1 := ⟨fuel - 1, by simp at hfuel; omega⟩
    obtain ⟨s', hadvance, -⟩ := advance_before hs.2 (by simp)
    refine ⟨s', ?_⟩
    unfold readPieces
    rw [bind_of_ok (token_of_advance hadvance), hs.1]
    rfl
  | cons c cs ih =>
    intro fuel s hfuel hcs hs
    obtain ⟨fuel, rfl⟩ : ∃ n, fuel = n + 1 := ⟨fuel - 1, by simp at hfuel; omega⟩
    obtain ⟨-, hcs⟩ := List.ne_and_not_mem_of_not_mem_cons hcs
    obtain ⟨s₁, hadvance, hs₁⟩ := advance_before hs.2 hcs
    obtain ⟨s', hrest⟩ := ih fuel s₁ (by simpa using hfuel) hcs hs₁
    refine ⟨s', ?_⟩
    unfold readPieces
    rw [bind_of_ok (token_of_advance hadvance), hs.1]
    simp only
    rw [bind_of_ok hrest]
    rfl

/-- The reference to the first group in angle brackets. -/
theorem bracketGroup_one (hs : s.Before ('<' :: '1' :: '>' :: cs)) (hlength : 0 < s.length)
    (hend : advance { s with next := some ['>'], rest := cs, index := s.index + 2 }
      = .ok ((), s')) :
    bracketGroup 1 s = .ok (.group 1, s') := by
  obtain ⟨hnext, hrest⟩ := hs
  obtain ⟨n, hn⟩ : ∃ n, s.length + 1 = n + 1 + 1 := ⟨s.length - 1, by omega⟩
  have hone := advance_char hrest (by decide)
  have haccept : accept '<' s
      = .ok (true, { s with next := some ['1'], rest := '>' :: cs, index := s.index + 1 }) := by
    unfold accept
    rw [get_bind, hnext, if_pos (beq_self_eq_true _), bind_of_ok hone]
    rfl
  have hname : takeName '>' "group name"
      { s with next := some ['1'], rest := '>' :: cs, index := s.index + 1 } = .ok ("1", s') := by
    unfold takeName
    rw [get_bind, hn]
    have huntil : takeUntil '>' "group name" (n + 1 + 1) []
        { s with next := some ['1'], rest := '>' :: cs, index := s.index + 1 }
        = .ok (['1'], s') := by
      unfold takeUntil
      rw [bind_of_ok (token_of_advance (advance_char rfl (by decide)))]
      show takeUntil '>' "group name" (n + 1) ['1'] _ = _
      unfold takeUntil
      rw [bind_of_ok (token_of_advance hend)]
      rfl
    rw [bind_of_ok huntil]
    rfl
  unfold bracketGroup
  rw [bind_of_ok haccept]
  show (takeName '>' "group name" >>= _) _ = _
  rw [bind_of_ok hname]
  rfl

/-- **A replacement made of the first group and a text without backslashes** is read as that. -/
theorem readTemplate_literal {version : String} (h : '\\' ∉ version.toList) :
    readTemplate 1 ("\\g<1>" ++ version) = .ok (.group 1 :: version.toList.map .char) := by
  have hlist : ("\\g<1>" ++ version).toList =
      '\\' :: 'g' :: '<' :: '1' :: '>' :: version.toList := by
    rw [String.toList_append]
    rfl
  have hlength : ("\\g<1>" ++ version).length = version.toList.length + 5 := by
    rw [← String.length_toList, hlist]
    rfl
  unfold readTemplate
  rw [hlist, hlength]
  generalize version.toList = cs at h ⊢
  -- behind the group there are plain characters only
  obtain ⟨s₁, hend, hs₁⟩ := advance_before
    (s := { next := some ['>'], rest := cs, index := 5, length := cs.length + 5 }) rfl h
  obtain ⟨s₂, hliteral⟩ := readPieces_literal 1 cs (cs.length + 5) s₁ (by omega) h hs₁
  have hgroup : bracketGroup 1
      { next := some ['<'], rest := '1' :: '>' :: cs, index := 3, length := cs.length + 5 }
      = .ok (.group 1, s₁) := bracketGroup_one ⟨rfl, rfl⟩ (by simp) hend
  have hescape : escapePieces 1 'g'
      { next := some ['<'], rest := '1' :: '>' :: cs, index := 3, length := cs.length + 5 }
      = .ok ([.group 1], s₁) := by
    unfold escapePieces
    rw [if_pos (beq_self_eq_true _), bind_of_ok hgroup]
    rfl
  have hpieces : readPieces 1 (cs.length + 5 + 1)
      { next := some ['\\', 'g'], rest := '<' :: '1' :: '>' :: cs, index := 2, length := cs.length + 5 }
      = .ok (.group 1 :: cs.map .char, s₂) := by
    unfold readPieces
    rw [bind_of_ok (token_of_advance (advance_char rfl (by decide)))]
    show (escapePieces 1 'g' >>= _) _ = _
    rw [bind_of_ok hescape, bind_of_ok hliteral]
    rfl
  have hstart : advance { rest := '\\' :: 'g' :: '<' :: '1' :: '>' :: cs, length := cs.length + 5 }
      = .ok ((), {
          next := some ['\\', 'g'], rest := '<' :: '1' :: '>' :: cs, index := 2
          length := cs.length + 5 }) := rfl
  rw [bind_of_ok hstart, hpieces]
  rfl

end AddonAudit.Pattern
