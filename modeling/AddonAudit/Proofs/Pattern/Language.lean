/-
  AddonAudit.Proofs.Pattern.Language — what a pattern matches.

  A pattern stands for texts between others.  The matcher tries options one after another with a
  bound on its steps; so it finds a match only if there is one, and if there is one, the question is
  whether the bound is large enough.  It is: the weight of a pattern bounds the steps for each
  character, as long as each round of a loop takes a character.
-/
import AddonAudit.Pattern.Match
import Mathlib.Data.List.Basic
import Mathlib.Tactic.Ring

namespace AddonAudit.Pattern

open List

/-! ## §1. Languages. -/

/-- Texts between others: what stands before them, the last character first, and what follows. -/
abbrev Language := List Char → List Char → List Char → Prop

namespace Language

/-- The empty text. -/
def nothing : Language := fun _ mid _ => mid = []

/-- Texts of one language followed by texts of another. -/
def seq (l m : Language) : Language := fun before mid after =>
  ∃ a b, mid = a ++ b ∧ l before a (b ++ after) ∧ m (a.reverse ++ before) b after

/-- Texts of a language so many times. -/
def times (l : Language) : Nat → Language
  | 0 => nothing
  | n + 1 => l.seq (times l n)

variable {l m n : Language}

theorem nothing_seq : nothing.seq l = l := by
  funext before mid after
  refine propext ⟨?_, fun h => ⟨[], mid, rfl, rfl, h⟩⟩
  rintro ⟨a, b, rfl, rfl, h⟩
  exact h

theorem seq_assoc : (l.seq m).seq n = l.seq (m.seq n) := by
  funext before mid after
  refine propext ⟨?_, ?_⟩
  · rintro ⟨_, c, rfl, ⟨a, b, rfl, ha, hb⟩, hc⟩
    rw [reverse_append, append_assoc] at hc
    rw [← append_assoc] at ha
    exact ⟨a, b ++ c, by rw [append_assoc], ha, b, c, rfl, hb, hc⟩
  · rintro ⟨a, _, rfl, ha, b, c, rfl, hb, hc⟩
    rw [← append_assoc, ← reverse_append] at hc
    rw [append_assoc] at ha
    exact ⟨a ++ b, c, by rw [append_assoc], ⟨a, b, rfl, ha, hb⟩, hc⟩

theorem seq_nothing : l.seq nothing = l := by
  funext before mid after
  refine propext ⟨?_, fun h => ⟨mid, [], (append_nil mid).symm, h, rfl⟩⟩
  rintro ⟨a, _, rfl, h, rfl⟩
  rwa [append_nil]

end Language

/-! ## §2. What nodes stand for. -/

mutual
/-- The texts of a node.  Nodes that look around or that go back to groups are left out. -/
def Node.spans : Node → Language
  | .set s => fun _ mid _ => ∃ c, mid = [c] ∧ s.holds c = true
  | .any all => fun _ mid _ => ∃ c, mid = [c] ∧ (all || c != '\n') = true
  | .spot s => fun before mid after => mid = [] ∧ Cursor.isAt ⟨before, after, []⟩ s = true
  | .group _ body => spans body
  | .choice options => spansOption options
  | .loop _ least most body => fun before mid after =>
    ∃ n, least ≤ n ∧ (∀ m ∈ most, n ≤ max least m) ∧ (spans body).times n before mid after
  | .atomic _ => fun _ _ _ => False
  | .look _ _ _ _ => fun _ _ _ => False
  | .again _ _ => fun _ _ _ => False
  | .given _ _ _ => fun _ _ _ => False

/-- The texts of a sequence. -/
def spans : List Node → Language
  | [] => Language.nothing
  | n :: ns => n.spans.seq (spans ns)

/-- The texts of any of some options. -/
def spansOption : List (List Node) → Language
  | [] => fun _ _ _ => False
  | o :: os => fun before mid after => spans o before mid after ∨ spansOption os before mid after
end

theorem spans_append (ns ms : List Node) : spans (ns ++ ms) = (spans ns).seq (spans ms) := by
  induction ns with
  | nil => rw [nil_append, spans, Language.nothing_seq]
  | cons n ns ih => rw [cons_append, spans, ih, spans, Language.seq_assoc]

theorem spansOption_iff {options : List (List Node)} {before mid after : List Char} :
    spansOption options before mid after ↔ ∃ o ∈ options, spans o before mid after := by
  induction options with
  | nil => simp [spansOption]
  | cons o os ih => simp [spansOption, ih]

/-! ## §3. Regular patterns. -/

mutual
/-- Whether a node is regular: it neither looks around nor goes back to a group, and each round of a
    loop takes a character. -/
def Node.isRegular : Node → Bool
  | .set _ => true
  | .any _ => true
  | .spot _ => true
  | .group _ body => isRegular body
  | .choice options => areRegular options
  | .loop mode _ _ body =>
    mode != .possessive && isRegular body && decide (0 < (widthOf [] body).least)
  | .atomic _ => false
  | .look _ _ _ _ => false
  | .again _ _ => false
  | .given _ _ _ => false

/-- Whether all nodes of a sequence are regular. -/
def isRegular : List Node → Bool
  | [] => true
  | n :: ns => n.isRegular && isRegular ns

/-- Whether all options are regular. -/
def areRegular : List (List Node) → Bool
  | [] => true
  | o :: os => isRegular o && areRegular os
end

theorem isRegular_append (ns ms : List Node) :
    isRegular (ns ++ ms) = (isRegular ns && isRegular ms) := by
  induction ns with
  | nil => rfl
  | cons n ns ih => rw [cons_append, isRegular, ih, isRegular, Bool.and_assoc]

theorem areRegular_iff {options : List (List Node)} :
    areRegular options ↔ ∀ o ∈ options, isRegular o := by
  induction options with
  | nil => simp [areRegular]
  | cons o os ih => simp [areRegular, ih]

theorem length_times {l : Language} {k : Nat} (hl : ∀ {before mid after}, l before mid after →
    k ≤ mid.length) : ∀ {n : Nat} {before mid after : List Char}, l.times n before mid after →
    k * n ≤ mid.length := by
  intro n
  induction n with
  | zero => simp
  | succ n ih =>
    rintro before _ after ⟨a, b, rfl, ha, hb⟩
    have hfirst := hl ha
    have hrest := ih hb
    rw [length_append, Nat.mul_succ]
    omega

mutual
/-- A text is at least as long as the least width of its node. -/
theorem Node.least_le_length :
    ∀ (n : Node) {before mid after : List Char}, n.spans before mid after →
    (n.width []).least ≤ mid.length
  | .set s, _, _, _, ⟨c, rfl, _⟩ => Nat.le_refl 1
  | .any all, _, _, _, ⟨c, rfl, _⟩ => Nat.le_refl 1
  | .spot s, _, _, _, _ => Nat.zero_le _
  | .group _ body, _, _, _, h => least_le_length body h
  | .choice options, _, _, _, h => least_le_length_option options h
  | .loop _ least most body, before, mid, after, ⟨n, hleast, _, h⟩ => by
    have hrounds : (widthOf [] body).least * n ≤ mid.length := length_times (least_le_length body) h
    exact Nat.le_trans (Nat.mul_le_mul_left _ hleast) hrounds
  | .atomic _, _, _, _, h => h.elim
  | .look _ _ _ _, _, _, _, h => h.elim
  | .again _ _, _, _, _, h => h.elim
  | .given _ _ _, _, _, _, h => h.elim

/-- **A text is at least as long as the least width of its pattern.** -/
theorem least_le_length :
    ∀ (ns : List Node) {before mid after : List Char}, spans ns before mid after →
    (widthOf [] ns).least ≤ mid.length
  | [], _, _, _, _ => Nat.zero_le _
  | n :: ns, before, _, after, ⟨a, b, rfl, ha, hb⟩ => by
    have hfirst := n.least_le_length ha
    have hrest := least_le_length ns hb
    have hadd : (widthOf [] (n :: ns)).least ≤ (n.width []).least + (widthOf [] ns).least := by
      rw [widthOf, Width.add]
      exact Nat.min_le_left _ _
    rw [length_append]
    omega

theorem least_le_length_option : ∀ (options : List (List Node)) {before mid after : List Char},
    spansOption options before mid after → (widthOfOptions [] options).least ≤ mid.length
  | [], _, _, _, h => h.elim
  | o :: _, _, _, _, .inl h => Nat.le_trans (Nat.min_le_left _ _) (least_le_length o h)
  | _ :: os, _, _, _, .inr h => Nat.le_trans (Nat.min_le_right _ _) (least_le_length_option os h)
end

/-! ## §4. Tasks. -/

/-- The texts that a task takes. -/
def Task.takes : Task → Language
  | .node n => n.spans
  | .close _ _ => Language.nothing
  | .again _ least most body count _ => fun before mid after =>
    ∃ n, least ≤ count + n ∧ (0 < n → ∀ m ∈ most, count + n ≤ max least m) ∧
      (spans body).times n before mid after

/-- The texts that tasks take one after another. -/
def takes : List Task → Language
  | [] => Language.nothing
  | t :: ts => t.takes.seq (takes ts)

/-- Whether a task is one of a regular pattern. -/
def Task.isRegular : Task → Bool
  | .node n => n.isRegular
  | .close _ _ => true
  | .again mode _ _ body _ _ =>
    mode != .possessive && Pattern.isRegular body && decide (0 < (widthOf [] body).least)

theorem takes_tasks (ns : List Node) (ts : List Task) :
    takes (tasks ns ts) = (spans ns).seq (takes ts) := by
  induction ns with
  | nil => exact Language.nothing_seq.symm
  | cons n ns ih =>
    show n.spans.seq (takes (tasks ns ts)) = _
    rw [ih, spans, Language.seq_assoc]

theorem regular_tasks {ns : List Node} {ts : List Task} (hns : isRegular ns)
    (hts : ∀ t ∈ ts, t.isRegular) : ∀ t ∈ tasks ns ts, t.isRegular := by
  induction ns with
  | nil => exact hts
  | cons n ns ih =>
    rw [isRegular, Bool.and_eq_true] at hns
    intro t ht
    rcases mem_cons.mp ht with rfl | ht
    · exact hns.1
    · exact ih hns.2 t ht

/-- A round more of a loop. -/
theorem takes_once {mode : Mode} {least : Nat} {most : Option Nat} {body : List Node} {count : Nat}
    {left left' : Option Nat} {ts : List Task} {before mid after : List Char}
    (hmost : count < least ∨ ∀ m ∈ most, count < m)
    (h : takes (tasks body (.again mode least most body (count + 1) left' :: ts)) before mid
    after) :
    takes (.again mode least most body count left :: ts) before mid after := by
  rw [takes_tasks] at h
  obtain ⟨a, _, rfl, ha, b, c, rfl, ⟨n, hleast, hn, hb⟩, hc⟩ := h
  rw [← append_assoc, ← reverse_append] at hc
  refine ⟨a ++ b, c, by rw [append_assoc],
    ⟨n + 1, by omega, fun _ m hm => ?_, a, b, rfl, ?_, hb⟩, hc⟩
  · -- a round that is asked for is not counted against the most
    rcases Nat.eq_zero_or_pos n with rfl | hpos
    · rcases hmost with hlt | hlt
      · omega
      · have := hlt m hm
        omega
    · have := hn hpos m hm
      omega
  · rwa [append_assoc] at ha

/-! ## §5. Soundness. -/

/-- What one character leaves. -/
theorem one?_eq_some {c d : Cursor} {p : Char → Bool} (h : c.one? p = some d) :
    ∃ x, p x ∧ c.rest = x :: d.rest ∧ d.before = x :: c.before := by
  unfold Cursor.one? at h
  split at h
  · rename_i x rest hrest
    split at h
    · rename_i hx
      cases h
      exact ⟨x, hx, hrest, rfl⟩
    · cases h
  · cases h

theorem one?_cons (before rest : List Char) (c : Char) (g : List (Nat × List Char)) (p : Char →
    Bool) : Cursor.one? ⟨before, c :: rest, g⟩ p = if p c then some ⟨c :: before, rest,
    g⟩ else none := rfl

/-- How the matcher goes on with a loop: it leaves it, or takes another round. -/
theorem run_again_cases {fuel : Nat} {mode : Mode} {least : Nat} {most : Option Nat}
    {body : List Node} {count : Nat} {left : Option Nat} {ts : List Task} {c d : Cursor}
    (h : run (fuel + 1) (.again mode least most body count left :: ts) c = some d) :
    (least ≤ count ∧ run fuel ts c = some d) ∨ ((count < least ∨ ∀ m ∈ most, count < m) ∧
      run fuel (tasks body (.again mode least most body (count + 1) (some c.rest.length) :: ts)) c =
      some d) := by
  by_cases hcount : count < least
  · rw [run, if_pos hcount] at h
    exact .inr ⟨.inl hcount, h⟩
  · rw [run, if_neg hcount] at h
    -- a round more is tried only below the most
    have hmore : ((most.map (decide <| count < ·)).getD true && left != some c.rest.length) →
        ∀ m ∈ most, count < m := by
      intro hmore m hm
      rw [Bool.and_eq_true] at hmore
      rw [Option.mem_def.mp hm] at hmore
      exact of_decide_eq_true hmore.1
    cases mode with
    | lazy =>
      dsimp only at h
      split at h
      · rename_i e hrun
        cases h
        exact .inl ⟨Nat.le_of_not_lt hcount, hrun⟩
      · split at h
        · rename_i hgo
          exact .inr ⟨.inr (hmore hgo), h⟩
        · cases h
    | greedy =>
      dsimp only at h
      split at h
      · rename_i e hrun
        cases h
        split at hrun
        · rename_i hgo
          exact .inr ⟨.inr (hmore hgo), hrun⟩
        · cases hrun
      · exact .inl ⟨Nat.le_of_not_lt hcount, h⟩
    | possessive =>
      dsimp only at h
      split at h
      · rename_i e hrun
        cases h
        split at hrun
        · rename_i hgo
          exact .inr ⟨.inr (hmore hgo), hrun⟩
        · cases hrun
      · exact .inl ⟨Nat.le_of_not_lt hcount, h⟩

/-- **What the matcher takes is a text of its tasks.** -/
theorem run_sound : ∀ {fuel : Nat} {ts : List Task} {c d : Cursor}, (∀ t ∈ ts, t.isRegular) →
    run fuel ts c = some d → ∃ mid, c.rest = mid ++ d.rest ∧ takes ts c.before mid d.rest := by
  intro fuel
  induction fuel with
  | zero =>
    intro ts c d _ h
    cases h
  | succ fuel ih =>
    intro ts c d hts h
    cases ts with
    | nil =>
      cases h
      exact ⟨[], rfl, rfl⟩
    | cons t ts =>
      have hrest : ∀ u ∈ ts, u.isRegular := fun u hu => hts u (mem_cons_of_mem t hu)
      have ht := hts t mem_cons_self
      -- one character, and what comes after it
      have hone {p : Char → Bool} (h : (c.one? p).bind (run fuel ts) = some d) :
          ∃ x mid, p x ∧ c.rest = x :: (mid ++ d.rest) ∧ takes ts (x :: c.before) mid d.rest := by
        obtain ⟨e, he, hrun⟩ := Option.bind_eq_some_iff.mp h
        obtain ⟨x, hx, hc, hbefore⟩ := one?_eq_some he
        obtain ⟨mid, hmid, htakes⟩ := ih hrest hrun
        rw [hbefore] at htakes
        exact ⟨x, mid, hx, by rw [hc, hmid], htakes⟩
      cases t with
      | close n left =>
        obtain ⟨mid, hmid, htakes⟩ := ih hrest h
        exact ⟨mid, hmid, [], mid, rfl, rfl, htakes⟩
      | again mode least most body count left =>
        rcases run_again_cases h with ⟨hleast, hrun⟩ | ⟨hmost, hrun⟩
        · obtain ⟨mid, hmid, htakes⟩ := ih hrest hrun
          exact ⟨mid, hmid, [], mid, rfl, ⟨0, hleast, fun hpos => absurd hpos (Nat.lt_irrefl 0),
            rfl⟩, htakes⟩
        · have hbody : isRegular body := by
            rw [Task.isRegular, Bool.and_eq_true, Bool.and_eq_true] at ht
            exact ht.1.2
          have hnext : ∀ u ∈ Task.again mode least most body (count + 1) (some c.rest.length) :: ts,
              u.isRegular := forall_mem_cons.mpr ⟨ht, hrest⟩
          obtain ⟨mid, hmid, htakes⟩ := ih (regular_tasks hbody hnext) hrun
          exact ⟨mid, hmid, takes_once hmost htakes⟩
      | node n =>
        cases n with
        | set s =>
          obtain ⟨x, mid, hx, hc, htakes⟩ := hone h
          exact ⟨x :: mid, hc, [x], mid, rfl, ⟨x, rfl, hx⟩, htakes⟩
        | any all =>
          obtain ⟨x, mid, hx, hc, htakes⟩ := hone h
          exact ⟨x :: mid, hc, [x], mid, rfl, ⟨x, rfl, hx⟩, htakes⟩
        | spot s =>
          replace h : (if c.isAt s then run fuel ts c else none) = some d := h
          split at h
          · rename_i hat
            obtain ⟨mid, hmid, htakes⟩ := ih hrest h
            refine ⟨mid, hmid, [], mid, rfl, ⟨rfl, ?_⟩, htakes⟩
            rw [← hmid]
            exact hat
          · cases h
        | group number body =>
          cases number with
          | none =>
            obtain ⟨mid, hmid, htakes⟩ := ih (regular_tasks ht hrest) h
            rw [takes_tasks] at htakes
            exact ⟨mid, hmid, htakes⟩
          | some k =>
            have hclose : ∀ u ∈ Task.close k c.rest.length :: ts, u.isRegular :=
              forall_mem_cons.mpr ⟨rfl, hrest⟩
            obtain ⟨mid, hmid, htakes⟩ := ih (regular_tasks ht hclose) h
            rw [takes_tasks] at htakes
            have htail : takes (.close k c.rest.length :: ts) = takes ts := Language.nothing_seq
            rw [htail] at htakes
            exact ⟨mid, hmid, htakes⟩
        | choice options =>
          obtain ⟨o, ho, hrun⟩ := exists_of_findSome?_eq_some h
          obtain ⟨mid, hmid, htakes⟩ := ih (regular_tasks (areRegular_iff.mp ht o ho) hrest) hrun
          rw [takes_tasks] at htakes
          obtain ⟨a, b, rfl, ha, hb⟩ := htakes
          exact ⟨_, hmid, a, b, rfl, spansOption_iff.mpr ⟨o, ho, ha⟩, hb⟩
        | loop mode least most body =>
          have hagain : ∀ u ∈ Task.again mode least most body 0 none :: ts, u.isRegular :=
            forall_mem_cons.mpr ⟨ht, hrest⟩
          have hrun : run fuel (.again mode least most body 0 none :: ts) c = some d := by
            cases mode with
            | greedy => exact h
            | lazy => exact h
            | possessive => cases ht
          obtain ⟨mid, hmid, a, b, rfl, ⟨n, hleast, hmost, ha⟩, hb⟩ := ih hagain hrun
          rw [Nat.zero_add] at hleast hmost
          refine ⟨_, hmid, a, b, rfl, ⟨n, hleast, fun m hm => ?_, ha⟩, hb⟩
          rcases Nat.eq_zero_or_pos n with rfl | hpos
          · exact Nat.zero_le _
          · exact hmost hpos m hm
        | atomic body => cases ht
        | look ahead negated width body => cases ht
        | again number ignoreCase => cases ht
        | given number yes no => cases ht

/-! ## §6. Ways through. -/

/-- Whether tasks can be done from some steps on, whatever the groups are. -/
def Passes (fuel : Nat) (ts : List Task) (before rest : List Char) : Prop :=
  ∀ k ≥ fuel, ∀ g, (run k ts ⟨before, rest, g⟩).isSome = true

theorem Passes.mono {fuel fuel' : Nat} {ts : List Task} {before rest : List Char}
    (h : Passes fuel ts before rest) (hle : fuel ≤ fuel') :
    Passes fuel' ts before rest := fun k hk g => h k (Nat.le_trans hle hk) g

theorem passes_nil (before rest : List Char) : Passes 1 [] before rest := by
  intro k hk g
  obtain ⟨k, rfl⟩ : ∃ n, k = n + 1 := ⟨k - 1, by omega⟩
  rfl

section Steps

variable {fuel : Nat} {ts : List Task} {before mid after : List Char}

/-- What can be done in one step more. -/
theorem passes_step {t : Task} {ts' : List Task} {before' rest rest' : List Char}
    (h : Passes fuel ts' before' rest') (hstep : ∀ k g, ∃ g',
    (run k ts' ⟨before', rest', g'⟩).isSome →
      (run (k + 1) (t :: ts) ⟨before, rest, g⟩).isSome) : Passes (fuel + 1)
      (t :: ts) before rest := by
  intro k hk g
  obtain ⟨k, rfl⟩ : ∃ n, k = n + 1 := ⟨k - 1, by omega⟩
  obtain ⟨g', hg'⟩ := hstep k g
  exact hg' (h k (by omega) g')

section Again

variable {mode : Mode} {least : Nat} {most : Option Nat} {body : List Node} {count : Nat}
    {left : Option Nat}
  {c : Cursor}

/-- A loop that was run often enough can be left. -/
theorem run_again_leave (hleast : least ≤ count) (h : (run fuel ts c).isSome) :
    (run (fuel + 1) (.again mode least most body count left :: ts) c).isSome := by
  obtain ⟨d, hd⟩ := Option.isSome_iff_exists.mp h
  rw [run, if_neg (Nat.not_lt.mpr hleast), hd]
  cases mode with
  | lazy => rfl
  | greedy =>
    dsimp only
    split
    · rfl
    · rfl
  | possessive =>
    dsimp only
    split
    · rfl
    · rfl

/-- A loop can be run once more if it has to be, or if it may be and the last round took a
    character. -/
theorem run_again_once (hmost : count < least ∨ ∀ m ∈ most, count < m)
    (hleft : ∀ l ∈ left, l ≠ c.rest.length)
    (h : (run fuel (tasks body (.again mode least most body (count + 1) (some c.rest.length) :: ts))
    c).isSome ) :
    (run (fuel + 1) (.again mode least most body count left :: ts) c).isSome := by
  obtain ⟨d, hd⟩ := Option.isSome_iff_exists.mp h
  by_cases hcount : count < least
  · rw [run, if_pos hcount, hd]
    rfl
  · have hmore : ((most.map (decide <| count < ·)).getD true && left != some c.rest.length) := by
      rw [Bool.and_eq_true]
      constructor
      · cases most with
        | none => rfl
        | some m => exact decide_eq_true (hmost.resolve_left hcount m rfl)
      · cases left with
        | none => rfl
        | some l => simpa using hleft l rfl
    rw [run, if_neg hcount]
    dsimp only
    rw [if_pos hmore, hd]
    -- a lazy repetition may stop before, with a match as well
    cases mode with
    | lazy =>
      dsimp only
      split
      · rfl
      · rfl
    | greedy => rfl
    | possessive => rfl

/-- Rounds of a loop whose body can be passed and takes a character each time.  The induction is on
    how many rounds are left; the characters left before the last round are more than those left
    now. -/
theorem passes_again (hpos : ∀ {before mid after}, spans body before mid after → 0 < mid.length)
    (hbody : ∀ {fuel ts before mid after}, spans body before mid after →
    Passes fuel ts (mid.reverse ++ before) after →
      Passes (fuel + weightOf body * (mid.length + 1)) (tasks body ts) before (mid ++ after))
      {n : Nat} :
    ∀ {count : Nat} {left : Option Nat} {before mid : List Char},
    (spans body).times n before mid after →
      least ≤ count + n → (0 < n → ∀ m ∈ most, count + n ≤ max least m) →
      (∀ l ∈ left, mid.length + after.length < l) → Passes fuel ts (mid.reverse ++ before) after →
      Passes (fuel + 1 + n + weightOf body * (mid.length + n))
      (.again mode least most body count left :: ts)
        before (mid ++ after) := by
  induction n with
  | zero =>
    rintro count left before _ rfl hleast - - h
    exact (passes_step h fun k g => ⟨g, run_again_leave hleast⟩).mono (by omega)
  | succ n ih =>
    rintro count left before _ ⟨a, b, rfl, ha, hb⟩ hleast hmost hleft h
    have hlength := hpos ha
    have hrest : (a ++ b ++ after).length = a.length + b.length + after.length := by
      simp only [length_append]
    rw [reverse_append, append_assoc] at h
    have htail : Passes (fuel + 1 + n + weightOf body * (b.length + n))
        (.again mode least most body (count + 1) (some (a ++ b ++ after).length) :: ts)
        (a.reverse ++ before)
        (b ++ after) := by
      refine ih hb (by omega) (fun _ m hm => ?_) (fun l hl => ?_) h
      · have := hmost (Nat.succ_pos n) m hm
        omega
      · rw [← Option.some.inj hl, hrest]
        omega
    -- one round now, the others by induction
    have hround := hbody ha htail
    rw [← append_assoc] at hround
    refine (passes_step hround fun k g =>
      ⟨g, run_again_once (c := ⟨before, a ++ b ++ after, g⟩) ?_ fun l hl => ?_⟩).mono ?_
    · by_cases hcount : count < least
      · exact .inl hcount
      · refine .inr fun m hm => ?_
        have := hmost (Nat.succ_pos n) m hm
        omega
    · -- the round before ended further to the left
      have := hleft l hl
      rw [length_append] at this
      show l ≠ (a ++ b ++ after).length
      rw [hrest]
      omega
    · rw [length_append]
      have hsum : weightOf body * (a.length + b.length + (n + 1))
          = weightOf body * (b.length + n) + weightOf body * (a.length + 1) := by ring
      omega

end Again

end Steps

mutual
/-- A text of a regular node is taken within the weight of the node for each character, and once
    more. -/
theorem Node.passes : ∀ (n : Node), n.isRegular → ∀ {fuel ts before mid after},
    n.spans before mid after → Passes fuel ts (mid.reverse ++ before) after →
      Passes (fuel + n.weight * (mid.length + 1)) (.node n :: ts) before (mid ++ after)
  | .set s, _, fuel, ts, before, _, after, ⟨c, rfl, hc⟩, h => by
    refine (passes_step h fun k g => ⟨g, fun hrun => ?_⟩).mono (by rw [Node.weight]; omega)
    show (Option.bind (Cursor.one? ⟨before, c :: after, g⟩ _) (run k ts)).isSome
    rw [one?_cons, if_pos hc]
    exact hrun
  | .any all, _, fuel, ts, before, _, after, ⟨c, rfl, hc⟩, h => by
    refine (passes_step h fun k g => ⟨g, fun hrun => ?_⟩).mono (by rw [Node.weight]; omega)
    show (Option.bind (Cursor.one? ⟨before, c :: after, g⟩ _) (run k ts)).isSome
    rw [one?_cons, if_pos hc]
    exact hrun
  | .spot s, _, fuel, ts, before, _, after, ⟨rfl, hat⟩, h => by
    refine (passes_step h fun k g => ⟨g, fun hrun => ?_⟩).mono (by rw [Node.weight]; simp)
    have hat' : Cursor.isAt ⟨before, after, g⟩ s := by
      cases s <;> exact hat
    rw [run, nil_append, if_pos hat']
    exact hrun
  | .group none body, hn, fuel, ts, before, mid, after, hspans, h => by
    have hbody := passes_sequence body hn hspans h
    refine (passes_step (t := .node (.group none body)) hbody fun k g =>
      ⟨g, fun hrun => hrun⟩).mono ?_
    rw [Node.weight, Nat.add_mul]
    omega
  | .group (some number) body, hn, fuel, ts, before, mid, after, hspans, h => by
    have hclose : Passes (fuel + 1) (.close number (mid ++ after).length :: ts) (mid.reverse ++
        before) after :=
      passes_step h fun k g => ⟨_, fun hrun => hrun⟩
    have hbody := passes_sequence body hn hspans hclose
    refine (passes_step (t := .node (.group (some number) body)) hbody fun k g =>
      ⟨g, fun hrun => hrun⟩).mono ?_
    rw [Node.weight, Nat.add_mul]
    omega
  | .choice options, hn, fuel, ts, before, mid, after, hspans, h => by
    obtain ⟨o, ho, hoption⟩ := passes_option options hn hspans h
    refine (passes_step hoption fun k g => ⟨g, fun hrun => ?_⟩).mono ?_
    · rw [run, findSome?_isSome_iff]
      exact ⟨o, ho, hrun⟩
    · rw [Node.weight, Nat.add_mul]
      omega
  | .loop mode least most body, hn, fuel, ts, before, mid, after, ⟨n, hleast, hmost, htimes⟩,
      h => by
    rw [Node.isRegular, Bool.and_eq_true, Bool.and_eq_true] at hn
    -- every round takes a character, so there are no more rounds than characters
    have hpos : ∀ {before mid after}, spans body before mid after → 0 < mid.length :=
      fun hspans => Nat.lt_of_lt_of_le (of_decide_eq_true hn.2) (least_le_length body hspans)
    have hrounds : 1 * n ≤ mid.length := length_times (fun hspans => hpos hspans) htimes
    have hagain : Passes (fuel + 1 + n + weightOf body * (mid.length + n))
      (.again mode least most body 0 none :: ts)
        before (mid ++ after) :=
      passes_again hpos (passes_sequence body hn.1.2) htimes (by rwa [Nat.zero_add])
        (fun _ m hm => by rw [Nat.zero_add]; exact hmost m hm) (by simp) h
    refine (passes_step hagain fun k g => ⟨g, fun hrun => ?_⟩).mono ?_
    · cases mode with
      | greedy => exact hrun
      | lazy => exact hrun
      | possessive => cases hn.1.1
    · -- the weight of a loop pays for its rounds and for what they match
      have hcost : weightOf body * (mid.length + n) ≤ weightOf body * (2 * (mid.length + 1)) :=
        Nat.mul_le_mul_left _ (by omega)
      have hweight : 2 * (weightOf body + 2) * (mid.length + 1)
          ≤ (least + 2) * (weightOf body + 2) * (mid.length + 1) :=
        Nat.mul_le_mul_right _ (Nat.mul_le_mul_right _ (by omega))
      have hsplit : 2 * (weightOf body + 2) * (mid.length + 1)
          = weightOf body * (2 * (mid.length + 1)) + 4 * (mid.length + 1) := by ring
      rw [Node.weight]
      omega
  | .atomic _, hn, _, _, _, _, _, _, _ => by cases hn
  | .look _ _ _ _, hn, _, _, _, _, _, _, _ => by cases hn
  | .again _ _, hn, _, _, _, _, _, _, _ => by cases hn
  | .given _ _ _, hn, _, _, _, _, _, _, _ => by cases hn

/-- **A text of a regular pattern is taken within the bound.** -/
theorem passes_sequence : ∀ (ns : List Node), isRegular ns → ∀ {fuel ts before mid after},
    spans ns before mid after → Passes fuel ts (mid.reverse ++ before) after →
      Passes (fuel + weightOf ns * (mid.length + 1)) (tasks ns ts) before (mid ++ after)
  | [], _, fuel, ts, before, _, after, rfl, h => h.mono (Nat.le_add_right _ _)
  | n :: ns, hns, fuel, ts, before, _, after, ⟨a, b, rfl, ha, hb⟩, h => by
    rw [isRegular, Bool.and_eq_true] at hns
    rw [reverse_append, append_assoc] at h
    have hrest := passes_sequence ns hns.2 hb h
    have hfirst := n.passes hns.1 ha hrest
    rw [← append_assoc] at hfirst
    refine hfirst.mono ?_
    have hcost₁ := Nat.mul_le_mul_left n.weight (show a.length + 1 ≤ (a ++ b).length + 1 by simp)
    have hcost₂ := Nat.mul_le_mul_left (weightOf ns) (show b.length + 1 ≤ (a ++
      b).length + 1 by simp)
    rw [weightOf, Nat.add_mul]
    omega

theorem passes_option : ∀ (options : List (List Node)), areRegular options →
    ∀ {fuel ts before mid after}, spansOption options before mid after →
    Passes fuel ts (mid.reverse ++ before) after →
      ∃ o ∈ options, Passes (fuel + weightOfOptions options * (mid.length + 1))
      (tasks o ts) before (mid ++ after)
  | o :: os, hos, fuel, ts, before, mid, after, .inl hspans, h => by
    rw [areRegular, Bool.and_eq_true] at hos
    refine ⟨o, mem_cons_self, (passes_sequence o hos.1 hspans h).mono ?_⟩
    rw [weightOfOptions, Nat.add_mul]
    omega
  | o :: os, hos, fuel, ts, before, mid, after, .inr hspans, h => by
    rw [areRegular, Bool.and_eq_true] at hos
    obtain ⟨o', ho', hpasses⟩ := passes_option os hos.2 hspans h
    refine ⟨o', mem_cons_of_mem o ho', hpasses.mono ?_⟩
    rw [weightOfOptions, Nat.add_mul]
    omega
end

/-! ## §7. Matching. -/

/-- **A regular pattern matches exactly the texts that it stands for.** -/
theorem matchesAt_iff {p : List Node} (hp : isRegular p) (text : String) :
    matchesAt p text ↔ ∃ mid after, text.toList = mid ++ after ∧ spans p [] mid after := by
  unfold matchesAt
  constructor
  · intro h
    obtain ⟨d, hd⟩ := Option.isSome_iff_exists.mp h
    obtain ⟨mid, hmid, htakes⟩ := run_sound (regular_tasks hp (by simp)) hd
    rw [takes_tasks, takes, Language.seq_nothing] at htakes
    exact ⟨mid, d.rest, hmid, htakes⟩
  · rintro ⟨mid, after, htext, hspans⟩
    have hpasses := passes_sequence p hp hspans (passes_nil (mid.reverse ++ []) after)
    rw [htext]
    refine hpasses _ ?_ []
    have hcost : weightOf p * (mid.length + 1) ≤ weightOf p * ((mid ++ after).length + 2) :=
      Nat.mul_le_mul_left _ (by rw [length_append]; omega)
    rw [stepsFor, Nat.add_mul]
    omega

end AddonAudit.Pattern
