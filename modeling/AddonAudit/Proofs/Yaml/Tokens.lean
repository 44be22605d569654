/-
  AddonAudit.Proofs.Yaml.Tokens — the tokens of a rewritten text.

  Every part of the reader of tokens goes in step over a text and a rewritten one: what it decides
  on are classes of characters that letters do not change, and names, tags and directives are read
  away from rewritten words.
-/
import AddonAudit.Proofs.Yaml.Rewrite

namespace AddonAudit.Yaml

open List

variable {α β : Type} {ws : Words} {φ : Spot → List Char → Prop} {r r' : List Char} {x : Char}
    {mark : String}

variable (ws φ) in
/-- A reading that gives the same in both texts, and leads anywhere. -/
abbrev Reads (f : Lexing α) : Prop := Along (Ahead ws φ) Eq (Near ws) f f

/-! ## §1. Line ends and marks. -/

theorem spaces_reads : Reads ws φ spaces := (takeRun_apart (.beq (x := ' ') rfl)).discard

theorem spaces_loose : Keeps (Loose ws) spaces := (takeRun_loose (p := (· == ' ')) rfl).discard

theorem lineBreak_reads : Reads ws φ lineBreak := by
  unfold lineBreak
  refine .peek fun c c' hc => .peekAt fun d d' hd => ?_
  refine .ite (by rw [hc.beq rfl, hd.beq rfl]) (fun h => ?_) fun _ =>
    .ite (by rw [hc.beq rfl, hc.beq rfl, hc.beq rfl]) (fun h => ?_) fun _ =>
    .ite (by rw [hc.beq rfl, hc.beq rfl]) (fun h => ?_) fun _ => .done rfl
  · simp only [Bool.and_eq_true, beq_iff_eq] at h
    exact (skip_past fun _ _ hahead => by rw [hahead.2, h.2]; rfl).next fun _ => .pure rfl
  · have hletter : isLetter c = false := by
      simp only [Bool.or_eq_true, beq_iff_eq] at h
      rcases h with (rfl | rfl) | rfl <;> rfl
    exact (skip_past fun _ _ hahead => by rw [hahead.1.2]; exact hletter).next fun _ => .pure rfl
  · -- the one line end that is kept as it is written is the same in both texts
    have hletter : isLetter c = false := by
      simp only [Bool.or_eq_true, beq_iff_eq] at h
      rcases h with rfl | rfl <;> rfl
    rw [hc.eq_of_isLetter hletter]
    exact (skip_past fun _ _ hahead => by rw [hahead.1.2]; exact hletter).next fun _ => .pure rfl

/-- The marks between documents. -/
def IsMark (mark : String) : Prop := mark = "---" ∨ mark = "..."

theorem IsMark.head (hmark : IsMark mark) :
    ∃ m ms, mark.toList = m :: ms ∧ (m = '-' ∨ m = '.') ∧ ':' ∉ mark.toList ∧
    mark.toList.length = 3 := by
  rcases hmark with rfl | rfl
  · exact ⟨'-', ['-', '-'], by decide, .inl rfl, by decide, by decide⟩
  · exact ⟨'.', ['.', '.'], by decide, .inr rfl, by decide, by decide⟩

/-- No word starts with a mark: where one is, both texts are the same, and readers come to be away
    from words. -/
theorem Rewritten.at_mark (hmark : IsMark mark) {spot : Spot} (h : Rewritten ws spot r r')
    (hat : mark.toList <+: r ∨ mark.toList <+: r') :
    r'.take 3 = r.take 3 ∧ Rewritten ws .loose (r.drop 3) (r'.drop 3) := by
  obtain ⟨m, ms, htext, hm, hcolon, hlength⟩ := hmark.head
  have hloose : Rewritten ws .loose r r' := by
    rw [htext] at hat
    cases h with
    | nil => exact .nil
    | cons c hr => exact .cons c hr
    | colon hr => exact .colon hr
    | space hr => rcases hm with rfl | rfl <;> simp at hat
    | word hr =>
      obtain ⟨c, cs, hold, hc⟩ := ws.old_head
      obtain ⟨c', cs', hnew, hc'⟩ := ws.new_head
      have apart {d : Char} (hd : isLetter d = true) (hpoint : d ≠ '.') : m ≠ d := by
        rintro rfl
        rcases hm with rfl | rfl
        · cases hd
        · exact hpoint rfl
      simp only [hold, hnew, cons_append, cons_prefix_cons,
        apart (ws.old_letters c (by simp [hold])) hc,
        apart (ws.new_letters c' (by simp [hnew])) hc', false_and, or_self] at hat
  rcases hloose.take_loose 3 with hsame | ⟨hmem, hmem'⟩
  · exact hsame
  · rw [prefix_iff_eq_take, prefix_iff_eq_take, hlength] at hat
    rcases hat with hat | hat
    · exact absurd (hat ▸ hmem) hcolon
    · exact absurd (hat ▸ hmem') hcolon

theorem Ahead.atMark {s s' : Lexer} (h : Ahead ws φ s s') (hmark : IsMark mark) :
    s'.atMark mark = s.atMark mark := by
  obtain ⟨-, -, -, -, -, hlength⟩ := hmark.head
  cases h with
  | @intro _ _ r' _ _ hr _ =>
    have hmarks : mark.toList.isPrefixOf r' = mark.toList.isPrefixOf s.rest := by
      rw [Bool.eq_iff_iff, isPrefixOf_iff_prefix, isPrefixOf_iff_prefix]
      constructor
      · intro hat
        rwa [prefix_iff_eq_take, hlength, ← (hr.at_mark hmark (.inr hat)).1, ← hlength,
          ← prefix_iff_eq_take]
      · intro hat
        rwa [prefix_iff_eq_take, hlength, (hr.at_mark hmark (.inl hat)).1, ← hlength,
          ← prefix_iff_eq_take]
    have hblank := (similar_charAt hr.reworded.similar 3).steady steady_isBlankOrEnd
    unfold Lexer.atMark
    rw [hmarks]
    exact congrArg _ hblank

/-- Past a mark, readers are away from words. -/
theorem skip_mark (hmark : IsMark mark) :
    Along (Ahead ws fun _ r => mark.toList <+: r) Eq (Loose ws) (skip 3) (skip 3) :=
  skip_along fun _ _ _ hat hr => ⟨.loose, rfl, (hr.at_mark hmark (.inl hat)).2⟩

theorem atAnyMark_reads : Reads ws φ atAnyMark := by
  refine .get fun s r' ts' h => ?_
  rw [h.atMark (.inl rfl), h.atMark (.inr rfl)]
  exact .done rfl

/-! ## §2. Keys and indentation. -/

theorem emit_along {t t' : Token} (ht : t.Reworded ws t') :
    Along (Ahead ws φ) Eq (Ahead ws φ) (emit t) (emit t') := by
  intro s s' h
  cases h with
  | intro hspot hr hts => exact .ok rfl (.intro hspot hr (.cons ht hts))

theorem emit_reads (t : Token) : Reads ws φ (emit t) := (emit_along (.same t)).near

/-- Whether a function changes neither the text ahead nor the tokens, nor depends on them. -/
def Apart (f : Lexer → Lexer) : Prop :=
  ∀ (s : Lexer) r ts, f { s with rest := r, tokens := ts } = { f s with rest := r, tokens := ts }

variable {f : Lexer → Lexer} {S : Lexer → Lexer → Prop}

theorem Ahead.update (hf : Apart f) {s s' : Lexer} (h : Ahead ws φ s s') :
    Ahead ws φ (f s) (f s') := by
  cases h with
  | @intro _ _ r' ts' hspot hr ht =>
    have hkept : f s = { f s with rest := s.rest, tokens := s.tokens } := hf s s.rest s.tokens
    have hrest : (f s).rest = s.rest := by rw [hkept]
    have htokens : (f s).tokens = s.tokens := by rw [hkept]
    rw [← hrest] at hspot hr
    rw [← htokens] at ht
    rw [hf s r' ts']
    exact .intro hspot hr ht

theorem modify_along (hf : Apart f) : Keeps (Ahead ws φ) (modify f) :=
  fun _ _ h => .ok rfl (h.update hf)

theorem allowKey_along (b : Bool) : Keeps (Ahead ws φ) (allowKey b) := modify_along fun _ _ _ => rfl

/-- A change of the state that is made under a condition. -/
theorem revise_along {b : Lexer → Bool} (hf : Apart f) : Keeps (Ahead ws φ) (do
    let s ← get
    require (b s)
    set (f s) : Lexing Unit) :=
  .get fun _ _ _ h => .require fun _ _ _ _ _ => .ok rfl (h.update hf)

theorem dropStaleKeys_along : Keeps (Ahead ws φ) dropStaleKeys := revise_along fun _ _ _ => rfl

theorem dropKey_along : Keeps (Ahead ws φ) dropKey := revise_along fun _ _ _ => rfl

theorem saveKey_along : Keeps (Ahead ws φ) saveKey :=
  .get fun _ _ _ _ => .same (dropKey_along.next fun _ => modify_along fun _ _ _ => rfl) (.pure rfl)

theorem closeBlocks_along (column : Int) (fuel : Nat) :
    Keeps (Ahead ws φ) (closeBlocks column fuel) := by
  induction fuel with
  | zero => exact .pure rfl
  | succ fuel ih =>
    refine .get fun s r' ts' h => .same (.set ?_ ((emit_along (.same _)).next fun _ => ih))
      (.pure rfl)
    exact h.update (f := fun s =>
      { s with indent := s.indents.headD (-1), indents := s.indents.drop 1 }) fun _ _ _ => rfl

theorem unwind_along (column : Int) : Keeps (Ahead ws φ) (unwind column) :=
  .get fun _ _ _ _ => .same (closeBlocks_along column _) (.pure rfl)

theorem openBlock_along (column : Nat) : Keeps (Ahead ws φ) (openBlock column) := by
  refine .get fun s r' ts' h => .same (.set ?_ (.pure rfl)) (.pure rfl)
  exact h.update (f := fun s =>
    { s with indent := (column : Int), indents := s.indent :: s.indents }) fun _ _ _ => rfl

theorem steady_notLineEnd : Steady (fun c => !isLineEnd c) true := steady_isLineEnd.not

/-- A comment is passed in step, if there is one. -/
theorem comment_along {R : α → β → Prop} {g : Unit → Lexing α} {g' : Unit → Lexing β}
    (hg : Along (Near ws) R S (g ()) (g' ())) : Along (Near ws) R S
      (do if (← peek) == '#' then
            let x ← discard (takeRun fun c => !isLineEnd c)
            g x
          else g ())
      (do if (← peek) == '#' then
            let x ← discard (takeRun fun c => !isLineEnd c)
            g' x
          else g' ()) :=
  .ifSees (.beq rfl) ((takeRun_over steady_notLineEnd).discard.next fun _ => hg) hg

theorem skipToToken_reads (fuel : Nat) : Reads ws φ (skipToToken fuel) := by
  induction fuel generalizing φ with
  | zero => exact .done rfl
  | succ fuel ih =>
    refine spaces_reads.next fun _ => comment_along (lineBreak_reads.next
      fun br => .same ?_ (.pure rfl))
    exact .get fun _ _ _ _ => .same ((allowKey_along true).next fun _ => ih) ih

/-! ## §3. Directives, anchors and tags. -/

theorem number_along : Keeps (Loose ws) number :=
  (takeRun_loose (by decide)).next fun _ => .require fun _ _ => .pure rfl

/-- Hexadecimal digits after a sign are the same away from words, and none of them is a colon. -/
theorem hexAfter {c : Char} {n : Nat} {s s' : Lexer} {y y' : Nat × List Char} (hc : c ≠ ':')
    (h : Ahead ws (fun spot r => spot = .loose ∧ charAt r 0 = c) s s')
    (hhex : Decimal.takeHex? n (s.rest.drop 1) = some y)
    (hhex' : Decimal.takeHex? n (s'.rest.drop 1) = some y') :
    y'.1 = y.1 ∧ ':' ∉ s.rest.take (n + 1) := by
  cases h with
  | @intro _ _ r' _ hspot hr _ =>
    obtain ⟨rfl, rfl⟩ := hspot
    unfold Decimal.takeHex? at hhex hhex'
    dsimp only at hhex hhex'
    split at hhex
    · rename_i hdigits
      split at hhex'
      · cases hhex
        cases hhex'
        -- hexadecimal digits are no colons, so that the texts agree up to their end
        have hcolon : ':' ∉ s.rest.take (n + 1) := by
          rw [Nat.add_comm, take_add, mem_append]
          rintro (hmem | hmem)
          · exact colon_not_mem_take_one hc hmem
          · have hall := all_eq_true.mp (Bool.and_eq_true _ _ ▸ hdigits).2 _ hmem
            revert hall
            decide
        refine ⟨?_, hcolon⟩
        rcases hr.take_loose (n + 1) with ⟨htake, -⟩ | ⟨hmem, -⟩
        · have hdrop := congrArg (drop 1) htake
          rw [drop_take, drop_take] at hdrop
          exact congrArg (Decimal.digitsValue 16) hdrop
        · exact absurd hmem hcolon
      · cases hhex'
    · cases hhex

theorem addressEscapes_along (fuel : Nat) : Keeps (Loose ws) (addressEscapes fuel) := by
  induction fuel with
  | zero => exact .pure rfl
  | succ fuel ih =>
    refine .peekLoose fun c => .ite .rfl (fun _ => ?_) fun hc => ?_
    · exact .left (.pure rfl)
    have hsign : c ≠ ':' := by
      rintro rfl
      exact hc (by decide)
    refine .getRest fun s r' ts' h => ?_
    cases hhex : Decimal.takeHex? 2 (s.rest.drop 1) with
    | none => exact .throw _
    | some y =>
      cases hhex' : Decimal.takeHex? 2 (r'.drop 1) with
      | none => exact .throwRight _
      | some y' =>
        obtain ⟨hcode, hcolon⟩ := hexAfter hsign h hhex hhex'
        dsimp only
        rw [hcode]
        refine (skip_loose ?_).next fun _ => ih.next fun _ => .pure rfl
        rintro spot _ ⟨⟨hspot, -⟩, rfl⟩
        exact ⟨hspot, hcolon⟩

theorem steady_isAddressChar : Steady isAddressChar true := by
  intro c hc
  rcases Bool.or_eq_true _ _ ▸ hc with hc | hc
  · rw [isAddressChar, hc, Bool.true_or]
  · rw [eq_of_beq hc]
    decide

theorem addressParts_along (fuel : Nat) :
    Along (Loose ws) Eq (Near ws) (addressParts fuel) (addressParts fuel) := by
  induction fuel with
  | zero => exact .done rfl
  | succ fuel ih =>
    refine (takeRun_to_space steady_isAddressChar (by decide)).next
      fun run => .ifSees (.beq rfl) ?_ (.pure rfl)
    refine .ofSign (by decide) (.get fun s r' ts' h => ?_)
    rw [h.length]
    refine (addressEscapes_along _).left.next fun bytes => ?_
    cases Text.decodeUtf8 bytes with
    | error u => exact .throw _
    | ok cs => exact ih.next fun more => .pure rfl

theorem address_along : Along (Loose ws) Eq (Near ws) address address := by
  refine .get fun s r' ts' h => ?_
  rw [h.length]
  exact (addressParts_along _).next fun cs => .require fun _ _ => .pure rfl

theorem tagHandle_along : Keeps (Loose ws) tagHandle := by
  refine .requireSees ((skip_sign (by decide)).next fun _ => ?_)
  refine .ifSees (.beq rfl) (.left (.pure rfl)) ((takeRun_loose (by decide)).next fun name => ?_)
  exact .ifSees (.beq rfl) ((skip_sign (by decide)).next fun _ => .pure rfl) (.throw _)

theorem restOfLine_reads : Reads ws φ restOfLine :=
  spaces_reads.next fun _ => comment_along (.requireSees lineBreak_reads.discard)

theorem directive_reads : Reads ws (Sees φ (· == '%')) directive := by
  refine (skip_sign (by decide)).next fun _ => (takeRun_loose (by decide)).next
    fun name => .requireSees (.left ?_)
  generalize String.ofList name = word
  split
  · refine spaces_loose.next fun _ => number_along.next fun major => .requireSees ?_
    refine (skip_loose ?_).next fun _ => number_along.next fun minor => .requireSees ?_
    · rintro spot r ⟨rfl, hpoint⟩
      exact ⟨rfl, colon_not_mem_take_one (by rw [eq_of_beq hpoint]; decide)⟩
    · exact (emit_reads _).next fun _ => restOfLine_reads
  · refine spaces_loose.next fun _ => tagHandle_along.next fun handle => .requireSees (.left ?_)
    refine spaces_loose.next fun _ => address_along.next fun target => .requireSees ?_
    exact (emit_reads _).next fun _ => restOfLine_reads
  · refine (takeRun_over steady_notLineEnd).discard.next fun _ => ?_
    exact (emit_reads _).next fun _ => restOfLine_reads

theorem anchorName_along (hx : IsSign x) :
    Along (Ahead ws (Sees φ (· == x))) Eq (Near ws) anchorName anchorName :=
  (skip_sign hx).next fun _ => (takeRun_loose (by decide)).next fun name =>
    .require fun _ _ => .requireSees (.done rfl)

theorem tag_reads : Reads ws (Sees φ (· == '!')) tag := by
  unfold tag
  simp only [pure_bind]
  refine .ofSign (by decide) (.peekAt fun c c' hc => ?_)
  refine .ite (by rw [hc.beq rfl]) (fun hangle => ?_) fun _ =>
    .ite (by rw [hc.steady steady_isBlankOrEnd]) (fun _ => ?_) fun _ => ?_
  · refine (skip_loose ?_).next fun _ => address_along.next fun a => .requireSees ?_
    · rintro spot r ⟨⟨rfl, hsign⟩, rfl⟩
      refine ⟨rfl, ?_⟩
      rw [show 2 = 1 + 1 from rfl, take_add, mem_append, not_or]
      refine ⟨colon_not_mem_take_one (by rw [hsign]; decide), colon_not_mem_take_one ?_⟩
      rw [charAt_drop, eq_of_beq hangle]
      decide
    · exact (skip_sign (by decide)).next fun _ => .requireSees (.done rfl)
  · exact (skip_at fun _ _ h => by rw [h.1.2]; decide).next fun _ => .requireSees (.done rfl)
  · -- whether a handle comes is seen before the next gap
    refine .getRest fun s r' ts' h => ?_
    have hword : (r'.drop 1).takeWhile (fun c => !isGap c) = (s.rest.drop 1).takeWhile fun c =>
        !isGap c := by
      cases h with
      | intro hspot hr _ =>
        obtain ⟨⟨rfl, hsign⟩, -⟩ := hspot
        rcases hr.take_loose 1 with ⟨-, hto⟩ | ⟨hmem, -⟩
        · exact hto.run_loose (.inr (by decide))
        · exact absurd hmem (colon_not_mem_take_one (by rw [hsign]; decide))
    dsimp only
    rw [hword]
    refine .same ?_ ?_
    · refine (tagHandle_along.of fun _ _ h => h.1.1.1).next fun handle => ?_
      exact address_along.next fun a => .requireSees (.done rfl)
    · refine (skip_at fun _ _ h => by rw [h.1.1.2]; decide).next fun _ => ?_
      exact address_along.next fun a => .requireSees (.done rfl)

/-! ## §4. Block scalars. -/

theorem chomping_along : Keeps (Loose ws) chomping? := by
  refine .peekLoose fun c => .ite .rfl (fun hc => ?_) fun _ => .ite .rfl (fun hc => ?_)
    fun _ => .left (.pure rfl)
  · exact (skip_at fun _ _ h => by rw [h.2, eq_of_beq hc]; decide).next fun _ => .pure rfl
  · exact (skip_at fun _ _ h => by rw [h.2, eq_of_beq hc]; decide).next fun _ => .pure rfl

theorem increment_along : Keeps (Loose ws) increment? := by
  refine .peekLoose fun c => .ite .rfl (fun hdigit => .require fun _ _ => ?_)
    fun _ => .left (.pure rfl)
  refine (skip_loose ?_).next fun _ => .pure rfl
  rintro spot r ⟨rfl, rfl⟩
  refine ⟨rfl, colon_not_mem_take_one fun hcolon => ?_⟩
  rw [hcolon] at hdigit
  cases hdigit

theorem blockSigns_along : Keeps (Loose ws) blockSigns := by
  refine chomping_along.next fun c => ?_
  cases c with
  | some c => exact increment_along.next fun n => .requireSees (.left (.pure rfl))
  | none =>
    refine increment_along.next fun n => ?_
    cases n with
    | some n => exact chomping_along.next fun c => .requireSees (.left (.pure rfl))
    | none => exact .requireSees (.left (.pure rfl))

theorem blockIndentation_reads (fuel : Nat) (breaks : List Char) (widest : Nat) :
    Reads ws φ (blockIndentation fuel breaks widest) := by
  induction fuel generalizing φ breaks widest with
  | zero => exact .done rfl
  | succ fuel ih =>
    refine .peek fun c c' hc => .ite (by rw [hc.beq rfl]) (fun h => ?_) fun _ =>
      .ite (by rw [hc.steady steady_isBreak]) (fun _ => lineBreak_reads.next fun br => ih _ _)
        fun _ => .done rfl
    refine (skip_past fun _ _ hahead => ?_).next fun _ => .get fun _ _ _ _ => ih _ _
    rw [hahead.2, eq_of_beq h]
    rfl

theorem spacesTo_reads (column : Nat) : Reads ws φ (spacesTo column) := by
  refine .getRest fun s r' ts' h => ?_
  cases h with
  | intro _ hr _ =>
    dsimp only
    rw [takeWhile_similar (.beq rfl) hr.reworded.similar]
    refine skip_along fun spot r r' hspot hr => ?_
    obtain ⟨-, rfl⟩ := hspot
    exact (hr.cut (seam_of_lt_takeWhile (.beq rfl) (Nat.min_le_left _ _))).2.imp fun _ hto =>
      ⟨trivial, hto⟩

theorem blockBreaks_reads (indent fuel : Nat) (breaks : List Char) :
    Reads ws φ (blockBreaks indent fuel breaks) := by
  induction fuel generalizing φ breaks with
  | zero => exact .done rfl
  | succ fuel ih =>
    refine (spacesTo_reads indent).next fun _ => .ifSees steady_isBreak ?_ (.pure rfl)
    exact lineBreak_reads.next fun br => ih _

theorem atBlockLine_reads (indent : Nat) : Reads ws φ (atBlockLine indent) := by
  refine .get fun s r' ts' h => .peek fun c c' hc => ?_
  simp only [bne, hc.beq (x := '\x00') rfl]
  exact .done rfl

variable {before before' : List Char}

theorem blockLines_along (folded : Bool) (indent fuel : Nat) (br breaks : List Char)
    (hbefore : Reworded ws before before') :
    Along (Near ws) (fun x x' => Reworded ws x.1 x'.1 ∧ x.2 = x'.2) (Near ws)
      (blockLines folded indent fuel before br breaks)
      (blockLines folded indent fuel before' br breaks) := by
  induction fuel generalizing before before' br breaks with
  | zero => exact .pure ⟨hbefore, rfl⟩
  | succ fuel ih =>
    refine (atBlockLine_reads indent).next fun b => .same (.pure ⟨hbefore, rfl⟩) (.peek
      fun c c' hc => ?_)
    dsimp only
    rw [hc.beq (x := ' ') rfl, hc.beq (x := '\t') rfl]
    refine (takeRun_over steady_notLineEnd).bind fun line line' hline => lineBreak_reads.next
      fun br => ?_
    refine .get fun s r' ts' h => ?_
    rw [h.length]
    refine (blockBreaks_reads indent _ []).next fun more => ?_
    have htext : Reworded ws (before ++ breaks ++ line) (before' ++ breaks ++ line') :=
      (hbefore.append (.refl breaks)).append hline
    refine (atBlockLine_reads indent).next fun b => .same (.peek fun d d' hd =>
      ?_) (.pure ⟨htext, rfl⟩)
    simp only [hd.beq (x := ' ') rfl, hd.beq (x := '\t') rfl]
    exact .left (ih br more (htext.append (.refl _)))

theorem Token.Reworded.ofList {a a' : List Char} (h : Yaml.Reworded ws a a') (plain : Bool) :
    Token.Reworded ws (.scalar (String.ofList a) plain) (.scalar (String.ofList a') plain) := by
  refine .scalar plain ?_
  rw [String.toList_ofList, String.toList_ofList]
  exact h

theorem blockScalar_reads (folded : Bool) (hx : IsSign x) :
    Reads ws (Sees φ (· == x)) (blockScalar folded) := by
  unfold blockScalar
  simp only [pure_bind]
  refine (skip_sign hx).next fun _ => blockSigns_along.next fun signs => ?_
  refine restOfLine_reads.next fun _ => .get fun s r' ts' _ => .get fun s r' ts' h => ?_
  rw [h.length]
  obtain ⟨chomping, _ | n⟩ := signs
  · refine (blockIndentation_reads _ [] 0).next fun x => ?_
    refine (blockLines_along folded _ _ [] x.1 .nil).bind ?_
    rintro ⟨body, rest⟩ ⟨body', _⟩ ⟨hbody, hrest⟩
    cases hrest
    exact (emit_along (.ofList (hbody.append (.refl _)) false)).near
  · refine (blockBreaks_reads _ _ []).next fun breaks => ?_
    refine (blockLines_along folded _ _ [] breaks .nil).bind ?_
    rintro ⟨body, rest⟩ ⟨body', _⟩ ⟨hbody, hrest⟩
    cases hrest
    exact (emit_along (.ofList (hbody.append (.refl _)) false)).near

/-! ## §5. Quoted scalars. -/

theorem steady_blank : Steady (fun c => c == ' ' || c == '\t') false :=
  (Steady.beq (x := ' ') rfl).or (.beq (x := '\t') rfl)

theorem steady_isOrdinary : Steady isOrdinary true :=
  ((steady_isBlankOrEnd.not.and (Steady.beq (x := '\x27') rfl).not).and
    (Steady.beq (x := '"') rfl).not).and (Steady.beq (x := '\\') rfl).not

theorem quotedBreaks_reads (fuel : Nat) (breaks : List Char) :
    Reads ws φ (quotedBreaks fuel breaks) := by
  induction fuel generalizing φ breaks with
  | zero => exact .done rfl
  | succ fuel ih =>
    refine atAnyMark_reads.next fun b => .require fun _ _ =>
      (takeRun_apart steady_blank).discard.next fun _ => ?_
    exact .ifSees steady_isBreak (lineBreak_reads.next fun br => ih _) (.pure rfl)

theorem charOfCode_along (code : Nat) : Keeps (Ahead ws φ) (charOfCode code) := by
  unfold charOfCode
  exact .same (.throw _) (.pure rfl)

/-- An escape is read away from words, for no word follows its sign. -/
theorem escape_along : Along (Loose ws) Eq (Near ws) escape escape := by
  refine .peekLoose fun c => ?_
  -- neither a letter nor a digit of an escape is a colon
  have hskip (hcolon : c ≠ ':') : Along (Ahead ws fun spot r => spot = .loose ∧
    charAt r 0 = c) Eq (Near ws)
      (skip 1) (skip 1) := by
    refine (skip_loose ?_).near
    rintro spot r ⟨rfl, rfl⟩
    exact ⟨rfl, colon_not_mem_take_one hcolon⟩
  cases hletter : escapeLetter? c with
  | some e =>
    have hcolon : c ≠ ':' := by
      rintro rfl
      cases hletter
    exact (hskip hcolon).next fun _ => .pure rfl
  | none =>
    cases hdigits : escapeDigits? c with
    | some n =>
      have hcolon : c ≠ ':' := by
        rintro rfl
        cases hdigits
      refine .getRest fun s r' ts' h => ?_
      cases hhex : Decimal.takeHex? n (s.rest.drop 1) with
      | none => exact .throw _
      | some y =>
        cases hhex' : Decimal.takeHex? n (r'.drop 1) with
        | none => exact .throwRight _
        | some y' =>
          obtain ⟨hcode, hnone⟩ := hexAfter hcolon h hhex hhex'
          dsimp only
          rw [hcode]
          refine (charOfCode_along _).next fun c => (skip_loose ?_).next fun _ => .done rfl
          rintro spot _ ⟨⟨hspot, -⟩, rfl⟩
          exact ⟨hspot, hnone⟩
    | none =>
      refine .require fun _ _ => lineBreak_reads.discard.next fun _ => .get fun s r' ts' h => ?_
      rw [h.length]
      exact quotedBreaks_reads _ []

theorem quotedWord_along (double : Bool) (fuel : Nat) (hbefore : Reworded ws before before') :
    Along (Near ws) (Reworded ws) (Near ws) (quotedWord double fuel before)
    (quotedWord double fuel before') := by
  induction fuel generalizing before before' with
  | zero => exact .pure hbefore
  | succ fuel ih =>
    refine (takeRun_over steady_isOrdinary).bind fun run run' hrun => .peek fun c c' hc => .peekAt
      fun d d' hd => ?_
    have htext : Reworded ws (before ++ run) (before' ++ run') := hbefore.append hrun
    have hquote := hc.beq (x := '\x27') rfl
    have hdouble := hc.beq (x := '"') rfl
    have hslash := hc.beq (x := '\\') rfl
    refine .ite (by rw [hquote, hd.beq rfl]) (fun h => ?_) fun _ =>
      .ite (by rw [hquote, hdouble, hslash]) (fun h => ?_) fun _ =>
      .ite (by rw [hslash]) (fun h => ?_) fun _ => .done htext
    · rw [Bool.and_eq_true] at h
      refine (skip_past fun _ _ hahead => ?_).next fun _ => ih (htext.append (.refl _))
      rw [hahead.2, eq_of_beq h.2]
      rfl
    · have hsign : isLetter c = false := by
        simp only [Bool.or_eq_true, Bool.and_eq_true, beq_iff_eq] at h
        rcases h with ⟨-, rfl⟩ | ⟨-, rfl | rfl⟩ <;> rfl
      rw [hc.eq_of_isLetter hsign]
      refine (skip_past fun _ _ hahead => ?_).next fun _ => ih (htext.append (.refl _))
      rw [hahead.1.2, hsign]
    · rw [Bool.and_eq_true] at h
      refine (skip_at fun _ _ hahead => by rw [hahead.1.2, eq_of_beq h.2]; decide).next fun _ => ?_
      exact escape_along.next fun e => ih (htext.append (.refl e))

theorem quotedGap_reads : Reads ws φ quotedGap := by
  refine (takeRun_apart steady_blank).next fun blanks => .peek fun c c' hc => .require fun _ _ => ?_
  refine .ite (by rw [hc.steady steady_isBreak]) (fun _ => ?_) fun _ => .done rfl
  refine lineBreak_reads.next fun br => .get fun s r' ts' h => ?_
  rw [h.length]
  exact (quotedBreaks_reads _ []).next fun breaks => .pure rfl

/-- A quoted text is read in step up to its closing quote. -/
theorem quotedText_along (double : Bool) (fuel : Nat) (hbefore : Reworded ws before before') :
    Along (Near ws) (Reworded ws)
    (Ahead ws (Sees (fun _ _ => True) (· == if double then '"' else '\x27')))
      (quotedText double fuel before) (quotedText double fuel before') := by
  induction fuel generalizing before before' with
  | zero => exact .throw _
  | succ fuel ih =>
    refine .ifSees (.beq (by cases double <;> rfl)) (.pure hbefore) (quotedGap_reads.next fun gap =>
      ?_)
    refine .get fun s r' ts' h => ?_
    rw [h.length]
    refine (quotedWord_along double _ .nil).bind fun word word' hword => ?_
    exact ih ((hbefore.append (.refl gap)).append hword)

theorem quotedScalar_reads (double : Bool) (hx : IsSign x) :
    Reads ws (Sees φ (· == x)) (quotedScalar double) := by
  refine (skip_sign hx).near.next fun _ => .get fun s r' ts' h => ?_
  rw [h.length]
  refine (quotedWord_along double _ .nil).bind fun first first' hfirst => ?_
  refine (quotedText_along double _ hfirst).bind fun text text' htext => ?_
  refine (skip_sign (by cases double <;> decide)).next fun _ => ?_
  exact (emit_along (.ofList htext false)).near

/-! ## §6. Plain scalars. -/

theorem steady_isFlowSign : Steady isFlowSign false := steady_contains (by decide)

/-- The length of plain text is the same in both texts. -/
theorem plainLength_similar (flow : Bool) (h : Forall₂ Similar r r') :
    plainLength flow r' = plainLength flow r := by
  induction h with
  | nil => rfl
  | @cons c c' r r' hc hr ih =>
    have hnext : Similar (r.headD '\x00') (r'.headD '\x00') := by
      cases hr with
      | nil => exact .inl rfl
      | cons hd _ => exact hd
    unfold plainLength
    simp only [ih, hc.steady steady_isBlankOrEnd, hc.beq (x := ':') rfl,
      hc.steady steady_isFlowSign, hc.beq (x := '?') rfl, hnext.steady steady_isBlankOrEnd,
      hnext.steady steady_isFlowSign]

/-- Plain text does not end inside a word. -/
theorem seam_plainLength (flow : Bool) (r : List Char) : Seam r (plainLength flow r) := by
  refine .inr (.inr ?_)
  induction r with
  | nil => rfl
  | cons c r ih =>
    unfold plainLength
    dsimp only
    split
    · rename_i hstop
      rw [Bool.eq_false_iff]
      intro hletter
      replace hletter : isLetter c := hletter
      simp [steady_isBlankOrEnd c hletter, beq_of_isLetter hletter (x := ':') rfl,
        steady_isFlowSign c hletter, beq_of_isLetter hletter (x := '?') rfl] at hstop
    · exact ih

theorem plainBreaks_reads (fuel : Nat) (breaks : List Char) :
    Reads ws φ (plainBreaks fuel breaks) := by
  induction fuel generalizing φ breaks with
  | zero => exact .done rfl
  | succ fuel ih =>
    refine .peek fun c c' hc => .ite (by rw [hc.beq rfl]) (fun h => ?_) fun _ =>
      .ite (by rw [hc.steady steady_isBreak]) (fun _ => ?_) fun _ => .done rfl
    · refine (skip_past fun _ _ hahead => ?_).next fun _ => ih breaks
      rw [hahead.2, eq_of_beq h]
      rfl
    · exact lineBreak_reads.next fun br => atAnyMark_reads.next fun b => .same (.pure rfl) (ih _)

theorem plainGap_reads : Reads ws φ plainGap := by
  refine (takeRun_apart (.beq rfl)).next fun blanks => .ifSees steady_isBreak ?_ (.pure rfl)
  refine lineBreak_reads.next fun br => (allowKey_along true).next fun _ => atAnyMark_reads.next
    fun b => ?_
  refine .same (.pure rfl) (.get fun s r' ts' h => ?_)
  rw [h.length]
  refine (plainBreaks_reads _ []).next fun breaks => ?_
  cases breaks with
  | none => exact .pure rfl
  | some breaks => exact .pure rfl

theorem plainText_along (indent : Int) (fuel : Nat) (gap : List Char)
    (hbefore : Reworded ws before before') :
    Along (Near ws) (Reworded ws) (Near ws) (plainText indent fuel before gap)
      (plainText indent fuel before' gap) := by
  induction fuel generalizing before before' gap with
  | zero => exact .pure hbefore
  | succ fuel ih =>
    refine .getRest fun s r' ts' h => ?_
    refine .ite (by rw [(h.similar 0).beq rfl]) (fun _ => .left (.pure hbefore)) fun _ => ?_
    cases h with
    | intro _ hr _ =>
      dsimp only
      rw [plainLength_similar _ hr.reworded.similar]
      refine .same (.left (.pure hbefore)) ((allowKey_along false).next fun _ => ?_)
      obtain ⟨hword, -⟩ := hr.cut (seam_plainLength (s.flow != 0) s.rest)
      have htext := (hbefore.append (.refl gap)).append hword
      refine (skip_along (ψ := fun _ _ => True) ?_).next fun _ => plainGap_reads.next fun more => ?_
      · rintro spot _ r' ⟨-, rfl⟩ hr
        exact (hr.cut (seam_plainLength _ _)).2.imp fun _ hto => ⟨trivial, hto⟩
      · refine .get fun s r' ts' h => .ite ?_ (fun _ => .pure htext) fun _ => ih more htext
        rw [(h.similar 0).beq rfl]

theorem plainScalar_reads : Reads ws φ plainScalar := by
  refine .get fun s r' ts' h => ?_
  rw [h.length]
  exact ((plainText_along _ _ [] .nil).of fun _ _ _ => trivial).bind fun text text' htext =>
    emit_along (.ofList htext true)

/-! ## §7. One token after another. -/

theorem streamEnd_reads : Reads ws φ streamEnd :=
  (unwind_along (-1)).next fun _ => dropKey_along.next fun _ => (emit_along (.same _)).next fun _ =>
    (modify_along fun _ _ _ => rfl).near

theorem documentMark_reads (t : Token) (hmark : IsMark mark) :
    Reads ws (fun _ r => mark.toList <+: r) (documentMark t) :=
  (unwind_along (-1)).next fun _ => dropKey_along.next fun _ => (allowKey_along false).next fun _ =>
    (skip_mark hmark).next fun _ => emit_reads t

/-- A sign of its own: it is passed, and a token is added. -/
theorem sign_reads (t : Token) (hx : isLetter x = false) :
    Reads ws (Sees φ (· == x)) (skip 1 >>= fun _ => emit t) :=
  (skip_past fun _ _ h => by rwa [eq_of_beq h.2]).next fun _ => emit_reads t

theorem openFlow_reads (t : Token) (hx : isLetter x = false) :
    Reads ws (Sees φ (· == x)) (openFlow t) :=
  saveKey_along.next fun _ => (modify_along fun _ _ _ => rfl).next fun _ => sign_reads t hx

theorem closeFlow_reads (t : Token) (hx : isLetter x = false) :
    Reads ws (Sees φ (· == x)) (closeFlow t) :=
  dropKey_along.next fun _ => .get fun _ _ _ _ => .require fun _ _ =>
    (modify_along fun _ _ _ => rfl).next fun _ => sign_reads t hx

/-- A sign in a block may open one; either way what follows is read in step. -/
theorem blockStart_along (inBlock allowed : Bool) (column : Nat) (t : Token)
    {g : Unit → Lexing Unit} (hg : Along (Ahead ws φ) Eq S (g ()) (g ())) :
    Along (Ahead ws φ) Eq S
      (if inBlock then do
        require allowed
        if ← openBlock column then
          let x ← emit t
          g x
        else g ()
      else g ())
      (if inBlock then do
        require allowed
        if ← openBlock column then
          let x ← emit t
          g x
        else g ()
      else g ()) :=
  .same (.require fun _ _ => (openBlock_along column).next fun _ =>
    .same ((emit_along (.same t)).next fun _ => hg) hg) hg

theorem blockEntry_reads : Reads ws (Sees φ (· == '-')) blockEntry :=
  .get fun _ _ _ _ => blockStart_along _ _ _ .sequenceStart <| (allowKey_along true).next fun _ =>
    dropKey_along.next fun _ => sign_reads .entry rfl

theorem explicitKey_reads : Reads ws (Sees φ (· == '?')) explicitKey :=
  .get fun _ _ _ _ => blockStart_along _ _ _ .mappingStart <| (allowKey_along _).next fun _ =>
    dropKey_along.next fun _ => sign_reads .key rfl

theorem valueSign_reads : Reads ws (Sees φ (· == ':')) valueSign := by
  refine .get fun s r' ts' h => ?_
  dsimp only
  cases s.pending.lookup s.flow with
  | some k =>
    -- the key before the sign is announced in the same place
    have hfound (opens : Bool) : Reads ws (Sees φ (· == ':')) (do
        modify fun s => { s with found := ⟨k.token, opens⟩ :: s.found, keyAllowed := false }
        skip 1
        emit .value) := (modify_along fun _ _ _ => rfl).next fun _ => sign_reads .value rfl
    refine .set (h.update (f := fun s => { s with pending := s.pending.filter (·.1 != s.flow) })
      fun _ _ _ => rfl) ?_
    exact .same ((openBlock_along k.column).next hfound) (hfound false)
  | none =>
    exact blockStart_along _ _ _ .mappingStart <| (allowKey_along _).next fun _ =>
      dropKey_along.next fun _ => sign_reads .value rfl

theorem keyLike_reads {read : Lexing Unit} (h : Reads ws φ read) : Reads ws φ (keyLike read) :=
  saveKey_along.next fun _ => (allowKey_along false).next fun _ => h

/-- The mark of the byte order is passed in step, if the text starts with it. -/
theorem orderMark_along {g : Unit → Lexing Unit} (hg : Along (Near ws) Eq S (g ()) (g ())) :
    Along (Ahead ws φ) Eq S
      (do if (← get).index == 0 && (← peek) == '\ufeff' then
            let x ← skip 1
            g x
          else g ())
      (do if (← get).index == 0 && (← peek) == '\ufeff' then
            let x ← skip 1
            g x
          else g ()) := by
  refine .get fun s r' ts' _ => .peek fun c c' hc => .ite (by rw [hc.beq (by decide)]) (fun h => ?_)
    fun _ =>
    hg.of fun _ _ _ => trivial
  rw [Bool.and_eq_true] at h
  exact (skip_past fun _ _ hahead => by rw [hahead.2, eq_of_beq h.2]; decide).next fun _ => hg

/-- **The next token is read in step.** -/
theorem nextToken_reads : Reads ws φ nextToken := by
  refine orderMark_along (.get fun s r' ts' h => ?_)
  rw [h.length]
  refine (skipToToken_reads _).next fun _ => dropStaleKeys_along.next fun _ => .get
    fun s r' ts' _ => ?_
  refine (unwind_along _).next fun _ => .getRest fun s r' ts' h => ?_
  have hsees {x : Char} (hx : isLetter x = false) := (h.similar 0).beq hx
  have hlone := (h.similar 1).steady steady_isBlankOrEnd
  have known {x : Char} {f : Lexing Unit} (hc : (s.peekAt 0 == x))
      (hf : Reads ws (Sees (fun _ _ => True) (· == x)) f) :
      Reads ws (fun _ r => True ∧ r = s.rest) f := by
    refine hf.of ?_
    rintro _ _ ⟨-, rfl⟩
    exact ⟨trivial, hc⟩
  have marked {mark : String} (t : Token) (hmark : IsMark mark) (hc : (s.column == 0 &&
    s.atMark mark)) :
      Reads ws (fun _ r => True ∧ r = s.rest) (documentMark t) := by
    refine (documentMark_reads t hmark).of ?_
    rintro _ _ ⟨-, rfl⟩
    simp only [Bool.and_eq_true, Lexer.atMark, isPrefixOf_iff_prefix] at hc
    exact hc.2.1
  -- one case for each sign that a token can start with, in the order in which they are tried
  dsimp only
  refine .ite (by rw [hsees rfl]) (fun _ => streamEnd_reads) fun _ => ?_
  refine .ite (by rw [hsees rfl]) (fun hc => known (Bool.and_eq_true _ _ ▸ hc).1 ?_) fun _ => ?_
  · exact (unwind_along (-1)).next fun _ => dropKey_along.next fun _ =>
      (allowKey_along false).next fun _ => directive_reads
  refine .ite (by rw [h.atMark (.inl rfl)]) (marked _ (.inl rfl)) fun _ => ?_
  refine .ite (by rw [h.atMark (.inr rfl)]) (marked _ (.inr rfl)) fun _ => ?_
  refine .ite (by rw [hsees rfl]) (fun hc => known hc (openFlow_reads _ rfl)) fun _ => ?_
  refine .ite (by rw [hsees rfl]) (fun hc => known hc (openFlow_reads _ rfl)) fun _ => ?_
  refine .ite (by rw [hsees rfl]) (fun hc => known hc (closeFlow_reads _ rfl)) fun _ => ?_
  refine .ite (by rw [hsees rfl]) (fun hc => known hc (closeFlow_reads _ rfl)) fun _ => ?_
  refine .ite (by rw [hsees rfl]) (fun hc => known hc ?_) fun _ => ?_
  · exact (allowKey_along true).next fun _ => dropKey_along.next fun _ => sign_reads _ rfl
  refine .ite (by rw [hsees rfl, hlone]) (fun hc =>
    known (Bool.and_eq_true _ _ ▸ hc).1 blockEntry_reads) fun _ => ?_
  refine .ite (by rw [hsees rfl, hlone]) (fun hc =>
    known (Bool.and_eq_true _ _ ▸ hc).1 explicitKey_reads) fun _ => ?_
  refine .ite (by rw [hsees rfl, hlone]) (fun hc =>
    known (Bool.and_eq_true _ _ ▸ hc).1 valueSign_reads) fun _ => ?_
  refine .ite (by rw [hsees rfl]) (fun hc => known hc (keyLike_reads ?_)) fun _ => ?_
  · exact (anchorName_along (by decide)).next fun _ => emit_reads _
  refine .ite (by rw [hsees rfl]) (fun hc => known hc (keyLike_reads ?_)) fun _ => ?_
  · exact (anchorName_along (by decide)).next fun _ => emit_reads _
  refine .ite (by rw [hsees rfl]) (fun hc => known hc (keyLike_reads ?_)) fun _ => ?_
  · exact tag_reads.next fun _ => emit_reads _
  refine .ite (by rw [hsees rfl, hsees rfl]) (fun hc => ?_) fun _ => ?_
  · rw [hsees (x := '>') rfl]
    have hblock {x : Char} (hx : IsSign x) (folded : Bool) :
      Reads ws (Sees (fun _ _ => True) (· == x))
        (do allowKey true; dropKey; blockScalar folded) :=
      (allowKey_along true).next fun _ => dropKey_along.next fun _ => blockScalar_reads _ hx
    rw [Bool.and_eq_true, Bool.or_eq_true] at hc
    rcases hc.1 with hsign | hsign
    · exact known hsign (hblock (by decide) _)
    · exact known hsign (hblock (by decide) _)
  refine .ite (by rw [hsees rfl]) (fun hc => known hc
    (keyLike_reads (quotedScalar_reads _ (by decide)))) fun _ => ?_
  refine .ite (by rw [hsees rfl]) (fun hc => known hc
    (keyLike_reads (quotedScalar_reads _ (by decide)))) fun _ => ?_
  exact .require fun _ _ => keyLike_reads plainScalar_reads

/-- **All tokens are read in step.** -/
theorem allTokens_reads (fuel : Nat) : Reads ws φ (allTokens fuel) := by
  induction fuel generalizing φ with
  | zero => exact .throw _
  | succ fuel ih => exact nextToken_reads.next fun _ => .get fun _ _ _ _ => .same (.pure rfl) ih

theorem announceKeys_reworded (found : List FoundKey) {ts ts' : List Token}
    (h : Forall₂ (Token.Reworded ws) ts ts') (i : Nat) :
    Forall₂ (Token.Reworded ws) (announceKeys found i ts) (announceKeys found i ts') := by
  induction h generalizing i with
  | nil => exact .nil
  | cons ht _ ih =>
    unfold announceKeys
    split
    · rename_i k hk
      refine rel_append ?_ (.cons ht (ih _))
      split
      · exact .cons (.same _) (.cons (.same _) .nil)
      · exact .cons (.same _) .nil
    · exact .cons ht (ih _)

/-- **A rewritten text has the same tokens** but for rewritten words in scalars, if both have
    tokens. -/
theorem tokensOf_rewritten {text text' : List Char} (h : Rewritten ws .loose text text') :
    Matched (Forall₂ (Token.Reworded ws)) (tokensOf text) (tokensOf text') := by
  have hstart : Near ws { rest := text } { rest := text' } := .intro (s := { rest := text }) trivial
    h .nil
  unfold tokensOf
  rw [h.reworded.length_eq]
  split
  · exact fun _ _ h => nomatch h
  split
  · exact fun _ _ _ h => nomatch h
  refine Matched.bind (allTokens_reads _ hstart) ?_
  rintro ⟨_, u⟩ ⟨_, u'⟩ ⟨-, htokens⟩
  cases htokens with
  | intro _ _ ht =>
    rintro _ _ ⟨⟩ ⟨⟩
    exact announceKeys_reworded u.found (forall₂_reverse_iff.mpr ht) 0

end AddonAudit.Yaml
