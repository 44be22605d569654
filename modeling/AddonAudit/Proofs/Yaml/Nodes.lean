/-
  AddonAudit.Proofs.Yaml.Nodes — the tree of a rewritten text.

  What is built from tokens depends on their kinds, and on the names of anchors and tags, which are
  the same in a rewritten text.  So both trees have the same shape, and scalars differ in rewritten
  words only.
-/
import AddonAudit.Proofs.Yaml.Tokens
import AddonAudit.Yaml.Node

namespace AddonAudit.Yaml

open List

variable {α β : Type} {ws : Words}

/-! ## §1. Trees and states in step. -/

variable (ws) in
/-- Trees of rewritten texts: they have the same shape, and scalars differ in rewritten words
    only. -/
inductive Node.Reworded : Node → Node → Prop
  | scalar (kind : Kind) {t t' : String} : Yaml.Reworded ws t.toList t'.toList →
      Node.Reworded (.scalar kind t) (.scalar kind t')
  | sequence (tag : Option String) {items items' : List Node} :
      List.Forall₂ Node.Reworded items items' →
      Node.Reworded (.sequence tag items) (.sequence tag items')
  | mapping (tag : Option String) {es es' : List (Node × Node)} :
      List.Forall₂ Node.Reworded (es.map Prod.fst) (es'.map Prod.fst) →
      List.Forall₂ Node.Reworded (es.map Prod.snd) (es'.map Prod.snd) →
      Node.Reworded (.mapping tag es) (.mapping tag es')

variable (ws) in
/-- Lists of such trees. -/
abbrev Items : List Node → List Node → Prop := List.Forall₂ (Node.Reworded ws)

variable (ws) in
/-- Entries of mappings in rewritten texts. -/
def Entries (es es' : List (Node × Node)) : Prop :=
  Items ws (es.map Prod.fst) (es'.map Prod.fst) ∧ Items ws (es.map Prod.snd) (es'.map Prod.snd)

theorem Entries.nil : Entries ws [] [] := ⟨.nil, .nil⟩

theorem Entries.cons {k k' v v' : Node} {es es' : List (Node × Node)} (hk : k.Reworded ws k')
    (hv : v.Reworded ws v') (h : Entries ws es es') :
    Entries ws ((k, v) :: es) ((k', v') :: es') := ⟨.cons hk h.1, .cons hv h.2⟩

theorem Entries.reverse {es es' : List (Node × Node)} (h : Entries ws es es') :
    Entries ws es.reverse es'.reverse := by
  unfold Entries
  rw [map_reverse, map_reverse, map_reverse, map_reverse]
  exact ⟨forall₂_reverse_iff.mpr h.1, forall₂_reverse_iff.mpr h.2⟩

theorem nothing_reworded : Node.nothing.Reworded ws Node.nothing := .scalar _ .nil

variable (ws) in
/-- States of building in step. -/
structure Side (s s' : Builder) : Prop where
  tokens : List.Forall₂ (Token.Reworded ws) s.tokens s'.tokens
  handles : s'.handles = s.handles
  anchors : List.Forall₂ (fun a a' => a.1 = a'.1 ∧ a.2.Reworded ws a'.2) s.anchors s'.anchors
  unfinished : s'.unfinished = s.unfinished

variable {s s' : Builder}

variable (ws) in
/-- Readings that go in step over the tokens of both texts. -/
abbrev Together (R : α → β → Prop) (f : Building α) (f' : Building β) :
    Prop := Along (Side ws) R (Side ws) f f'

/-! ## §2. Single tokens. -/

variable {R : α → β → Prop}

theorem Together.get {g : Builder → Building α} {g' : Builder → Building β}
    (h : ∀ s s', Side ws s s' → Together ws R (g s) (g' s')) :
    Together ws R (get >>= g) (get >>= g') :=
  fun s s' hs => h s s' hs hs

/-- Tokens other than scalars. -/
def Token.isSign : Token → Bool
  | .scalar _ _ => false
  | _ => true

theorem Token.Reworded.beq {t t' x : Token} (h : t.Reworded ws t') (hx : x.isSign) :
    (t' == x) = (t == x) := by
  cases h with
  | same => rfl
  | scalar plain _ =>
    cases x with
    | scalar _ _ => cases hx
    | _ => rfl

theorem Token.Reworded.mem {t t' : Token} (h : t.Reworded ws t') {ts : List Token}
    (hts : ∀ x ∈ ts, x.isSign) : ts.contains t' = ts.contains t := by
  induction ts with
  | nil => rfl
  | cons x ts ih =>
    rw [contains_cons, contains_cons, h.beq (hts x (by simp)),
      ih fun y hy => hts y (mem_cons_of_mem x hy)]

/-- The tokens ahead differ in rewritten words only. -/
theorem ahead_along {g : Token → Building α} {g' : Token → Building β}
    (h : ∀ t t', t.Reworded ws t' → Together ws R (g t) (g' t')) :
    Together ws R (ahead >>= g) (ahead >>= g') := by
  intro s s' hs
  refine h (s.tokens.headD .streamEnd) (s'.tokens.headD .streamEnd) ?_ hs
  have htokens := hs.tokens
  generalize s.tokens = ts at htokens ⊢
  generalize s'.tokens = ts' at htokens ⊢
  cases htokens with
  | nil => exact .same _
  | cons ht _ => exact ht

/-- The tokens ahead are the same, or scalars. -/
theorem ahead_cases {g : Token → Building α} {g' : Token → Building β}
    (hsame : ∀ t, Together ws R (g t) (g' t))
    (hscalar : ∀ t t' plain, Yaml.Reworded ws t.toList t'.toList →
      Together ws R (g (.scalar t plain)) (g' (.scalar t' plain))) :
    Together ws R (ahead >>= g) (ahead >>= g') := by
  refine ahead_along fun t t' ht => ?_
  cases ht with
  | same => exact hsame t
  | scalar plain ht => exact hscalar _ _ plain ht

theorem advance_along : Keeps (Side ws) advance :=
  fun _ _ h => .ok rfl { h with tokens := forall₂_drop 1 h.tokens }

theorem take_along {t : Token} (ht : t.isSign) : Keeps (Side ws) (take t) :=
  ahead_along fun _ _ hnext => .ite (by rw [hnext.beq ht]) (fun _ =>
    advance_along.next fun _ => .pure rfl) fun _ => .pure rfl

theorem expect_along {t : Token} (ht : t.isSign) : Keeps (Side ws) (expect t) :=
  (take_along ht).next fun _ => .same (.throw _) (.pure rfl)

theorem atAny_along {ts : List Token} (hts : ∀ t ∈ ts, t.isSign) : Keeps (Side ws) (atAny ts) :=
  ahead_along fun _ _ hnext => .pure (hnext.mem hts).symm

theorem fullTag_along (handle : Option String) (address : String) :
    Keeps (Side ws) (fullTag handle address) := by
  unfold fullTag
  cases handle with
  | none => exact .pure rfl
  | some name =>
    refine Together.get fun s s' h => ?_
    rw [h.handles]
    cases s.handles.lookup name with
    | some start => exact .pure rfl
    | none => exact .throw _

/-- The tag of a node with what comes before it. -/
theorem tagged_along (anchor handle : Option String) (address : String) : Keeps (Side ws)
    (do return (anchor, some (← fullTag handle address)) : Building (Option String × Option
    String)) :=
  (fullTag_along handle address).next fun _ => .pure rfl

theorem properties_along : Keeps (Side ws) properties := by
  refine ahead_cases (fun t => ?_) fun _ _ _ _ => .pure rfl
  cases t with
  | anchor a =>
    refine advance_along.next fun _ => ahead_cases (fun t => ?_) fun _ _ _ _ => .pure rfl
    cases t with
    | tag handle address => exact advance_along.next fun _ => tagged_along (some a) handle address
    | _ => exact .pure rfl
  | tag handle address =>
    refine advance_along.next fun _ => ahead_cases (fun t => ?_) fun _ _ _ _ =>
      tagged_along none handle address
    cases t with
    | anchor a => exact advance_along.next fun _ => tagged_along (some a) handle address
    | _ => exact tagged_along none handle address
  | _ => exact .pure rfl

/-- What an anchor stands for in both trees. -/
theorem Side.lookup (h : Side ws s s') {name : String} {n n' : Node}
    (hn : s.anchors.lookup name = some n) (hn' : s'.anchors.lookup name = some n') :
    n.Reworded ws n' := by
  have hanchors := h.anchors
  generalize s.anchors = as at hanchors hn
  generalize s'.anchors = as' at hanchors hn'
  induction hanchors with
  | nil => cases hn
  | @cons a a' _ _ ha _ ih =>
    obtain ⟨k, m⟩ := a
    obtain ⟨_, m'⟩ := a'
    obtain ⟨rfl, hm⟩ := ha
    rw [lookup_cons] at hn hn'
    cases hk : name == k with
    | true =>
      rw [hk] at hn hn'
      cases hn
      cases hn'
      exact hm
    | false =>
      rw [hk] at hn hn'
      exact ih hn hn'

theorem startAnchor_along (anchor : Option String) : Keeps (Side ws) (startAnchor anchor) := by
  unfold startAnchor
  cases anchor with
  | none => exact .pure rfl
  | some a =>
    refine Together.get fun s s' h => .unless fun _ _ _ => .ok rfl ?_
    exact { h with unfinished := by dsimp only; rw [h.unfinished] }

theorem endAnchor_along (anchor : Option String) {n n' : Node} (hn : n.Reworded ws n') :
    Together ws (Node.Reworded ws) (endAnchor anchor n) (endAnchor anchor n') := by
  unfold endAnchor
  cases anchor with
  | none => exact .pure hn
  | some a =>
    intro s s' h
    refine .ok hn ⟨h.tokens, h.handles, .cons ⟨rfl, hn⟩ h.anchors, ?_⟩
    dsimp only
    rw [h.unfinished]

/-! ## §3. Nodes from tokens. -/

variable (ws) in
/-- Readings that go on from what belongs together. -/
def Carries (R : α → α → Prop) (f : α → Building α) :
    Prop := ∀ ⦃a b⦄, R a b → Together ws R (f a) (f b)

variable (ws) in
/-- A reading that builds the same tree from both texts, but for rewritten words. -/
def Grows (f : Building Node) : Prop := Together ws (Node.Reworded ws) f f

variable (ws) in
/-- Every part of a tree is built in step with `fuel`. -/
structure Builds (fuel : Nat) : Prop where
  node (block indentless : Bool) : Grows ws (node fuel block indentless)
  body (block indentless : Bool) (tag : Option String) (mayBeEmpty : Bool) :
    Grows ws (body fuel block indentless tag mayBeEmpty)
  nodeUnless (block indentless : Bool) {stops : List Token} :
    (∀ t ∈ stops, t.isSign = true) → Grows ws (nodeUnless fuel block indentless stops)
  blockItems : Carries ws (Items ws) (blockItems fuel)
  indentlessItems : Carries ws (Items ws) (indentlessItems fuel)
  blockPairs : Carries ws (Entries ws) (blockPairs fuel)
  flowItems (first : Bool) : Carries ws (Items ws) (flowItems fuel first)
  flowPairs (first : Bool) : Carries ws (Entries ws) (flowPairs fuel first)

namespace Builds

variable {fuel : Nat}

/-- A comma has to come before what follows, but not before the first part. -/
theorem comma_along {R : α → β → Prop} (first : Bool) {g : Unit → Building α}
    {g' : Unit → Building β} (hg : Together ws R (g ()) (g' ())) :
    Together ws R
      (if (!first) then do
        let x ← expect .flowEntry
        g x
      else g ())
      (if (!first) then do
        let x ← expect .flowEntry
        g' x
      else g' ()) :=
  .same ((expect_along rfl).next fun _ => hg) hg

variable (ih : Builds ws fuel)

include ih

/-- A node with properties of its own, which is no alias. -/
theorem ownNode_along (block indentless : Bool) : Grows ws (do
    let (anchor, tag) ← properties
    startAnchor anchor
    let n ← Yaml.body fuel block indentless tag (anchor.isSome || tag.isSome)
    endAnchor anchor n) := by
  refine properties_along.next fun (anchor, tag) => (startAnchor_along anchor).next fun _ => ?_
  exact (ih.body block indentless tag _).bind fun n n' hn => endAnchor_along anchor hn

theorem node_succ (block indentless : Bool) : Grows ws (Yaml.node (fuel + 1) block indentless) := by
  unfold Yaml.node
  refine ahead_cases (fun t => ?_) fun _ _ _ _ => ih.ownNode_along block indentless
  cases t with
  | «alias» a =>
    refine advance_along.next fun _ => Together.get fun s s' h => ?_
    split
    · next hn =>
      split
      · next hn' => exact .pure (h.lookup hn hn')
      · exact .throwRight _
    · exact .throw _
  | _ => exact ih.ownNode_along block indentless

theorem body_succ (block indentless : Bool) (tag : Option String) (mayBeEmpty : Bool) :
    Grows ws (Yaml.body (fuel + 1) block indentless tag mayBeEmpty) := by
  unfold Yaml.body
  refine ahead_cases (fun t => ?_) fun _ _ _ htext =>
    advance_along.next fun _ => .pure (.scalar _ htext)
  split
  · exact advance_along.next fun _ => .pure (.scalar _ (.refl _))
  · exact advance_along.next fun _ => (ih.flowItems true .nil).bind
      fun _ _ hitems => .pure (.sequence _ hitems)
  · exact advance_along.next fun _ => (ih.flowPairs true .nil).bind
      fun _ _ hes => .pure (.mapping _ hes.1 hes.2)
  · refine .same ?_ (.same ?_ (.same ?_ (.same ?_ (.throw _))))
    · exact (ih.indentlessItems .nil).bind fun _ _ hitems => .pure (.sequence _ hitems)
    · exact advance_along.next fun _ => (ih.blockItems .nil).bind
        fun _ _ hitems => .pure (.sequence _ hitems)
    · exact advance_along.next fun _ => (ih.blockPairs .nil).bind
        fun _ _ hes => .pure (.mapping _ hes.1 hes.2)
    · exact .pure (.scalar _ .nil)

theorem nodeUnless_succ (block indentless : Bool) {stops : List Token}
    (hstops : ∀ t ∈ stops, t.isSign) :
    Grows ws (Yaml.nodeUnless (fuel + 1) block indentless stops) :=
  (atAny_along hstops).next fun _ => .same (.pure nothing_reworded) (ih.node block indentless)

theorem blockItems_succ : Carries ws (Items ws) (Yaml.blockItems (fuel + 1)) := by
  intro before before' hbefore
  refine (take_along rfl).next fun _ => .same ?_ ?_
  · exact (ih.nodeUnless true false (by decide)).bind fun n n' hn =>
      ih.blockItems (.cons hn hbefore)
  · exact (expect_along rfl).next fun _ => .pure (forall₂_reverse_iff.mpr hbefore)

theorem indentlessItems_succ : Carries ws (Items ws) (Yaml.indentlessItems (fuel + 1)) := by
  intro before before' hbefore
  refine (take_along rfl).next fun _ => .same ?_ (.pure (forall₂_reverse_iff.mpr hbefore))
  exact (ih.nodeUnless true false (by decide)).bind fun n n' hn =>
    ih.indentlessItems (.cons hn hbefore)

/-- The value of an entry, if there is one. -/
theorem value_along {R : α → β → Prop} (block indentless : Bool) {stops : List Token}
    (hstops : ∀ t ∈ stops, t.isSign) {g : Node → Building α} {g' : Node → Building β}
    (hg : ∀ v v', v.Reworded ws v' → Together ws R (g v) (g' v')) :
    Together ws R
      (do
        if ← Yaml.take .value then
          let v ← Yaml.nodeUnless fuel block indentless stops
          g v
        else
          let v ← pure Node.nothing
          g v)
      (do
        if ← Yaml.take .value then
          let v ← Yaml.nodeUnless fuel block indentless stops
          g' v
        else
          let v ← pure Node.nothing
          g' v) :=
  (take_along rfl).next fun _ => .same ((ih.nodeUnless block indentless hstops).bind hg)
  (hg _ _ nothing_reworded)

theorem blockPairs_succ : Carries ws (Entries ws) (Yaml.blockPairs (fuel + 1)) := by
  intro before before' hbefore
  refine (take_along rfl).next fun _ => .same ?_ ?_
  · refine (ih.nodeUnless true true (by decide)).bind fun k k' hk => ?_
    exact ih.value_along true true (by decide) fun v v' hv => ih.blockPairs (.cons hk hv hbefore)
  · exact (expect_along rfl).next fun _ => .pure hbefore.reverse

theorem flowItems_succ (first : Bool) :
    Carries ws (Items ws) (Yaml.flowItems (fuel + 1) first) := by
  intro before before' hbefore
  have hend := forall₂_reverse_iff.mpr hbefore
  refine (take_along rfl).next fun _ => .same (.pure hend) (comma_along first ?_)
  refine (take_along rfl).next fun _ => .same ?_ ((take_along rfl).next
    fun _ => .same (.pure hend) ?_)
  · refine (ih.nodeUnless false false (by decide)).bind fun k k' hk => ?_
    refine ih.value_along false false (by decide) fun v v' hv => ?_
    exact ih.flowItems false (.cons (.mapping none (.cons hk .nil) (.cons hv .nil)) hbefore)
  · exact (ih.node false false).bind fun n n' hn => ih.flowItems false (.cons hn hbefore)

theorem flowPairs_succ (first : Bool) :
    Carries ws (Entries ws) (Yaml.flowPairs (fuel + 1) first) := by
  intro before before' hbefore
  have hend := hbefore.reverse
  refine (take_along rfl).next fun _ => .same (.pure hend) (comma_along first ?_)
  refine (take_along rfl).next fun _ => .same ?_ ((take_along rfl).next
    fun _ => .same (.pure hend) ?_)
  · refine (ih.nodeUnless false false (by decide)).bind fun k k' hk => ?_
    exact ih.value_along false false (by decide) fun v v' hv =>
      ih.flowPairs false (.cons hk hv hbefore)
  · exact (ih.node false false).bind fun k k' hk =>
      ih.flowPairs false (.cons hk nothing_reworded hbefore)

end Builds

variable (ws) in
/-- **Every part of a tree is built in step.** -/
theorem builds (fuel : Nat) : Builds ws fuel := by
  induction fuel with
  | zero =>
    exact {
      node := fun _ _ => .throw _
      body := fun _ _ _ _ => .throw _
      nodeUnless := fun _ _ _ _ => .throw _
      blockItems := fun _ _ _ => .throw _
      indentlessItems := fun _ _ _ => .throw _
      blockPairs := fun _ _ _ => .throw _
      flowItems := fun _ _ _ _ => .throw _
      flowPairs := fun _ _ _ _ => .throw _ }
  | succ fuel ih =>
    exact {
      node := ih.node_succ
      body := ih.body_succ
      nodeUnless := ih.nodeUnless_succ
      blockItems := ih.blockItems_succ
      indentlessItems := ih.indentlessItems_succ
      blockPairs := ih.blockPairs_succ
      flowItems := ih.flowItems_succ
      flowPairs := ih.flowPairs_succ }

/-! ## §4. Documents. -/

theorem directives_along (fuel : Nat) (versionSeen : Bool) (handles : List (String × String)) :
    Keeps (Side ws) (directives fuel versionSeen handles) := by
  induction fuel generalizing versionSeen handles with
  | zero => exact .throw _
  | succ fuel ih =>
    refine ahead_cases (fun t => ?_) fun _ _ _ _ => .pure rfl
    split
    · exact advance_along.next fun _ => .same (.throw _) (ih _ _)
    · exact advance_along.next fun _ => .same (.throw _) (ih _ _)
    · exact advance_along.next fun _ => ih _ _
    · exact .pure rfl

theorem skipEnds_along (fuel : Nat) : Keeps (Side ws) (skipEnds fuel) := by
  induction fuel with
  | zero => exact .pure rfl
  | succ fuel ih => exact (take_along rfl).next fun _ => .same ih (.pure rfl)

theorem Token.Reworded.isExplicitStart {t t' : Token} (h : t.Reworded ws t') :
    isExplicitStart t' = isExplicitStart t := by
  cases h with
  | same => rfl
  | scalar plain _ => rfl

theorem handles_along (handles : List (String × String)) :
    Keeps (Side ws) (modify fun s => { s with handles } : Building Unit) :=
  fun _ _ h => .ok rfl { h with handles := rfl }

theorem onlyDocument_along :
    Together ws (Option.Rel (Node.Reworded ws)) onlyDocument onlyDocument := by
  unfold onlyDocument
  refine Together.get fun s s' h => ?_
  rw [← h.tokens.length_eq]
  generalize s.tokens.length = size
  -- all ways to a root end with the marks after it
  have hend {root root' : Node} (hroot : root.Reworded ws root') :
      Together ws (Option.Rel (Node.Reworded ws))
        (do skipEnds size; expect .streamEnd; return some root : Building (Option Node))
        (do skipEnds size; expect .streamEnd; return some root') :=
    (skipEnds_along size).next fun _ => (expect_along rfl).next fun _ => .pure (.some hroot)
  have hnode := ((builds ws (4 * size + 8)).node true false).bind fun root root' => hend
  refine ahead_along fun t t' ht => .ite (by rw [ht.beq rfl]) (fun _ => .pure .none) fun _ => ?_
  refine .ite (by rw [ht.isExplicitStart]) (fun _ => ?_) fun _ => hnode
  refine (directives_along _ false []).next fun own => (expect_along rfl).next fun _ => ?_
  refine (handles_along _).next fun _ => ahead_along fun t t' ht => .ite ?_ (fun _ => ?_) fun _ =>
    hnode
  · rw [ht.isExplicitStart, ht.beq rfl, ht.beq rfl]
  · exact hend nothing_reworded

/-- **A rewritten text has the same tree** but for rewritten words in scalars, where both texts have
    a tree. -/
theorem read_rewritten {text text' : List Char} (h : Rewritten ws .loose text text') :
    Matched (Option.Rel (Node.Reworded ws)) (read text) (read text') := by
  unfold read
  refine (tokensOf_rewritten h).bind fun ts ts' hts => ?_
  have hstart : Side ws { tokens := ts, handles := standardHandles }
      { tokens := ts', handles := standardHandles } := ⟨hts, rfl, .nil, rfl⟩
  refine Matched.bind (onlyDocument_along hstart) ?_
  rintro ⟨root, _⟩ ⟨root', _⟩ ⟨hroot, -⟩ _ _ ha hb
  cases ha
  cases hb
  exact hroot

end AddonAudit.Yaml
