/-
  AddonAudit.Proofs.Branch.Acceptance — which names a policy accepts.

  A policy keeps one pattern for each type and one for each of the two forms without a type in
  front.  A name is valid if one of them matches it, so that the names that are valid are those of
  the grammar.
-/
import AddonAudit.Branch.Verdict
import AddonAudit.Proofs.Branch.Grammar
import AddonAudit.Proofs.Traversal

namespace AddonAudit.Branch

open List Traversal Pattern Datum

/-! ## §1. Data. -/

theorem textsOf_textData (ts : List String) : textsOf (.list (textData ts)) = .ok ts := by
  have hgo : ∀ i, textsOf.go i (textData ts) = .ok ts := by
    induction ts with
    | nil => exact fun _ => rfl
    | cons t ts ih =>
      intro i
      show (textsOf.go (i + 1) (textData ts) >>= fun rest => Except.ok (t :: rest)) = _
      rw [ih]
      rfl
  exact hgo 0

theorem allowsAnyTicket_textData {ts : List String} : allowsAnyTicket (.list (textData ts)) ↔
    ts = ["[A-Z]+"] := by
  unfold allowsAnyTicket textData
  match ts with
  | [] => simp [same, sameItems]
  | [t] => simp [same, sameItems, anyTicket]
  | t :: t' :: ts => simp [same, sameItems]

/-- What tickets start with if nothing is asked for. -/
def startsOf (tickets : List String) : List String := if tickets = [] then ["[A-Z]+"] else tickets

theorem startsOf_ne_nil (tickets : List String) : startsOf tickets ≠ [] := by
  unfold startsOf
  split
  · exact cons_ne_nil _ _
  · assumption

theorem ticketsPattern_startsOf (tickets : List String) :
    ticketsPattern (.list (textData (startsOf tickets))) = .ok (ticketsText tickets) := by
  have hany : startsOf tickets = ["[A-Z]+"] ↔ tickets = [] ∨ tickets = ["[A-Z]+"] := by
    unfold startsOf
    split
    · simp_all
    · simp_all
  unfold ticketsPattern ticketsText
  by_cases hstarts : startsOf tickets = ["[A-Z]+"]
  · rw [if_pos (allowsAnyTicket_textData.mpr hstarts), if_pos (hany.mp hstarts)]
    rfl
  · have hne : ¬(tickets = [] ∨ tickets = ["[A-Z]+"]) := fun h => hstarts (hany.mpr h)
    have hsame : startsOf tickets = tickets := if_neg fun h => hne (.inl h)
    have hparts : (textData tickets).mapM ticketPattern = .ok (tickets.map quote) := by
      unfold textData
      rw [mapM_map]
      exact mapM_ok_map fun _ _ => rfl
    rw [if_neg fun h => hstarts (allowsAnyTicket_textData.mp h), if_neg hne, hsame]
    show ((textData tickets).mapM ticketPattern >>= _) = _
    rw [hparts]
    rfl

/-! ## §2. Patterns by type. -/

theorem mem_setPattern {type : String} {tree : List Node} {ps : List (String × List Node)}
    (h : ∀ q, (type, q) ∈ ps → q = tree) {e : String × List Node} :
    e ∈ setPattern type tree ps ↔ e = (type, tree) ∨ e ∈ ps := by
  induction ps with
  | nil => simp [setPattern]
  | cons p ps ih =>
    obtain ⟨t, q⟩ := p
    unfold setPattern
    split
    · rename_i heq
      have ht : t = type := by simpa using heq
      have hq : q = tree := h q (ht ▸ mem_cons_self)
      rw [ht, hq, mem_cons, or_self_left]
    · rw [mem_cons, ih fun r hr => h r (mem_cons_of_mem _ hr), mem_cons, or_left_comm]

section Patterns

variable {strict : Bool} {tickets : String}

/-- Whether an entry holds the pattern of its type. -/
def Holds (strict : Bool) (tickets : String) (e : String × List Pattern.Node) : Prop :=
  readPattern (typePattern strict tickets e.1) = .ok e.2

theorem foldlM_setPattern {types : List String}
    (htypes : ∀ t ∈ types, ∃ tree, readPattern (typePattern strict tickets t) = .ok tree) :
    ∀ acc : List (String × List Node), (∀ e ∈ acc, Holds strict tickets e) →
    ∃ ps, types.foldlM (fun acc t => do
          return setPattern t (← readPattern (typePattern strict tickets t)) acc) acc = .ok ps ∧
        ∀ e, e ∈ ps ↔ e ∈ acc ∨ (e.1 ∈ types ∧ Holds strict tickets e) := by
  induction types with
  | nil => exact fun acc _ => ⟨acc, rfl, fun e => by simp⟩
  | cons t types ih =>
    intro acc hacc
    obtain ⟨⟨tree, htree⟩, hrest⟩ := forall_mem_cons.mp htypes
    -- a type that comes twice has the same pattern both times
    have hmem : ∀ e, e ∈ setPattern t tree acc ↔ e = (t, tree) ∨ e ∈ acc := fun e =>
      mem_setPattern fun q hq => Except.ok.inj ((hacc _ hq).symm.trans htree)
    obtain ⟨ps, hps, hiff⟩ := ih hrest (setPattern t tree acc) fun e he => by
      rcases (hmem e).mp he with rfl | he
      · exact htree
      · exact hacc e he
    refine ⟨ps, ?_, fun e => ?_⟩
    · rw [foldlM_cons, htree]
      exact hps
    · have hthis : e = (t, tree) ↔ e.1 = t ∧ Holds strict tickets e := by
        constructor
        · rintro rfl
          exact ⟨rfl, htree⟩
        · rintro ⟨rfl, he⟩
          exact Prod.ext rfl (Except.ok.inj (he.symm.trans htree))
      rw [hiff, hmem, hthis, mem_cons, or_and_right, or_left_comm, or_assoc]

/-- **The patterns of a policy:** those of the types, and those of the two forms that have no type
    in front.  A type with the name of such a form would lose its pattern. -/
theorem mem_patternsOf {types : List String} {versionFirst revert : List Node}
    (htypes : ∀ t ∈ types, ∃ tree, readPattern (typePattern strict tickets t) = .ok tree)
    (hversion : readPattern ("^" ++ versionPattern ++ "-(" ++ "|".intercalate types ++
    ")-.+$") = .ok versionFirst)
    (hrevert : readPattern "^revert-\\d+-.+$" = .ok revert)
    (hfree : ∀ t ∈ types, t ≠ "version-type" ∧ t ≠ "github-revert") :
    ∃ ps, patternsOf strict tickets types = .ok ps ∧ ∀ e, e ∈ ps ↔
      (e.1 ∈ types ∧ Holds strict tickets e) ∨ e = ("version-type", versionFirst) ∨
      e = ("github-revert", revert) := by
  obtain ⟨byType, hfold, hmem⟩ := foldlM_setPattern htypes [] (by simp)
  simp only [not_mem_nil, false_or] at hmem
  refine ⟨setPattern "github-revert" revert (setPattern "version-type" versionFirst byType), ?_,
    fun e => ?_⟩
  · exact bind_ok_iff.mpr ⟨byType, hfold, bind_ok_iff.mpr ⟨versionFirst, hversion,
      bind_ok_iff.mpr ⟨revert, hrevert, rfl⟩⟩⟩
  · have hfirst : ∀ e, e ∈ setPattern "version-type" versionFirst byType ↔
        e = ("version-type", versionFirst) ∨ e ∈ byType := fun e =>
      mem_setPattern fun q hq => absurd rfl (hfree _ ((hmem _).mp hq).1).1
    rw [mem_setPattern, hfirst, hmem]
    · rw [or_comm, or_comm (b := e.1 ∈ types ∧ Holds strict tickets e), or_assoc]
    · intro q hq
      rcases (hfirst _).mp hq with heq | hq
      · have hname : "github-revert" ≠ "version-type" := by decide
        exact absurd (congrArg Prod.fst heq) hname
      · exact absurd rfl (hfree _ ((hmem _).mp hq).1).2

end Patterns

/-! ## §3. Reading a policy. -/

/-- The mode: the one given, or that of the settings. -/
def modeOf (strict : Option Bool) (es : List (Datum × Datum)) : Datum :=
  match strict with
  | some b => .bool b
  | none => (Datum.lookupText "strict" es).getD (.bool false)

/-- Which types, tickets and mode hold by a section of the settings, if tickets and mode may be
    given otherwise. -/
structure InForce (tickets : Datum) (strict : Option Bool) (es : List (Datum × Datum)) (mode : Bool)
    (types starts : List String) : Prop where
  types_eq : (Datum.lookupText "allowed_types" es).getD (.list (textData standardTypes)) = .list
    (textData types)
  starts_eq : (if tickets.truthy then tickets else (Datum.lookupText "ticket_prefixes" es).getD
    (.list []))
    = .list (textData starts)
  mode_eq : (modeOf strict es).truthy = mode

theorem truthy_textData {ts : List String} : (list (textData ts)).truthy ↔ ts ≠ [] := by
  cases ts <;> simp [truthy, textData]

theorem InForce.tickets_eq {tickets : Datum} {strict : Option Bool} {es : List (Datum × Datum)}
    {mode : Bool} {types starts : List String} (h : InForce tickets strict es mode types starts) :
    (if tickets.truthy then tickets
      else if ((lookupText "ticket_prefixes" es).getD (.list [])).truthy then
        (lookupText "ticket_prefixes" es).getD (.list [])
      else .list [.text anyTicket]) = .list (textData (startsOf starts)) := by
  have hstarts := h.starts_eq
  unfold startsOf
  by_cases htickets : tickets.truthy
  · rw [if_pos htickets] at hstarts
    rw [if_pos htickets, if_neg (truthy_textData.mp (hstarts ▸ htickets)), hstarts]
  · rw [if_neg htickets] at hstarts
    rw [if_neg htickets, hstarts]
    by_cases hne : starts = []
    · rw [if_neg fun h => truthy_textData.mp h hne, if_pos hne]
      rfl
    · rw [if_pos (truthy_textData.mpr hne), if_neg hne]

/-- **A policy is read from the settings.** -/
theorem ofSection_ok {tickets : Datum} {strict : Option Bool} {es : List (Datum × Datum)}
    {mode : Bool} {types starts : List String} (h : InForce tickets strict es mode types starts)
    {spared : List Datum}
    (hspared : sparedOf ((lookupText "protected_patterns" es).getD (.list [])) = .ok spared)
    {ps : List (String × List Node)} (hps : patternsOf mode (ticketsText starts) types = .ok ps) :
    ∃ p, Policy.ofSection tickets strict (.table es) = .ok p ∧ p.patterns = ps ∧
      p.types = .list (textData types) ∧ p.tickets = .list (textData (startsOf starts)) ∧
      p.spared = lookupText "protected_branches" es ∧ p.sparedPatterns = spared := by
  refine ⟨{
    strict := modeOf strict es
    tickets := .list (textData (startsOf starts))
    types := .list (textData types)
    spared := lookupText "protected_branches" es
    sparedPatterns := spared
    patterns := ps }, ?_, rfl, rfl, rfl, rfl, rfl⟩
  unfold Policy.ofSection
  dsimp only
  rw [h.tickets_eq, h.types_eq]
  refine bind_ok_iff.mpr ⟨spared, hspared, ?_⟩
  refine bind_ok_iff.mpr ⟨_, ticketsPattern_startsOf starts, ?_⟩
  refine bind_ok_iff.mpr ⟨types, textsOf_textData types, ?_⟩
  exact bind_ok_iff.mpr ⟨ps, (congrArg (patternsOf · _ _) h.mode_eq).trans hps, rfl⟩

/-! ## §4. Verdicts. -/

section Verdicts

variable {p : Policy} {name : String}

theorem typedVerdict_valid (type name : String) : (typedVerdict type name).valid := by
  unfold typedVerdict
  split
  · rfl
  · rfl

/-- The verdict on a branch that is looked at. -/
theorem judge_eq (h : p.spares name = .ok false) :
    p.judge name = match p.typeOf? name with
      | some type => .ok (typedVerdict type name)
      | none => (errorMessage p name).map fun m => ⟨false, m⟩ := by
  unfold Policy.judge
  rw [h]
  cases p.typeOf? name with
  | some type => rfl
  | none => rfl

theorem typeOf?_isSome : (p.typeOf? name).isSome ↔ ∃ e ∈ p.patterns, matchesAt e.2 name := by
  unfold Policy.typeOf?
  rw [Option.isSome_map, find?_isSome]

/-- A name is valid exactly if a pattern matches it. -/
theorem judge_valid_iff (h : p.spares name = .ok false) :
    (∃ v, p.judge name = .ok v ∧ v.valid) ↔ ∃ e ∈ p.patterns, matchesAt e.2 name := by
  rw [judge_eq h, ← typeOf?_isSome]
  cases p.typeOf? name with
  | some type => exact iff_of_true ⟨_, rfl, typedVerdict_valid type name⟩ rfl
  | none =>
    refine iff_of_false ?_ Bool.false_ne_true
    rintro ⟨v, hv, hvalid⟩
    obtain ⟨m, -, rfl⟩ := map_ok_iff.mp hv
    cases hvalid

theorem typesText_textData (types : List String) :
    ∃ text, typesText (.list (textData types)) = .ok text := by
  have htake : (textData types).take shownTypes = textData (types.take shownTypes) := map_take.symm
  have htexts : textsOf (.list ((textData types).take shownTypes))
    = .ok (types.take shownTypes) := by
    rw [htake]
    exact textsOf_textData _
  exact ⟨_, bind_ok_iff.mpr ⟨_, htexts, rfl⟩⟩

theorem strictMessage_ok {starts : List String} (hstarts : p.tickets = .list (textData starts))
    (hne : starts ≠ []) (name types : String) : ∃ text, strictMessage p name types = .ok text := by
  obtain ⟨t, ts, rfl⟩ := exists_cons_of_ne_nil hne
  unfold strictMessage
  rw [hstarts]
  cases allowsAnyTicket (.list (textData (t :: ts))) with
  | true => exact ⟨_, rfl⟩
  | false =>
    rw [textsOf_textData]
    exact ⟨_, rfl⟩

/-- There is a message for each name, if the spared branches have an order. -/
theorem errorMessage_ok {types starts : List String} (htypes : p.types = .list (textData types))
    (hstarts : p.tickets = .list (textData starts)) (hne : starts ≠ []) {names : List String}
    (hnames : sparedNames p = .ok names) (name : String) :
    ∃ text, errorMessage p name = .ok text := by
  obtain ⟨shown, hshown⟩ := typesText_textData types
  obtain ⟨strictText, hstrict⟩ := strictMessage_ok hstarts hne name shown
  unfold errorMessage
  rw [htypes, hshown, hnames]
  cases p.strict.truthy with
  | true =>
    show ∃ text, ((strictMessage p name shown) >>= _) = _
    rw [hstrict]
    exact ⟨_, rfl⟩
  | false => exact ⟨_, rfl⟩

theorem judge_ok {types starts : List String} (htypes : p.types = .list (textData types))
    (hstarts : p.tickets = .list (textData starts)) (hne : starts ≠ []) {names : List String}
    (hnames : sparedNames p = .ok names) (h : p.spares name = .ok false) :
    ∃ v, p.judge name = .ok v := by
  obtain ⟨text, htext⟩ := errorMessage_ok htypes hstarts hne hnames name
  rw [judge_eq h, htext]
  cases p.typeOf? name with
  | some type => exact ⟨_, rfl⟩
  | none => exact ⟨_, rfl⟩

end Verdicts

/-! ## §5. Acceptance. -/

variable {mode : Bool} {types starts : List String}

/-- The names of a type. -/
def NameOf (mode : Bool) (starts : List String) (type name : String) : Prop :=
  if type = "release" then ReleaseName name else TypedName mode starts type name

theorem typePattern_matches (mode : Bool) (starts : List String) {type : String} (h : IsWord type) :
    ∃ tree, readPattern (typePattern mode (ticketsText starts) type) = .ok tree ∧
      MatchesLines tree (NameOf mode starts type) := by
  unfold NameOf
  by_cases htype : type = "release"
  · subst htype
    simp only [if_pos]
    exact typePattern_release mode (ticketsText starts)
  · simp only [if_neg htype]
    exact typePattern_typed mode starts h htype

theorem allowed_of_nameOf {type name : String} (htype : type ∈ types)
    (h : NameOf mode starts type name) : Allowed mode types starts name := by
  unfold NameOf at h
  by_cases hrelease : type = "release"
  · rw [if_pos hrelease] at h
    obtain ⟨numbers, rfl, hlength, hnumbers⟩ := h
    exact .release numbers (hrelease ▸ htype) hlength hnumbers
  · rw [if_neg hrelease] at h
    obtain ⟨number, rest, rfl, hnumber, hrest, hticket⟩ := h
    exact .typed type number rest htype hrelease hnumber hrest hticket

/-- A policy has patterns, and together they match exactly the allowed names. -/
theorem patternsOf_allowed (mode : Bool) (starts : List String) (hne : types ≠ [])
    (hwords : ∀ t ∈ types, IsWord t) (hfree : ∀ t ∈ types, t ≠ "version-type" ∧
    t ≠ "github-revert") :
    ∃ ps, patternsOf mode (ticketsText starts) types = .ok ps ∧ ∀ name :
    String, '\n' ∉ name.toList →
      ((∃ e ∈ ps, matchesAt e.2 name) ↔ Allowed mode types starts name) := by
  obtain ⟨versionFirst, hversion, hversionFirst⟩ := versionFirst_matches hne hwords
  obtain ⟨revert, hread, hrevert⟩ := revert_matches
  obtain ⟨ps, hps, hmem⟩ := mem_patternsOf
    (fun t ht => (typePattern_matches mode starts (hwords t ht)).imp fun _ h =>
    h.1) hversion hread hfree
  refine ⟨ps, hps, fun name hname => ⟨?_, fun h => ?_⟩⟩
  · rintro ⟨e, he, hmatches⟩
    -- each pattern gives its own form of name
    rcases (hmem e).mp he with ⟨htype, hholds⟩ | rfl | rfl
    · obtain ⟨tree, htree, hlines⟩ := typePattern_matches mode starts (hwords _ htype)
      have heq : e.2 = tree := Except.ok.inj (hholds.symm.trans htree)
      rw [heq] at hmatches
      exact allowed_of_nameOf htype ((hlines.iff hname).mp hmatches)
    · obtain ⟨number, type, description, rfl, hnumber, htype, hdescription⟩ :=
        (hversionFirst.iff hname).mp hmatches
      exact .versioned number type description hnumber htype hdescription
    · obtain ⟨number, description, rfl, hnumber, hdescription⟩ := (hrevert.iff hname).mp hmatches
      exact .revert number description hnumber hdescription
  · -- the pattern of the type, or of the form without one
    have hoftype : ∀ type ∈ types, NameOf mode starts type name → ∃ e ∈ ps, matchesAt e.2 name := by
      intro type htype hof
      obtain ⟨tree, htree, hlines⟩ := typePattern_matches mode starts (hwords type htype)
      exact ⟨(type, tree), (hmem _).mpr (.inl ⟨htype, htree⟩), hlines.complete hname hof⟩
    cases h with
    | release numbers htype hlength hnumbers =>
      exact hoftype "release" htype ((if_pos rfl).mpr ⟨numbers, rfl, hlength, hnumbers⟩)
    | typed type number rest htype hrelease hnumber hrest hticket =>
      refine hoftype type htype ?_
      unfold NameOf
      rw [if_neg hrelease]
      exact ⟨number, rest, rfl, hnumber, hrest, hticket⟩
    | versioned number type description hnumber htype hdescription =>
      exact ⟨_, (hmem _).mpr (.inr (.inl rfl)), hversionFirst.complete hname
        ⟨number, type, description, rfl, hnumber, htype, hdescription⟩⟩
    | revert number description hnumber hdescription =>
      exact ⟨_, (hmem _).mpr (.inr (.inr rfl)), hrevert.complete hname
        ⟨number, description, rfl, hnumber, hdescription⟩⟩

/-- **A policy accepts exactly the names of the grammar.**  It can be read; a name that is a single
    line and is not spared is valid exactly if it is allowed, and there is a verdict on it as long
    as the spared branches can be put in order for the message.  Without strict mode nothing depends
    on what tickets start with, and what is allowed in strict mode is allowed without it. -/
theorem judge_allowed {tickets : Datum} {strict : Option Bool} {es : List (Datum × Datum)}
    (h : InForce tickets strict es mode types starts) (hne : types ≠ [])
    (hwords : ∀ t ∈ types, IsWord t)
    (hfree : ∀ t ∈ types, t ≠ "version-type" ∧ t ≠ "github-revert") {spared : List Datum}
    (hspared : sparedOf ((Datum.lookupText "protected_patterns" es).getD (.list [])) = .ok spared) :
    ∃ p, Policy.ofSection tickets strict (.table es) = .ok p ∧
      ∀ name : String, '\n' ∉ name.toList → p.spares name = .ok false →
        ((∃ v, p.judge name = .ok v ∧ v.valid = true) ↔ Allowed mode types starts name) ∧
        ((∃ names, sparedNames p = .ok names) → ∃ v, p.judge name = .ok v) ∧
        (∀ others, Allowed false types starts name ↔ Allowed false types others name) ∧
        (Allowed true types starts name → Allowed false types starts name) := by
  obtain ⟨ps, hps, hallowed⟩ := patternsOf_allowed mode starts hne hwords hfree
  obtain ⟨p, hp, rfl, htypes, hstarts, -, -⟩ := ofSection_ok h hspared hps
  refine ⟨p, hp, fun name hname hnot => ⟨?_, ?_, fun others => ?_, fun hstrict =>
    hstrict.flexible starts⟩⟩
  · exact (judge_valid_iff hnot).trans (hallowed name hname)
  · rintro ⟨names, hnames⟩
    exact judge_ok htypes hstarts (startsOf_ne_nil starts) hnames hnot
  · exact ⟨fun hfree => hfree.flexible others, fun hfree => hfree.flexible starts⟩

/-- Settings with tickets, in strict mode. -/
def ticketSection : List (Datum × Datum) :=
  [(.text "strict", .bool true), (.text "ticket_prefixes", .list [.text "A.B"]),
    (.text "allowed_types", .list [.text "feature", .text "release"])]

theorem judge_allowed_ticketSection :
    ∃ p, Policy.ofSection .null none (.table ticketSection) = .ok p ∧
      p.spares "feature/17.0-A.B-7-x" = .ok false ∧
      ∃ v, p.judge "feature/17.0-A.B-7-x" = .ok v ∧ v.valid = true := by
  have hforce : InForce .null none ticketSection true ["feature", "release"] ["A.B"] := by
    refine ⟨?_, ?_, ?_⟩
    all_goals simp [ticketSection, modeOf, Datum.lookupText, Datum.lookup, Datum.same, Datum.truthy,
      textData]
  have hletters : ["feature", "release"].all (·.toList.all fun c => c.isAlpha || c == '-') =
    true := by decide +kernel
  have hwords : ∀ t ∈ ["feature", "release"], IsWord t := fun t ht c hc => by
    simpa using List.all_eq_true.mp (List.all_eq_true.mp hletters t ht) c hc
  have hnumber : IsNumber "7" ∧ IsNumber "17" :=
    ⟨⟨by decide, List.all_eq_true.mp (by decide +kernel)⟩,
      ⟨by decide, List.all_eq_true.mp (by decide +kernel)⟩⟩
  have hnone : Datum.lookupText "protected_patterns" ticketSection = none := by
    simp [ticketSection, Datum.lookupText, Datum.lookup, Datum.same]
  obtain ⟨p, hp, hjudge⟩ := judge_allowed hforce (List.cons_ne_nil _ _) hwords (by decide)
    (by rw [hnone]; rfl)
  have hrun : ((Policy.ofSection .null none (.table ticketSection)).bind
      (·.spares "feature/17.0-A.B-7-x")).toOption.map id = some false := by decide +kernel
  have hspares : p.spares "feature/17.0-A.B-7-x" = .ok false := by
    obtain ⟨b, hb, rfl⟩ := Traversal.ok_of_toOption_map hrun
    rwa [hp] at hb
  have hticket : HasTicket ["A.B"] "A.B-7-x" :=
    ⟨"A.B", "7", "x", by decide, (if_neg (by decide)).mpr (by decide), hnumber.1, by decide⟩
  have hallowed : Allowed true ["feature", "release"] ["A.B"] ("feature" ++ "/" ++ "17" ++ ".0-" ++
      "A.B-7-x") :=
    .typed "feature" "17" "A.B-7-x" (by decide) (by decide) hnumber.2 (by decide) fun _ => hticket
  exact ⟨p, hp, hspares, (hjudge _ (by decide) hspares).1.mpr hallowed⟩

end AddonAudit.Branch
