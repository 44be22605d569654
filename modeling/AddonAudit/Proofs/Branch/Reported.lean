/-
  AddonAudit.Proofs.Branch.Reported — the release version that is reported for a name.

  Whether a name is valid and which version it has are told apart from each other.  For a name with
  a standard type in front, the version is the first one after the slash.  Names of all types but
  releases have a version right there; the numbers of a release need not start with one.  For every
  name, it is the leftmost one.
-/
import AddonAudit.Proofs.Branch.Acceptance
import Mathlib.Data.List.TakeWhile

namespace AddonAudit.Branch

open List Traversal

open Text (isDecimal)

variable {cs : List Char}

/-! ## §1. Versions in texts. -/

theorem append_drop_takeWhile (p : Char → Bool) (cs : List Char) :
    cs.takeWhile p ++ cs.drop (cs.takeWhile p).length = cs := by
  nth_rewrite 4 [← take_append_drop (cs.takeWhile p).length cs]
  rw [← prefix_iff_eq_take.mp ( takeWhile_prefix p)]

/-- A version is at the front of a text if the text starts with a number and `.0`. -/
theorem versionAt?_eq_some_iff {v : String} :
    versionAt? cs = some v ↔ v.toList <+: cs ∧ ∃ number, v = number ++ ".0" ∧ IsNumber number := by
  constructor
  · intro h
    unfold versionAt? at h
    dsimp only at h
    split at h
    · rename_i c ds r hdigits hrest
      cases h
      have hall : ∀ d ∈ cs.takeWhile isDecimal, isDecimal d := fun d hd => mem_takeWhile_imp hd
      have hcs := append_drop_takeWhile isDecimal cs
      rw [hrest] at hcs
      refine ⟨⟨r, ?_⟩, _, rfl, fun hempty => ?_, by rwa [String.toList_ofList]⟩
      · rw [String.toList_append, String.toList_ofList, append_assoc]
        exact hcs
      · rw [String.ofList_eq.mp hempty] at hdigits
        cases hdigits
    · cases h
  · rintro ⟨⟨r, rfl⟩, number, rfl, hne, hall⟩
    have htake : ((number ++ ".0").toList ++ r).takeWhile isDecimal = number.toList := by
      have hstop : isDecimal '.' = false := by decide
      rw [String.toList_append, append_assoc, takeWhile_append_of_pos hall]
      simp [hstop]
    obtain ⟨c, ds, hcons⟩ := exists_cons_of_ne_nil (fun h => hne (String.toList_eq_nil_iff.mp h))
    unfold versionAt?
    dsimp only
    rw [htake, String.toList_append, append_assoc, drop_left]
    simp [hcons, ← String.toList_inj]

/-- **A version at the front is what the version pattern takes there.**  It takes one text at most,
    because the digits end where the dot is. -/
theorem versionAt?_iff_spans : ∃ tree, Pattern.read versionPattern = .ok tree ∧
    Pattern.isRegular tree ∧ ∀ cs v, versionAt? cs = some v ↔ ∃ after, cs = v.toList ++ after ∧
    Pattern.spans tree [] v.toList after := by
  obtain ⟨ts, ns, hp, hclause, hstands⟩ := form_version 1
  refine ⟨ns, hclause.read_eq hstands.regular hp, hstands.regular, fun cs v => ?_⟩
  rw [versionAt?_eq_some_iff]
  constructor
  · rintro ⟨⟨after, rfl⟩, number, rfl, hnumber⟩
    refine ⟨after, rfl, hstands.complete (fun hfeed => ?_) ⟨number, String.ofList_toList, hnumber⟩⟩
    rw [String.toList_append, mem_append] at hfeed
    rcases hfeed with hfeed | hfeed
    · exact absurd (hnumber.2 _ hfeed) (by decide)
    · exact absurd hfeed (by decide)
  · rintro ⟨after, rfl, hspans⟩
    obtain ⟨number, hv, hnumber⟩ := hstands.sound hspans
    rw [String.ofList_toList] at hv
    exact ⟨⟨after, rfl⟩, number, hv, hnumber⟩

/-- The version pattern matches where a version starts. -/
theorem matchesAt_version {tree : List Pattern.Node}
    (htree : Pattern.read versionPattern = .ok tree) (text : String) :
    Pattern.matchesAt tree text ↔ (versionAt? text.toList).isSome := by
  obtain ⟨tree', htree', hregular, hspans⟩ := versionAt?_iff_spans
  obtain rfl : tree' = tree := Except.ok.inj (htree'.symm.trans htree)
  rw [Pattern.matchesAt_iff hregular, Option.isSome_iff_exists]
  constructor
  · rintro ⟨mid, after, htext, h⟩
    exact ⟨String.ofList mid, (hspans _ _).mpr ⟨after, by simpa using htext, by simpa using h⟩⟩
  · rintro ⟨v, hv⟩
    obtain ⟨after, htext, h⟩ := (hspans _ _).mp hv
    exact ⟨v.toList, after, htext, h⟩

theorem versionAt?_cons_of_not_digit {c : Char} (h : isDecimal c = false) (cs : List Char) :
    versionAt? (c :: cs) = none := by
  simp [versionAt?, h]

/-- A version at the front is the first one. -/
theorem firstVersion?_of_versionAt? {v : String} (h : versionAt? cs = some v) :
    firstVersion? cs = some v := by
  cases cs with
  | nil => cases h
  | cons c cs => rw [firstVersion?, h, Option.some_or]

theorem firstVersion?_append (rest : List Char) (h : ∀ c ∈ cs, isDecimal c = false) :
    firstVersion? (cs ++ rest) = firstVersion? rest := by
  induction cs with
  | nil => rfl
  | cons c cs ih =>
    obtain ⟨hc, hcs⟩ := forall_mem_cons.mp h
    rw [cons_append, firstVersion?, versionAt?_cons_of_not_digit hc, Option.none_or, ih hcs]

/-- A text is cut at the first slash in one way only. -/
theorem append_slash_inj {a b x y : List Char} {c : Char} (ha : c ∉ a) (hb : c ∉ b)
    (h : a ++ c :: x = b ++ c :: y) : a = b ∧ x = y := by
  rcases append_eq_append_iff.mp h with ⟨z, rfl, h⟩ | ⟨z, rfl, h⟩
  · cases z <;> simp_all
  · cases z <;> simp_all

/-- What is looked for after a type is found after the slash. -/
theorem versionAfterType?_append (rest : List Char) {type : List Char} (hslash : '/' ∉ type) :
    versionAfterType? (type ++ '/' :: rest) = none ∨
    versionAfterType? (type ++ '/' :: rest) = versionAt? rest := by
  have happend := append_drop_takeWhile (fun c => 'a' ≤ c && c ≤ 'z') (type ++ '/' :: rest)
  unfold versionAfterType?
  dsimp only
  split
  · rename_i c word r hword hrest
    have hfree : '/' ∉ c :: word := fun hmem =>
      absurd (mem_takeWhile_imp (hword ▸ hmem)) (by decide)
    rw [hrest, hword] at happend
    rw [(append_slash_inj hfree hslash happend).2]
    exact .inr rfl
  · exact .inl rfl

/-- **The version of a name is the first one after the slash.** -/
theorem versionOf_typed {type : String} (hne : type ≠ "")
    (htype : ∀ c ∈ type.toList, isDecimal c = false ∧ c ≠ '/') (rest : String) :
    versionOf (type ++ "/" ++ rest) = firstVersion? rest.toList := by
  have hlist : (type ++ "/" ++ rest).toList = type.toList ++ '/' :: rest.toList := by simp
  have hdigits : ∀ c ∈ type.toList ++ ['/'], isDecimal c = false := by
    simp only [mem_append, mem_singleton]
    rintro c (hc | rfl)
    · exact (htype c hc).1
    · decide
  have hfirst : firstVersion? (type.toList ++ '/' :: rest.toList) = firstVersion? rest.toList := by
    have h := firstVersion?_append rest.toList hdigits
    rwa [append_assoc] at h
  have hfront : versionAt? (type.toList ++ '/' :: rest.toList) = none := by
    obtain ⟨c, cs, hcs⟩ := exists_cons_of_ne_nil (fun h =>
      hne (String.toList_eq_nil_iff.mp h) : type.toList ≠ [])
    rw [hcs, cons_append]
    exact versionAt?_cons_of_not_digit (htype c (by simp [hcs])).1 _
  unfold versionOf
  dsimp only
  rw [hlist, hfront, hfirst, Option.none_or]
  rcases versionAfterType?_append rest.toList (fun h => (htype _ h).2 rfl) with h | h
  · rw [h, Option.none_or]
  · rw [h]
    cases hversion : versionAt? rest.toList with
    | none => rfl
    | some v => rw [firstVersion?_of_versionAt? hversion, Option.some_or]

theorem exists_of_firstVersion? {v : String} (h : firstVersion? cs = some v) :
    ∃ cs', versionAt? cs' = some v := by
  induction cs with
  | nil => cases h
  | cons c cs ih =>
    rcases Option.or_eq_some_iff.mp h with h | ⟨-, h⟩
    · exact ⟨_, h⟩
    · exact ih h

/-- A version that is found is the start of the text exactly if there is one at the start. -/
theorem prefix_iff_of_firstVersion? {v : String} (h : firstVersion? cs = some v) :
    v.toList <+: cs ↔ (versionAt? cs).isSome := by
  constructor
  · intro hfront
    obtain ⟨_, hcs'⟩ := exists_of_firstVersion? h
    rw [versionAt?_eq_some_iff.mpr ⟨hfront, (versionAt?_eq_some_iff.mp hcs').2⟩]
    rfl
  · intro hsome
    obtain ⟨v', hv'⟩ := Option.isSome_iff_exists.mp hsome
    cases (firstVersion?_of_versionAt? hv').symm.trans h
    exact (versionAt?_eq_some_iff.mp hv').1

/-! ## §2. Names of standard types. -/

theorem standardTypes_letters :
    standardTypes.all (·.toList.all fun c => c.isAlpha || c == '-') = true := by
  decide +kernel

theorem standardTypes_words : ∀ t ∈ standardTypes, IsWord t := fun t ht c hc => by
  simpa using List.all_eq_true.mp (List.all_eq_true.mp standardTypes_letters t ht) c hc

/-- What stands before the slash has no digits and no slash. -/
theorem standardTypes_chars : ∀ t ∈ standardTypes, t ≠ "" ∧ ∀ c ∈ t.toList, isDecimal c = false ∧
    c ≠ '/' := by
  have hall : standardTypes.all (fun t => t != "" && t.toList.all fun c => !isDecimal c &&
      c != '/') = true := by
    decide +kernel
  intro t ht
  simpa using List.all_eq_true.mp hall t ht

/-- What follows the slash in a valid name. -/
theorem after_slash_of_matches {mode : Bool} {starts : List String} {type name : String}
    {tree : List Pattern.Node} (h : Pattern.MatchesLines tree (NameOf mode starts type))
    (hmatches : Pattern.matchesAt tree name) :
    ∃ rest, name = type ++ "/" ++ rest ∧ (type ≠ "release" → (versionAt? rest.toList).isSome) := by
  obtain ⟨text, hname, hof⟩ := h.sound hmatches
  obtain ⟨rest, rfl, hrest⟩ : ∃ rest, text = type ++ "/" ++ rest ∧ (type ≠ "release" →
      ∃ number tail, rest = number ++ ".0" ++ tail ∧ IsNumber number) := by
    unfold NameOf at hof
    split at hof
    · obtain ⟨numbers, rfl, -⟩ := hof
      rename_i htype
      exact ⟨".".intercalate numbers, by rw [htype]; rfl, fun hne => absurd htype hne⟩
    · obtain ⟨number, rest, rfl, hnumber, -⟩ := hof
      have hzero : ".0-" = ".0" ++ "-" := rfl
      exact ⟨number ++ ".0" ++ ("-" ++ rest), by simp only [hzero,
        String.append_assoc], fun _ => ⟨number, _, rfl, hnumber⟩⟩
  have hversion {number tail : String} (hnumber : IsNumber number) :
      (versionAt? (number ++ ".0" ++ tail).toList).isSome := by
    have hfront : (number ++ ".0").toList <+: (number ++ ".0" ++ tail).toList := by simp
    rw [versionAt?_eq_some_iff.mpr ⟨hfront, number, rfl, hnumber⟩]
    rfl
  rcases hname with rfl | rfl
  · refine ⟨rest, rfl, fun hne => ?_⟩
    obtain ⟨number, tail, rfl, hnumber⟩ := hrest hne
    exact hversion hnumber
  · refine ⟨rest ++ "\n", by rw [String.append_assoc], fun hne => ?_⟩
    obtain ⟨number, tail, rfl, hnumber⟩ := hrest hne
    rw [String.append_assoc]
    exact hversion hnumber

/-- **The reported version is the first one after the slash.**  It stands right there, unless the
    numbers of a release start otherwise. -/
theorem judge_reported {tickets : Datum} {strict : Option Bool} {es : List (Datum × Datum)}
    {mode : Bool} {starts : List String} (h : InForce tickets strict es mode standardTypes starts)
    {spared : List Datum}
    (hspared : sparedOf ((Datum.lookupText "protected_patterns" es).getD (.list [])) = .ok spared) :
    ∃ p, Policy.ofSection tickets strict (.table es) = .ok p ∧
      ∀ name type, p.spares name = .ok false → p.typeOf? name = some type → type ∈ standardTypes →
        ∃ rest, name = type ++ "/" ++ rest ∧ '/' ∉ type.toList ∧
          p.judge name = .ok (typedVerdict type name) ∧
          versionOf name = firstVersion? rest.toList ∧
          (∀ v, versionOf name = some v →
            (v.toList <+: rest.toList ↔ (versionAt? rest.toList).isSome)) ∧
          (type ≠ "release" → (versionAt? rest.toList).isSome) := by
  obtain ⟨versionFirst, hversion, -⟩ := versionFirst_matches (by decide) standardTypes_words
  obtain ⟨revert, hrevert, -⟩ := revert_matches
  obtain ⟨ps, hps, hmem⟩ := mem_patternsOf
    (fun t ht => (typePattern_matches mode starts (standardTypes_words t ht)).imp fun _ h =>
    h.1) hversion hrevert
    (by decide)
  obtain ⟨p, hp, rfl, -⟩ := ofSection_ok h hspared hps
  refine ⟨p, hp, fun name type hnot htype hstandard => ?_⟩
  obtain ⟨⟨type, tree⟩, hfind, rfl⟩ := Option.map_eq_some_iff.mp htype
  have hmatches := find?_some hfind
  dsimp only at hstandard htype hmatches ⊢
  obtain ⟨hne, hchars⟩ := standardTypes_chars _ hstandard
  -- the standard types do not include the names of the two other forms
  have hlines : Pattern.MatchesLines tree (NameOf mode starts type) := by
    rcases (hmem _).mp (mem_of_find?_eq_some hfind) with ⟨-, hholds⟩ | heq | heq
    · obtain ⟨tree', htree, hlines⟩ := typePattern_matches mode starts
        (standardTypes_words _ hstandard)
      exact (Except.ok.inj (hholds.symm.trans htree) : tree = tree') ▸ hlines
    · cases heq
      exact absurd hstandard (by decide)
    · cases heq
      exact absurd hstandard (by decide)
  obtain ⟨rest, rfl, hrest⟩ := after_slash_of_matches hlines hmatches
  have hof := versionOf_typed hne hchars rest
  refine ⟨rest, rfl, fun hslash => (hchars _ hslash).2 rfl, by rw [judge_eq hnot,
    htype], hof, fun v hv => ?_, hrest⟩
  exact prefix_iff_of_firstVersion? (hof.symm.trans hv)

theorem inForce_standard : InForce .null none [] false standardTypes [] := ⟨rfl, rfl, rfl⟩

theorem sparedOf_standard : sparedOf (.list []) = .ok (textData protectedPatterns) := rfl

theorem judge_reported_fix : ∃ p rest, Policy.ofSection .null none (.table []) = .ok p ∧
      p.judge "fix/18.0-up-to-2.0" = .ok (typedVerdict "fix" "fix/18.0-up-to-2.0") ∧
      "fix/18.0-up-to-2.0" = "fix" ++ "/" ++ rest ∧ (versionAt? rest.toList).isSome := by
  obtain ⟨p, hp, hjudge⟩ := judge_reported inForce_standard sparedOf_standard
  have hrun : (Policy.ofSection .null none (.table [])).toOption.map (fun p =>
      ((p.spares "fix/18.0-up-to-2.0").toOption, p.typeOf? "fix/18.0-up-to-2.0")) =
        some (some false, some "fix") := by
    decide +kernel
  rw [hp] at hrun
  have hspares : p.spares "fix/18.0-up-to-2.0" = .ok false := by
    obtain ⟨b, hb, rfl⟩ := ok_of_toOption_map
      ((congrFun Option.map_id _).trans (Prod.mk.inj (Option.some.inj hrun)).1)
    exact hb
  obtain ⟨rest, hname, -, hverdict, -, -, hversion⟩ :=
    hjudge _ "fix" hspares (Prod.mk.inj (Option.some.inj hrun)).2 (by decide)
  exact ⟨p, rest, hp, hverdict, hname, hversion (by decide)⟩

/-- **The version of a release may be found in its later numbers**: the standard policy accepts the
    release and tells a version that does not stand right after the slash. -/
theorem judge_late_version :
    ((Policy.ofSection .null none (.table [])).bind (·.judge "release/1.2.10.0")).toOption =
      some ⟨true, "Valid release branch for Odoo 10.0: release/1.2.10.0"⟩ := by
  decide +kernel

/-! ## §3. The first version in a name. -/

/-- A version stands behind the front of a text, from the start of a run of digits. -/
structure VersionBehind (cs front : List Char) (number : String) : Prop where
  digits : IsNumber number
  follows : front ++ (number ++ ".0").toList <+: cs
  /-- The run of digits does not reach into the front. -/
  starts : ∀ c ∈ front.getLast?, isDecimal c = false

variable {front : List Char} {number v : String} {c : Char}

theorem VersionBehind.versionAt? (h : VersionBehind cs front number) :
    versionAt? (cs.drop front.length) = some (number ++ ".0") := by
  obtain ⟨rest, rfl⟩ := h.follows
  rw [append_assoc, drop_left]
  exact versionAt?_eq_some_iff.mpr ⟨⟨rest, rfl⟩, number, rfl, h.digits⟩

/-- Where no version starts, versions stand behind one more character. -/
theorem versionBehind_cons_iff (hnone : versionAt? (c :: cs) = none) :
    VersionBehind (c :: cs) front number ↔ ∃ front', front = c :: front' ∧
    VersionBehind cs front' number := by
  constructor
  · intro h
    cases front with
    | nil => exact absurd (h.versionAt?.symm.trans hnone) (by simp)
    | cons d front =>
      obtain ⟨rfl, hfollows⟩ := cons_prefix_cons.mp h.follows
      refine ⟨front, rfl, h.digits, hfollows, fun x hx => h.starts x ?_⟩
      cases front with
      | nil => cases hx
      | cons e front => rwa [getLast?_cons_cons]
  · rintro ⟨front, rfl, h⟩
    refine ⟨h.digits, cons_prefix_cons.mpr ⟨rfl, h.follows⟩, fun x hx => ?_⟩
    cases front with
    | nil =>
      -- a digit in front of the number would be the first one of a version
      obtain rfl : c = x := by simpa using hx
      by_contra hdigit
      have hlonger : versionAt? (c :: cs) = some (String.ofList [c] ++ number ++ ".0") := by
        refine versionAt?_eq_some_iff.mpr ⟨?_, _, rfl, ?_, ?_⟩
        · simpa [String.append_assoc] using h.follows
        · simp
        · simpa using ⟨by simpa using hdigit, h.digits.2⟩
      rw [hnone] at hlonger
      cases hlonger
    | cons e front =>
      rw [getLast?_cons_cons] at hx
      exact h.starts x hx

/-- **The version that is found is the first one.** -/
theorem leftmost_of_firstVersion? (h : firstVersion? cs = some v) :
    ∃ front number, VersionBehind cs front number ∧ v = number ++ ".0" ∧
    ∀ front' number', VersionBehind cs front' number' → front.length ≤ front'.length := by
  induction cs with
  | nil => cases h
  | cons c cs ih =>
    rcases Option.or_eq_some_iff.mp h with h | ⟨hnone, h⟩
    · obtain ⟨hfront, number, rfl, hnumber⟩ := versionAt?_eq_some_iff.mp h
      exact ⟨[], number, ⟨hnumber, hfront, nofun⟩, rfl, fun _ _ _ => Nat.zero_le _⟩
    · obtain ⟨front, number, hbehind, rfl, hleast⟩ := ih h
      refine ⟨c :: front, number, (versionBehind_cons_iff hnone).mpr ⟨front, rfl, hbehind⟩, rfl, ?_⟩
      intro front' number' h'
      obtain ⟨rest, rfl, hrest⟩ := (versionBehind_cons_iff hnone).mp h'
      exact Nat.succ_le_succ (hleast rest number' hrest)

theorem firstVersion?_ne_none (h : VersionBehind cs front number) : firstVersion? cs ≠ none := by
  induction cs generalizing front with
  | nil => exact absurd h.versionAt? (by simp [Branch.versionAt?])
  | cons c cs ih =>
    rw [firstVersion?, ne_eq, Option.or_eq_none_iff]
    rintro ⟨hnone, hrest⟩
    obtain ⟨front', rfl, hbehind⟩ := (versionBehind_cons_iff hnone).mp h
    exact ih hbehind hrest

/-- Small letters are no digits. -/
theorem isDecimal_of_small (h : ('a' ≤ c && c ≤ 'z') = true) : isDecimal c = false := by
  rw [Bool.and_eq_true, decide_eq_true_eq, decide_eq_true_eq] at h
  have hlow : 97 ≤ c.toNat := h.1
  have hhigh : c.toNat ≤ 122 := h.2
  rw [Text.isDecimal_ascii (by omega), Char.isDigit, Bool.and_eq_false_iff]
  right
  rw [decide_eq_false_iff_not]
  exact fun hdigit => absurd (show c.toNat ≤ 57 from hdigit) (by omega)

theorem firstVersion?_of_versionAfterType? (h : versionAfterType? cs = some v) :
    firstVersion? cs = some v := by
  have happend := append_drop_takeWhile (fun c => 'a' ≤ c && c ≤ 'z') cs
  have hletters : ∀ c ∈ cs.takeWhile fun c => 'a' ≤ c && c ≤ 'z', isDecimal c = false :=
    fun c hc => isDecimal_of_small (mem_takeWhile_imp (p := fun c => decide ('a' ≤ c) &&
      decide (c ≤ 'z')) hc)
  unfold versionAfterType? at h
  dsimp only at h
  split at h
  · rename_i rest hword hrest
    rw [hrest] at happend
    rw [← happend, firstVersion?_append _ hletters, firstVersion?,
      versionAt?_cons_of_not_digit (by decide), Option.none_or, firstVersion?_of_versionAt? h]
  · cases h

/-- **The version of a name is the first one in it**: the leftmost run of digits, from its start,
    that `.0` follows.  What is looked for at the start and after a type is found by that search as
    well. -/
theorem versionOf_leftmost (name : String) :
    versionOf name = firstVersion? name.toList ∧
    (∀ v, versionAt? name.toList = some v ∨ versionAfterType? name.toList = some v →
      firstVersion? name.toList = some v) ∧
    (∀ v, versionOf name = some v ↔
      ∃ front number, VersionBehind name.toList front number ∧ v = number ++ ".0" ∧
        ∀ front' number', VersionBehind name.toList front' number' →
          front.length ≤ front'.length) ∧
    (versionOf name = none ↔ ∀ front number, ¬ VersionBehind name.toList front number) := by
  have hshort : ∀ v, versionAt? name.toList = some v ∨ versionAfterType? name.toList = some v →
      firstVersion? name.toList = some v := by
    rintro v (h | h)
    · exact firstVersion?_of_versionAt? h
    · exact firstVersion?_of_versionAfterType? h
  have hof : versionOf name = firstVersion? name.toList := by
    unfold versionOf
    dsimp only
    cases hfront : versionAt? name.toList with
    | some v => rw [Option.some_or, Option.some_or, hshort v (.inl hfront)]
    | none =>
      rw [Option.none_or]
      cases htype : versionAfterType? name.toList with
      | some v => rw [Option.some_or, hshort v (.inr htype)]
      | none => rfl
  refine ⟨hof, hshort, fun v => ?_, ?_⟩
  · rw [hof]
    refine ⟨leftmost_of_firstVersion?, ?_⟩
    rintro ⟨front, number, hbehind, rfl, hleast⟩
    obtain ⟨v, hv⟩ := Option.ne_none_iff_exists'.mp (firstVersion?_ne_none hbehind)
    obtain ⟨front', number', hbehind', rfl, hleast'⟩ := leftmost_of_firstVersion? hv
    have hlength := Nat.le_antisymm (hleast _ _ hbehind') (hleast' _ _ hbehind)
    have hsame := hbehind.versionAt?
    rw [hlength, hbehind'.versionAt?] at hsame
    rw [hv, hsame]
  · rw [hof]
    constructor
    · exact fun hnone front number hbehind => firstVersion?_ne_none hbehind hnone
    · intro hnot
      cases hv : firstVersion? name.toList with
      | none => rfl
      | some v =>
        obtain ⟨front, number, hbehind, -⟩ := leftmost_of_firstVersion? hv
        exact absurd hbehind (hnot front number)

end AddonAudit.Branch
