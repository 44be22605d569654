/-
  AddonAudit.Proofs.Branch.Grammar — the names that the patterns of a policy match.

  The names of branches have a grammar: a release, a type before a version, a type after a version,
  or a revert.  Each pattern of a policy matches the names of one of these forms, whatever the types
  and tickets are.
-/
import AddonAudit.Branch.Policy
import AddonAudit.Proofs.Pattern.Form

namespace AddonAudit.Branch

open List String Pattern

open Pattern (Form Joined IsRunOf MatchesLines)

/-! ## §1. The grammar. -/

/-- Whether a text is a number: decimal digits, one at least. -/
def IsNumber (text : String) : Prop := IsRunOf Text.isDecimal text

/-- Whether a ticket may start with a text: with any capital letters if nothing else is asked
    for. -/
def StartsTicket (tickets : List String) (text : String) : Prop :=
  if tickets = [] ∨ tickets = ["[A-Z]+"] then IsRunOf (fun c => 'A' ≤ c &&
    c ≤ 'Z') text else text ∈ tickets

/-- Whether a text is a ticket and a description. -/
def HasTicket (tickets : List String) (text : String) : Prop :=
  ∃ start number description, text = start ++ "-" ++ number ++ "-" ++ description ∧
    StartsTicket tickets start ∧ IsNumber number ∧ description ≠ ""

/-- The names that are allowed. -/
inductive Allowed (strict : Bool) (types tickets : List String) : String → Prop
  /-- A release and the numbers of its version. -/
  | release (numbers : List String) (htype : "release" ∈ types) (hlength : 2 ≤ numbers.length)
      (hnumbers : ∀ n ∈ numbers, IsNumber n) :
      Allowed strict types tickets ("release/" ++ ".".intercalate numbers)
  /-- A type before a version; in strict mode a ticket follows. -/
  | typed (type number rest : String) (htype : type ∈ types) (hne : type ≠ "release")
      (hnumber : IsNumber number) (hrest : rest ≠ "") (hticket : strict = true →
      HasTicket tickets rest) :
      Allowed strict types tickets (type ++ "/" ++ number ++ ".0-" ++ rest)
  /-- A version before a type. -/
  | versioned (number type description : String) (hnumber : IsNumber number) (htype : type ∈ types)
      (hdescription : description ≠ "") : Allowed strict types tickets (number ++ ".0-" ++ type ++
      "-" ++ description)
  | revert (number description : String) (hnumber : IsNumber number) (hdescription : description ≠
      "") : Allowed strict types tickets ("revert-" ++ number ++ "-" ++ description)

variable {tickets : List String} {S : String → Prop} {g g' : Nat} {pattern type : String}

theorem HasTicket.ne_empty {text : String} (h : HasTicket tickets text) : text ≠ "" := by
  obtain ⟨start, number, description, rfl, -, -, hne⟩ := h
  intro heq
  exact hne (append_eq_empty_iff.mp heq).2

/-- Without tickets to check, nothing depends on what tickets start with. -/
theorem Allowed.flexible {strict : Bool} {types : List String} {name : String}
    (h : Allowed strict types tickets name) (others : List String) :
    Allowed false types others name := by
  cases h with
  | release numbers htype hlength hnumbers => exact .release numbers htype hlength hnumbers
  | typed type number rest htype hne hnumber hrest _ =>
    exact .typed type number rest htype hne hnumber hrest nofun
  | versioned number type description hnumber htype hdescription =>
    exact .versioned number type description hnumber htype hdescription
  | revert number description hnumber hdescription =>
    exact .revert number description hnumber hdescription

/-! ## §2. Tickets. -/

/-- The pattern of tickets that may start with some texts. -/
def ticketsText (tickets : List String) : String :=
  if tickets = [] ∨ tickets = ["[A-Z]+"] then anyTicket
  else "(" ++ "|".intercalate (tickets.map Pattern.quote) ++ ")"

/-- **The pattern of tickets stands for what tickets may start with.** -/
theorem form_tickets (tickets : List String) (g : Nat) :
    ∃ g', Form g g' (ticketsText tickets) (StartsTicket tickets) := by
  unfold ticketsText StartsTicket
  by_cases hany : tickets = [] ∨ tickets = ["[A-Z]+"]
  · simp only [if_pos hany]
    exact ⟨g, form_capitals g⟩
  · simp only [if_neg hany]
    have hne : tickets ≠ [] := fun h => hany (.inl h)
    have hform := (choices_intercalate (g + 1) hne fun t _ => form_quote (g + 1) t).form
    exact ⟨g + 1, hform.congr fun text => by simp⟩

/-! ## §3. Versions and tickets. -/

theorem form_version (g : Nat) : Form g g versionPattern fun text => ∃ n, text = n ++ ".0" ∧
    IsNumber n := by
  have hform := (form_digits g).append
    ((form_quote g ".").append (form_text g (by decide : "0".toList.all _)))
  refine hform.congr fun text => ?_
  constructor
  · rintro ⟨n, _, rfl, hn, _, _, rfl, rfl, rfl⟩
    exact ⟨n, rfl, hn⟩
  · rintro ⟨n, rfl, hn⟩
    exact ⟨n, _, rfl, hn, _, _, rfl, rfl, rfl⟩

/-- A dash stands for itself. -/
theorem form_dash (g : Nat) : Form g g "-" (· = "-") := form_text g (by decide)

/-- A version and what follows it. -/
def Versioned (S : String → Prop) (text : String) : Prop :=
  ∃ number rest, text = number ++ ".0-" ++ rest ∧ IsNumber number ∧ S rest

theorem form_versioned (h : Form g g' pattern S) :
    Form g g' (versionPattern ++ "-" ++ pattern) (Versioned S) := by
  have hzero : ".0-" = ".0" ++ "-" := rfl
  refine (((form_version g).append (form_dash g)).append h).congr fun text => ?_
  constructor
  · rintro ⟨_, rest, rfl, ⟨_, _, rfl, ⟨n, rfl, hn⟩, rfl⟩, hrest⟩
    exact ⟨n, rest, by rw [hzero, ← String.append_assoc], hn, hrest⟩
  · rintro ⟨n, rest, rfl, hn, hrest⟩
    exact ⟨_, rest, rfl, ⟨n ++ ".0", "-", by rw [hzero, ← String.append_assoc], ⟨n, rfl, hn⟩, rfl⟩,
      hrest⟩

theorem form_described (h : Form g g' pattern S) :
    Form g g' (pattern ++ "-.+") fun text => ∃ start description, text = start ++ "-" ++
    description ∧ S start ∧
      description ≠ "" := by
  refine (h.append ((form_dash g').append (form_rest g'))).congr fun text => ?_
  constructor
  · rintro ⟨start, _, rfl, hstart, _, description, rfl, rfl, hne⟩
    exact ⟨start, description, (String.append_assoc ..).symm, hstart, hne⟩
  · rintro ⟨start, description, rfl, hstart, hne⟩
    exact ⟨start, _, append_assoc .., hstart, _, description, rfl, rfl, hne⟩

theorem form_hasTicket (h : Form g g' pattern (StartsTicket tickets)) :
    Form g g' (pattern ++ "-\\d+-.+") (HasTicket tickets) := by
  have hform := form_described (h.append ((form_dash g').append (form_digits g')))
  have hpattern : pattern ++ ("-" ++ "\\d+") ++ "-.+" = pattern ++ "-\\d+-.+" := append_assoc ..
  rw [hpattern] at hform
  refine hform.congr fun text => ?_
  constructor
  · rintro ⟨_, description, rfl, ⟨start, _, rfl, hstart, _, number, rfl, rfl, hnumber⟩, hne⟩
    exact ⟨start, number, description, by rw [← String.append_assoc], hstart, hnumber, hne⟩
  · rintro ⟨start, number, description, rfl, hstart, hnumber, hne⟩
    exact ⟨_, description, rfl, ⟨start, _, append_assoc .., hstart, _, number, rfl, rfl, hnumber⟩,
      hne⟩

/-! ## §4. Types. -/

/-- The name of a type may hold letters and dashes. -/
def IsWord (type : String) : Prop := ∀ c ∈ type.toList, c.isAlpha = true ∨ c = '-'

theorem form_word (h : IsWord type) (g : Nat) : Form g g type (· = type) := by
  refine form_text g (all_eq_true.mpr fun c hc => ?_)
  have hall : ".\\[\x7b()*+?^$|".toList.all (fun d => !(d.isAlpha || d == '-')) := by decide
  unfold isPlainToken
  rw [Bool.not_eq_true', Bool.eq_false_iff]
  intro hmem
  have hother := all_eq_true.mp hall c (contains_iff_mem.mp hmem)
  rcases h c hc with hc | rfl
  · rw [hc] at hother
    cases hother
  · cases hother

/-- What follows a type and a slash. -/
theorem form_slash (htype : IsWord type) (h : Form 1 g' pattern S) :
    Form 1 g' (type ++ "/" ++ pattern) fun text => ∃ rest, text = type ++ "/" ++ rest ∧ S rest := by
  have hslash : Form 1 1 "/" (· = "/") := form_text 1 (by decide)
  refine (((form_word htype 1).append hslash).append h).congr fun text => ?_
  constructor
  · rintro ⟨_, rest, rfl, ⟨_, _, rfl, rfl, rfl⟩, hrest⟩
    exact ⟨rest, rfl, hrest⟩
  · rintro ⟨rest, rfl, hrest⟩
    exact ⟨_, rest, rfl, ⟨type, "/", rfl, rfl, rfl⟩, hrest⟩

theorem readPattern_of_form (h : Form 1 g pattern S) :
    ∃ tree, readPattern ("^" ++ pattern ++ "$") = .ok tree ∧ MatchesLines tree S := by
  obtain ⟨tree, hread, hmatches⟩ := h.matches
  refine ⟨tree, ?_, hmatches⟩
  unfold readPattern
  rw [hread]
  rfl

/-- The names of a type. -/
def TypedName (strict : Bool) (tickets : List String) (type name : String) : Prop :=
  ∃ number rest, name = type ++ "/" ++ number ++ ".0-" ++ rest ∧ IsNumber number ∧ rest ≠ "" ∧
    (strict = true → HasTicket tickets rest)

theorem typePattern_eq {strict : Bool} {tickets : String} (hne : type ≠ "release") :
    typePattern strict tickets type =
      if strict then "^" ++ type ++ "/" ++ (versionPattern ++ "-" ++ tickets ++ "-\\d+-.+") ++ "$"
      else "^" ++ type ++ "/(" ++ (versionPattern ++ "-" ++ tickets ++ "-\\d+-.+") ++ "|" ++
      versionPattern ++
        "-.+)$" := by
  unfold typePattern
  rw [if_neg (by simpa using hne)]

/-- **The pattern of a type other than release.** -/
theorem typePattern_typed (strict : Bool) (tickets : List String) (htype : IsWord type)
    (hne : type ≠ "release") :
    ∃ tree, readPattern (typePattern strict (ticketsText tickets) type) = .ok tree ∧
      MatchesLines tree (TypedName strict tickets type) := by
  cases strict with
  | true =>
    obtain ⟨g, htickets⟩ := form_tickets tickets 1
    have hform := form_slash htype (form_versioned (form_hasTicket htickets))
    have hpattern : typePattern true (ticketsText tickets) type
        = "^" ++ (type ++ "/" ++ (versionPattern ++ "-" ++ (ticketsText tickets ++ "-\\d+-.+"))) ++
        "$" := by
      rw [typePattern_eq hne]
      simp only [String.append_assoc]
      rfl
    rw [hpattern]
    refine readPattern_of_form (hform.congr fun name => ?_)
    constructor
    · rintro ⟨_, rfl, n, rest, rfl, hn, hrest⟩
      exact ⟨n, rest, by simp only [String.append_assoc], hn, hrest.ne_empty, fun _ => hrest⟩
    · rintro ⟨n, rest, rfl, hn, -, hrest⟩
      exact ⟨_, by simp only [String.append_assoc], n, rest, rfl, hn, hrest rfl⟩
  | false =>
    obtain ⟨g, htickets⟩ := form_tickets tickets 2
    have hform := form_slash htype ((form_versioned (form_hasTicket htickets)).or
      (form_versioned (form_rest g)).choice).form
    have hslash : "/(" = "/" ++ "(" := rfl
    have hpattern : typePattern false (ticketsText tickets) type
        = "^" ++ (type ++ "/" ++ ("(" ++ (versionPattern ++ "-" ++
        (ticketsText tickets ++ "-\\d+-.+") ++ "|" ++
          (versionPattern ++ "-" ++ ".+")) ++ ")")) ++ "$" := by
      rw [typePattern_eq hne, hslash]
      simp only [String.append_assoc]
      rfl
    rw [hpattern]
    refine readPattern_of_form (hform.congr fun name => ?_)
    -- what has a ticket has a description, so the first option allows nothing more
    constructor
    · rintro ⟨_, rfl, ⟨n, rest, rfl, hn, hrest⟩ | ⟨n, rest, rfl, hn, hrest⟩⟩
      · exact ⟨n, rest, by simp only [String.append_assoc], hn, hrest.ne_empty, nofun⟩
      · exact ⟨n, rest, by simp only [String.append_assoc], hn, hrest, nofun⟩
    · rintro ⟨n, rest, rfl, hn, hrest, -⟩
      exact ⟨_, by simp only [String.append_assoc], .inr ⟨n, rest, rfl, hn, hrest⟩⟩

/-- The names of releases. -/
def ReleaseName (name : String) : Prop :=
  ∃ numbers : List String, name = "release/" ++ ".".intercalate numbers ∧ 2 ≤ numbers.length ∧
    ∀ n ∈ numbers, IsNumber n

theorem intercalate_point (n : String) (ns : List String) :
    ".".intercalate (n :: ns) = n ++ join (ns.map ("." ++ ·)) := by
  induction ns generalizing n with
  | nil => simp
  | cons m ns ih =>
    rw [String.intercalate_cons_cons, ih, map_cons, String.join_cons, String.append_assoc,
      String.append_assoc]

/-- A point and a number, as often as one likes. -/
theorem exists_numbers {ws : List String} (h : ∀ w ∈ ws, Joined (· = ".") IsNumber w) :
    ∃ ns : List String, ws = ns.map ("." ++ ·) ∧ ∀ n ∈ ns, IsNumber n := by
  induction ws with
  | nil => exact ⟨[], rfl, by simp⟩
  | cons w ws ih =>
    obtain ⟨⟨_, n, rfl, rfl, hn⟩, hws⟩ := forall_mem_cons.mp h
    obtain ⟨ns, rfl, hns⟩ := ih hws
    exact ⟨n :: ns, rfl, forall_mem_cons.mpr ⟨hn, hns⟩⟩

/-- Points and numbers after them. -/
theorem form_points (g : Nat) : Form g (g + 1) "(\\.\\d+)*" (Many (Joined (· = ".") IsNumber)) := by
  have hnumber := (atom_digit (g + 1)).many rfl (.inl ⟨rfl, rfl⟩)
  have hpattern : "(\\.\\d+)*" = "(" ++ "\\.\\d+" ++ ")*" := rfl
  rw [hpattern]
  exact form_many ((clause_quote (g + 1) ".").append hnumber)
    ((stands_literals ".").append oneOf_digit.stands) (by decide) (by decide)

theorem form_release : Form 1 2 "release/\\d+\\.\\d+(\\.\\d+)*" ReleaseName := by
  have hrelease : Form 1 1 "release/" (· = "release/") := form_text 1 (by decide)
  have hform := hrelease.append ((form_digits 1).append ((form_quote 1 ".").append
    ((form_digits 1).append (form_points 1))))
  refine hform.congr fun name => ?_
  constructor
  · rintro ⟨_, _, rfl, rfl, n, _, rfl, hn, _, _, rfl, rfl, m, _, rfl, hm, ws, rfl, hws⟩
    obtain ⟨ns, rfl, hns⟩ := exists_numbers hws
    refine ⟨n :: m :: ns, ?_, by simp, ?_⟩
    · rw [intercalate_point, map_cons, String.join_cons, String.append_assoc]
    · exact forall_mem_cons.mpr ⟨hn, forall_mem_cons.mpr ⟨hm, hns⟩⟩
  · rintro ⟨numbers, rfl, hlength, hnumbers⟩
    match numbers, hlength, hnumbers with
    | n :: m :: ns, _, hnumbers =>
      obtain ⟨hn, hrest⟩ := forall_mem_cons.mp hnumbers
      obtain ⟨hm, hns⟩ := forall_mem_cons.mp hrest
      rw [intercalate_point, map_cons, String.join_cons, String.append_assoc]
      refine ⟨_, _, rfl, rfl, n, _, rfl, hn, _, _, rfl, rfl, m, _, rfl, hm, _, rfl, fun w hw => ?_⟩
      obtain ⟨k, hk, rfl⟩ := mem_map.mp hw
      exact ⟨".", k, rfl, rfl, hns k hk⟩

/-- **The pattern of releases.** -/
theorem typePattern_release (strict : Bool) (tickets : String) :
    ∃ tree, readPattern (typePattern strict tickets "release") = .ok tree ∧
    MatchesLines tree ReleaseName := by
  have hpattern : typePattern strict tickets "release" = "^" ++ "release/\\d+\\.\\d+(\\.\\d+)*" ++
      "$" := by
    unfold typePattern
    rw [if_pos (by decide)]
    rfl
  rw [hpattern]
  exact readPattern_of_form form_release

/-! ## §5. Forms without a type in front. -/

/-- **The pattern of names that start with a version.** -/
theorem versionFirst_matches {types : List String} (hne : types ≠ []) (h : ∀ t ∈ types, IsWord t) :
    ∃ tree, readPattern ("^" ++ versionPattern ++ "-(" ++ "|".intercalate types ++
    ")-.+$") = .ok tree ∧
      MatchesLines tree fun name => ∃ number type description,
        name = number ++ ".0-" ++ type ++ "-" ++ description ∧ IsNumber number ∧ type ∈ types ∧
        description ≠ "" := by
  have htypes := (choices_intercalate 2 hne fun t ht => form_word (h t ht) 2).form
  rw [map_id'] at htypes
  have hform := form_versioned (form_described htypes)
  have hopen : "-(" = "-" ++ "(" := rfl
  have hpattern : "^" ++ versionPattern ++ "-(" ++ "|".intercalate types ++ ")-.+$"
      = "^" ++ (versionPattern ++ "-" ++ ("(" ++ "|".intercalate types ++ ")" ++ "-.+")) ++
      "$" := by
    rw [hopen]
    simp only [String.append_assoc]
    rfl
  rw [hpattern]
  refine readPattern_of_form (hform.congr fun name => ?_)
  constructor
  · rintro ⟨n, _, rfl, hn, type, description, rfl, ⟨_, htype, rfl⟩, hdescription⟩
    exact ⟨n, type, description, by simp only [String.append_assoc], hn, htype, hdescription⟩
  · rintro ⟨n, type, description, rfl, hn, htype, hdescription⟩
    exact ⟨n, type ++ "-" ++
      description, by simp only [String.append_assoc], hn, type, description, rfl, ⟨type, htype,
      rfl⟩, hdescription⟩

/-- **The pattern of reverts.** -/
theorem revert_matches : ∃ tree, readPattern "^revert-\\d+-.+$" = .ok tree ∧
    MatchesLines tree fun name => ∃ number description,
      name = "revert-" ++ number ++ "-" ++ description ∧ IsNumber number ∧ description ≠ "" := by
  have hrevert : Form 1 1 "revert-" (· = "revert-") := form_text 1 (by decide)
  have hform := form_described (hrevert.append (form_digits 1))
  have hpattern : "^revert-\\d+-.+$" = "^" ++ ("revert-" ++ "\\d+" ++ "-.+") ++ "$" := rfl
  rw [hpattern]
  refine readPattern_of_form (hform.congr fun name => ?_)
  constructor
  · rintro ⟨_, description, rfl, ⟨_, n, rfl, rfl, hn⟩, hdescription⟩
    exact ⟨n, description, rfl, hn, hdescription⟩
  · rintro ⟨n, description, rfl, hn, hdescription⟩
    exact ⟨_, description, rfl, ⟨_, n, rfl, rfl, hn⟩, hdescription⟩

end AddonAudit.Branch
