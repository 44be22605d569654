/-
  AddonAudit.Proofs.Settings.Entries — what settings take from their entries.

  A key whose value was taken away is not a key that is missing.  Only the branch and the release
  version are then left open.  The scope, the length of docstrings and the paths to leave out are
  set to no value, and where a set or a table is needed there are no settings at all.  The methods
  that need no docstring always have the standard ones among them, so that a check that adds them
  once more works with the same set.
-/
import AddonAudit.Proofs.Yaml.Values
import AddonAudit.Settings

namespace AddonAudit

open Traversal (bind_ok_iff)

/-! ## §1. Entries. -/

/-- The value of a key, or a default. -/
def entryOf (es : List (Datum × Datum)) (key : String) (default : Datum) : Datum :=
  (Datum.lookupText key es).getD default

/-- What settings take from entries. -/
structure Settings.Taken (es : List (Datum × Datum)) (s : Settings) : Prop where
  release : releaseOf (entryOf es "odoo_version" (.text "auto")) = .ok s.release
  severities : severitiesOf (entryOf es "severity" (.table [])) = .ok s.severities
  blocking : blockingOf (entryOf es "blocking_severities" (.list [.text "error"])) = .ok s.blocking
  disabled : (entryOf es "disabled_checks" (.list [])).setOf = .ok s.disabled
  skipLabel : (entryOf es "skip_string_fields" (.set (textData defaultSkipLabel))).setOf
    = .ok s.skipLabel
  skipHelp : (entryOf es "skip_help_fields" (.set (textData defaultSkipHelp))).setOf
    = .ok s.skipHelp
  skipDocstring : ∃ more, (entryOf es "skip_docstring_methods" (.list [])).setOf = .ok more ∧
    s.skipDocstring = unite more (textData defaultSkipDocstring)
  scope : s.scope = entryOf es "validation_scope" (.text "changed")
  minDocstring : s.minDocstring = entryOf es "min_docstring_length" (.int 10)
  excludes : s.excludes = entryOf es "exclude_paths" (.list (textData defaultExcludes))

variable {keys : List String} {es : List (Datum × Datum)} {s : Settings}

theorem Settings.taken_of_ofEntries (h : Settings.ofEntries es = .ok s) : s.Taken es := by
  unfold Settings.ofEntries at h
  obtain ⟨_, hrelease, h⟩ := bind_ok_iff.mp h
  obtain ⟨_, hseverities, h⟩ := bind_ok_iff.mp h
  obtain ⟨_, hblocking, h⟩ := bind_ok_iff.mp h
  obtain ⟨_, hdisabled, h⟩ := bind_ok_iff.mp h
  obtain ⟨_, hlabel, h⟩ := bind_ok_iff.mp h
  obtain ⟨_, hhelp, h⟩ := bind_ok_iff.mp h
  obtain ⟨more, hmore, h⟩ := bind_ok_iff.mp h
  have hs := Except.ok.inj h
  have hskip : s.skipDocstring = unite more (textData defaultSkipDocstring) := by rw [← hs]
  subst hs
  exact ⟨hrelease, hseverities, hblocking, hdisabled, hlabel, hhelp, ⟨more, hmore, hskip⟩, rfl, rfl,
    rfl⟩

theorem unite_cons (x : Datum) (a b : List Datum) :
    unite a (x :: b) = unite (Datum.addMember x a) b := rfl

/-- What a set has stays in it. -/
theorem any_addMember {p : Datum → Bool} {a : List Datum} (x : Datum) (h : a.any p) :
    (Datum.addMember x a).any p := by
  unfold Datum.addMember
  split
  · exact h
  · rw [List.any_append, h, Bool.true_or]

theorem any_unite {p : Datum → Bool} {a : List Datum} (b : List Datum) (h : a.any p) :
    (unite a b).any p := by
  induction b generalizing a with
  | nil => exact h
  | cons x b ih => exact ih (any_addMember x h)

theorem any_addMember_text (t : String) (a : List Datum) :
    (Datum.addMember (.text t) a).any (·.same (.text t)) := by
  unfold Datum.addMember
  split
  · assumption
  · simp [Datum.same]

theorem unite_of_any {a b : List Datum} (h : ∀ x ∈ b, a.any (·.same x)) : unite a b = a := by
  induction b with
  | nil => rfl
  | cons x b ih =>
    rw [List.forall_mem_cons] at h
    rw [unite_cons, Datum.addMember, if_pos h.1, ih h.2]

/-- Texts that were added are not added again. -/
theorem unite_unite (a : List Datum) (texts : List String) :
    unite (unite a (textData texts)) (textData texts) = unite a (textData texts) := by
  refine unite_of_any fun x hx => ?_
  induction texts generalizing a with
  | nil => cases hx
  | cons t texts ih =>
    rcases List.mem_cons.mp hx with rfl | hx
    · exact any_unite (textData texts) (any_addMember_text t a)
    · exact ih _ hx

/-- **The checks on models need not add the standard methods**: settings that were read have
    them. -/
theorem unite_skipDocstring (h : Settings.ofEntries es = .ok s) :
    unite s.skipDocstring (textData defaultSkipDocstring) = s.skipDocstring := by
  obtain ⟨more, -, heq⟩ := (Settings.taken_of_ofEntries h).skipDocstring
  rw [heq, unite_unite]

/-! ## §2. Keys that are emptied or left out. -/

/-- The entries with some keys set to no value. -/
def emptied (keys : List String) (es : List (Datum × Datum)) : List (Datum × Datum) :=
  keys.foldr (fun k es => Datum.insert (.text k) .null es) es

/-- The entries without some keys. -/
def without (keys : List String) (es : List (Datum × Datum)) : List (Datum × Datum) :=
  es.filter fun e => !keys.any fun k => e.1.same (.text k)

theorem lookupText_emptied (key : String) :
    Datum.lookupText key (emptied keys es)
      = if key ∈ keys then some .null else Datum.lookupText key es := by
  induction keys with
  | nil => rfl
  | cons k keys ih =>
    rw [emptied, List.foldr_cons, Datum.lookupText_insert, ← emptied, ih]
    by_cases hk : k = key
    · simp [hk, Datum.same]
    · simp [hk, Ne.symm hk, Datum.same]

theorem lookupText_without (key : String) :
    Datum.lookupText key (without keys es)
      = if key ∈ keys then none else Datum.lookupText key es := by
  unfold Datum.lookupText without
  induction es with
  | nil => simp [Datum.lookup]
  | cons e es ih =>
    obtain ⟨k, v⟩ := e
    rw [List.filter_cons, Datum.lookup]
    by_cases hk : k.same (.text key)
    · -- the entry is left out exactly if its key is
      have hout : (keys.any fun k' => k.same (.text k')) = decide (key ∈ keys) := by
        rw [Datum.same_text_iff.mp hk, Bool.eq_iff_iff]
        simp [Datum.same]
      rw [hout, if_pos hk]
      by_cases hmem : key ∈ keys
      · rw [if_neg (by simp [hmem]), ih, if_pos hmem, if_pos hmem]
      · rw [if_pos (by simp [hmem]), Datum.lookup, if_pos hk, if_neg hmem]
    · rw [if_neg hk, ← ih]
      split
      · rw [Datum.lookup, if_neg hk]
      · rfl

/-! ## §3. Settings without a value. -/

/-- Keys whose value has to be a set or a table. -/
def containerKeys : List String :=
  ["severity", "blocking_severities", "disabled_checks", "skip_string_fields", "skip_help_fields",
   "skip_docstring_methods"]

/-- Keys whose value is taken as it is. -/
def valueKeys : List String := ["validation_scope", "min_docstring_length", "exclude_paths"]

/-- Settings with no value for those keys that are taken as they are. -/
def Settings.blanked (keys : List String) (s : Settings) : Settings :=
  { s with
    scope := if "validation_scope" ∈ keys then .null else s.scope
    minDocstring := if "min_docstring_length" ∈ keys then .null else s.minDocstring
    excludes := if "exclude_paths" ∈ keys then .null else s.excludes }

/-- Settings need a value for every set and table. -/
theorem Settings.Taken.lookupText_ne (h : s.Taken es) :
    ∀ k ∈ containerKeys, Datum.lookupText k es ≠ some .null := by
  obtain ⟨more, hmore, -⟩ := h.skipDocstring
  have hseverities := h.severities
  have hblocking := h.blocking
  have hdisabled := h.disabled
  have hlabel := h.skipLabel
  have hhelp := h.skipHelp
  unfold entryOf at hseverities hblocking hdisabled hlabel hhelp hmore
  simp only [containerKeys, List.forall_mem_cons, List.not_mem_nil, false_implies, implies_true,
    and_true]
  refine ⟨?_, ?_, ?_, ?_, ?_, ?_⟩ <;> intro hnull
  · rw [hnull] at hseverities
    cases hseverities
  · rw [hnull] at hblocking
    cases hblocking
  · rw [hnull] at hdisabled
    cases hdisabled
  · rw [hnull] at hlabel
    cases hlabel
  · rw [hnull] at hhelp
    cases hhelp
  · rw [hnull] at hmore
    cases hmore

theorem bind_eq_map {α β γ : Type} {x : Except Fault α} {f : α → Except Fault β}
    {f' : α → Except Fault γ} {g : β → γ} (h : ∀ a, f' a = (f a).map g) :
    (x >>= f') = (x >>= f).map g := by
  cases x with
  | error e => rfl
  | ok a => exact h a

/-- **Where no set or table is needed**, emptied keys give the settings without them, but for values
    that are taken as they are. -/
theorem ofEntries_emptied (h : ∀ k ∈ containerKeys, k ∉ keys) :
    Settings.ofEntries (emptied keys es)
      = (Settings.ofEntries (without keys es)).map (Settings.blanked keys) := by
  have hrelease : releaseOf ((if "odoo_version" ∈ keys then some .null
        else Datum.lookupText "odoo_version" es).getD (.text "auto"))
      = releaseOf ((if "odoo_version" ∈ keys then none else Datum.lookupText "odoo_version" es).getD
        (.text "auto")) := by
    split
    · simp [releaseOf, Datum.truthy, Datum.same]
    · rfl
  simp only [containerKeys, List.forall_mem_cons] at h
  unfold Settings.ofEntries
  simp only [lookupText_emptied, lookupText_without, h, hrelease, if_false]
  refine bind_eq_map fun _ => bind_eq_map fun _ => bind_eq_map fun _ => bind_eq_map fun _ =>
    bind_eq_map fun _ => bind_eq_map fun _ => bind_eq_map fun _ => ?_
  refine congrArg Except.ok ?_
  unfold Settings.blanked
  congr 1 <;> split <;> rfl

/-- **Emptied keys mean their defaults exactly if none of them needs a value.**  Without a value for
    a set or a table there are no settings; otherwise they are those without the keys, in which the
    scope, the length of docstrings and the paths to leave out have no value if their keys were
    emptied. -/
theorem Settings.ofDatum_emptied (keys : List String) (es : List (Datum × Datum)) :
    ((∃ k ∈ containerKeys, k ∈ keys) →
      ∃ f, Settings.ofDatum (.table (emptied keys es)) = .error f) ∧
    ((∀ k ∈ containerKeys, k ∉ keys) → Settings.ofDatum (.table (emptied keys es))
        = (Settings.ofDatum (.table (without keys es))).map (Settings.blanked keys)) ∧
    ∀ s, Settings.ofDatum (.table (without keys es)) = .ok s →
      (Settings.ofDatum (.table (emptied keys es)) = .ok s ↔
        ∀ k ∈ containerKeys ++ valueKeys, k ∉ keys) := by
  have hneeds {s : Settings} (hs : Settings.ofEntries (emptied keys es) = .ok s) :
      ∀ k ∈ containerKeys, k ∉ keys := by
    intro k hk hmem
    exact (taken_of_ofEntries hs).lookupText_ne k hk (by rw [lookupText_emptied, if_pos hmem])
  refine ⟨fun ⟨k, hk, hmem⟩ => ?_, ofEntries_emptied, fun s hs => ⟨fun h => ?_, fun h => ?_⟩⟩
  · cases hs : Settings.ofDatum (.table (emptied keys es)) with
    | error f => exact ⟨f, rfl⟩
    | ok s => exact absurd hmem (hneeds hs k hk)
  · -- the settings without the keys have defaults where the others have no value
    have htaken := taken_of_ofEntries hs
    have htaken' := taken_of_ofEntries h
    rw [List.forall_mem_append]
    refine ⟨hneeds h, ?_⟩
    simp only [valueKeys, List.forall_mem_cons, List.not_mem_nil, false_implies, implies_true,
      and_true]
    refine ⟨fun hmem => ?_, fun hmem => ?_, fun hmem => ?_⟩
    · have heq := htaken.scope.symm.trans htaken'.scope
      simp [entryOf, lookupText_emptied, lookupText_without, hmem] at heq
    · have heq := htaken.minDocstring.symm.trans htaken'.minDocstring
      simp [entryOf, lookupText_emptied, lookupText_without, hmem] at heq
    · have heq := htaken.excludes.symm.trans htaken'.excludes
      simp [entryOf, lookupText_emptied, lookupText_without, hmem] at heq
  · rw [List.forall_mem_append] at h
    refine (ofEntries_emptied h.1).trans ?_
    rw [show Settings.ofEntries (without keys es) = .ok s from hs]
    have hvalues := h.2
    simp only [valueKeys, List.forall_mem_cons] at hvalues
    simp [Settings.blanked, Except.map, hvalues]

/-- Without a value the branch is left open, beside a set that is given. -/
theorem Settings.ofDatum_emptied_branch :
    let es := [(Datum.text "base_branch", .text "main"), (.text "disabled_checks", .list [])]
    ∃ s, Settings.ofDatum (.table (without ["base_branch"] es)) = .ok s ∧
      Settings.ofDatum (.table (emptied ["base_branch"] es)) = .ok s := by
  intro es
  obtain ⟨s, hs, -⟩ : ∃ s, Settings.ofDatum (.table (without ["base_branch"] es)) = .ok s ∧
      s.release = none :=
    Traversal.ok_of_toOption_map (by decide +kernel)
  exact ⟨s, hs, ((Settings.ofDatum_emptied _ es).2.2 s hs).mpr (by decide)⟩

/-- **A table of severities without a value leaves no settings**, and without the key there are
    some. -/
theorem Settings.ofDatum_severity_null :
    (Settings.ofDatum (.table (emptied ["severity"] []))).toOption.isNone ∧
      (Settings.ofDatum (.table (without ["severity"] []))).toOption.isSome := by
  decide +kernel

end AddonAudit
