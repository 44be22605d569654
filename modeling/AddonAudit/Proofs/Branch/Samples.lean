/-
  AddonAudit.Proofs.Branch.Samples — whether the names that are shown as examples are valid.

  The text that describes a new repository has a table with an example for each type.  The table and
  the policy have been written independently.  The example of a release candidate has more numbers
  in its version than the names of that type may have.
-/
import AddonAudit.Proofs.Branch.Reported
import AddonAudit.Readme.Template

namespace AddonAudit.Branch

open List Traversal

open Text (isDecimal)

open Readme (BranchRow branchRows)

/-! ## §1. Spared branches. -/

/-- A pattern that starts with a number matches no name that starts otherwise. -/
theorem anyMatches_number {ts : List (List Char)} {ns : List Pattern.Node} {pattern name : String}
    (h : Pattern.Clause 1 1 ts (.spot (.start false) :: .loop .greedy 1 none [Pattern.digit] :: ns))
    (hregular :
      Pattern.isRegular (.spot (.start false) :: .loop .greedy 1 none [Pattern.digit] :: ns))
    (hpattern : pattern.toList = ts.flatten) (hname : ∀ c ∈ name.toList.head?, isDecimal c = false)
    (rest : List Datum) : anyMatches name (.text pattern :: rest) = anyMatches name rest := by
  rw [anyMatches, h.read_eq hregular hpattern]
  refine if_neg fun hmatches => ?_
  obtain ⟨_, after, hlist, _, _, rfl, ⟨rfl, -⟩, digits, rest, rfl, hdigits, -⟩ :=
    (Pattern.matchesAt_iff hregular _).mp hmatches
  have hrun : Pattern.IsRunOf isDecimal (String.ofList digits) := by
    refine Pattern.oneOf_digit.spans_loop.mp (?_ : Pattern.spans _ [] digits (rest ++ after))
    rw [Pattern.spans, Pattern.spans, Pattern.Language.seq_nothing]
    exact hdigits
  obtain ⟨hne, hall⟩ := hrun
  rw [String.toList_ofList] at hall
  cases digits with
  | nil => exact hne rfl
  | cons c digits =>
    have hdigit := hall c mem_cons_self
    rw [hname c (by rw [hlist]; rfl)] at hdigit
    cases hdigit

/-- Branches of a release start with a number, and other branches are looked at. -/
theorem anyMatches_protected {name : String} (h : ∀ c ∈ name.toList.head?, isDecimal c = false) :
    anyMatches name (textData protectedPatterns) = .ok false := by
  have hnumber := (Pattern.atom_digit 1).many rfl (.inl ⟨rfl, rfl⟩)
  have hversion := ((Pattern.atom_start 1).clause.append hnumber).append
    (Pattern.clause_quote 1 ".0")
  have hfirst := hversion.append (Pattern.atom_finish 1).clause
  have hsecond := (((hversion.append (Pattern.clause_quote 1 ".")).append hnumber).append
    ((Pattern.atom_dot 1).many rfl (.inr ⟨rfl, rfl⟩))).append (Pattern.atom_finish 1).clause
  exact (anyMatches_number hfirst (by decide) (by decide) h _).trans
    (anyMatches_number hsecond (by decide) (by decide) h _)

/-- Names with a slash are looked at, if they do not start with a number. -/
theorem spares_of_slash {p : Policy} {name : String} (hspared : p.spared = none)
    (hpatterns : p.sparedPatterns = textData protectedPatterns) (hslash : '/' ∈ name.toList)
    (hname : ∀ c ∈ name.toList.head?, isDecimal c = false) : p.spares name = .ok false := by
  have hprotected : ∀ n ∈ protectedNames, '/' ∉ n.toList := by decide +kernel
  have hnot : protectedNames.contains name = false :=
    Bool.eq_false_iff.mpr fun h => hprotected name (contains_iff_mem.mp h) hslash
  unfold Policy.spares
  rw [hnot, hspared, hpatterns, anyMatches_protected hname]
  rfl

/-! ## §2. Examples. -/

theorem sample_allowed {digits : String} (hdigits : IsNumber digits) {r : BranchRow}
    (hr : r ∈ branchRows) (hne : r.type ≠ "release-candidate") :
    Allowed false standardTypes [] (r.sample (digits ++ ".0")) := by
  have hrows : ∀ r ∈ branchRows, r.type = "release-candidate" ∨
      r.type = "release" ∧ r.finish = ".1.0" ∨
      r.type ∈ standardTypes ∧ r.type ≠ "release" ∧ r.finish = "-" ++ Text.drop r.finish 1 ∧
      Text.drop r.finish 1 ≠ "" := by
    decide +kernel
  unfold BranchRow.sample
  rcases hrows r hr with h | ⟨htype, hfinish⟩ | ⟨htype, hrelease, hfinish, htopic⟩
  · exact absurd h hne
  · have hothers : IsNumber "0" ∧ IsNumber "1" :=
      ⟨⟨by decide, all_eq_true.mp (by decide)⟩, ⟨by decide, all_eq_true.mp (by decide)⟩⟩
    have hname : "release" ++ "/" ++ (digits ++ ".0") ++ ".1.0"
        = "release/" ++ ".".intercalate [digits, "0", "1", "0"] := by
      simp [String.append_assoc]
    rw [htype, hfinish, hname]
    exact .release _ (by decide) (by simp) (by simp [hdigits, hothers])
  · rw [hfinish]
    have hname : r.type ++ "/" ++ (digits ++ ".0") ++ ("-" ++ Text.drop r.finish 1)
        = r.type ++ "/" ++ digits ++ ".0-" ++ Text.drop r.finish 1 := by
      simp only [String.append_assoc]
      rfl
    rw [hname]
    exact .typed r.type digits _ htype hrelease hdigits htopic nofun

theorem candidate_not_allowed {digits : String} (hdigits : IsNumber digits) :
    ¬ Allowed false standardTypes []
      ("release-candidate" ++ "/" ++ (digits ++ ".0") ++ ".1.0-rc1") := by
  have hpoint {n : String} (h : IsNumber n) : '.' ∉ n.toList :=
    fun hmem => absurd (h.2 _ hmem) (by decide)
  intro h
  generalize heq : "release-candidate" ++ "/" ++ (digits ++ ".0") ++ ".1.0-rc1" = name at h
  cases h with
  | release numbers =>
    have hlist := congrArg String.toList heq
    simp at hlist
  | typed type number rest htype _ hnumber =>
    have hslash : '/' ∉ type.toList := fun h => ((standardTypes_chars _ htype).2 _ h).2 rfl
    have hlist : "release-candidate".toList ++ '/' :: (digits.toList ++ '.' :: "0.1.0-rc1".toList)
        = type.toList ++ '/' :: (number.toList ++ '.' :: ("0-".toList ++ rest.toList)) := by
      simpa using congrArg String.toList heq
    have hafter := (append_slash_inj (hpoint hdigits) (hpoint hnumber)
      (append_slash_inj (by decide) hslash hlist).2).2
    simp at hafter
  | versioned number type description hnumber =>
    have hhead := congrArg (·.toList.head?) heq
    obtain ⟨c, cs, hcs⟩ := exists_cons_of_ne_nil (fun h =>
      hnumber.1 (String.toList_eq_nil_iff.mp h))
    simp [hcs] at hhead
    exact absurd (hnumber.2 c (by simp [hcs])) (by rw [← hhead]; decide)
  | revert number description =>
    have hlist := congrArg String.toList heq
    simp at hlist

/-- The standard policy accepts the examples of all types but one, whatever the version is. -/
theorem valid_sample_iff {digits : String} (hdigits : IsNumber digits) :
    ∃ p, Policy.ofSection .null none (.table []) = .ok p ∧ ∀ r ∈ branchRows,
      ((∃ v, p.judge (r.sample (digits ++ ".0")) = .ok v ∧ v.valid = true) ↔
        r.type ≠ "release-candidate") := by
  obtain ⟨ps, hps, hallowed⟩ := patternsOf_allowed false [] (by decide) standardTypes_words
    (by decide)
  obtain ⟨p, hp, rfl, -, -, hspared, hpatterns⟩ :=
    ofSection_ok inForce_standard sparedOf_standard hps
  have hrows : ∀ r ∈ branchRows, r.type ∈ standardTypes ∧
      '\n' ∉ r.type.toList ++ '/' :: r.finish.toList ∧
      (r.type = "release-candidate" → r.finish = ".1.0-rc1") := by
    decide +kernel
  refine ⟨p, hp, fun r hr => ?_⟩
  obtain ⟨htype, hline, hcandidate⟩ := hrows r hr
  obtain ⟨hne, hchars⟩ := standardTypes_chars _ htype
  have hlist : (r.sample (digits ++ ".0")).toList
      = r.type.toList ++ '/' :: (digits.toList ++ (".0".toList ++ r.finish.toList)) := by
    simp [BranchRow.sample]
  have hnot : p.spares (r.sample (digits ++ ".0")) = .ok false := by
    obtain ⟨c, cs, hcs⟩ := exists_cons_of_ne_nil (fun h => hne (String.toList_eq_nil_iff.mp h))
    refine spares_of_slash hspared hpatterns (by simp [hlist]) fun d hd => ?_
    rw [hlist, hcs] at hd
    cases hd
    exact (hchars c (by simp [hcs])).1
  have hname : '\n' ∉ (r.sample (digits ++ ".0")).toList := by
    have hnumber : '\n' ∉ digits.toList := fun hmem => absurd (hdigits.2 _ hmem) (by decide)
    simp_all
  rw [judge_valid_iff hnot, hallowed _ hname]
  refine ⟨fun h heq => candidate_not_allowed hdigits ?_, sample_allowed hdigits hr⟩
  rwa [BranchRow.sample, heq, hcandidate heq] at h

theorem line_infix (t : Readme) {r : BranchRow} (hr : r ∈ branchRows) :
    (r.line t.version).toList <:+: t.text.toList := by
  have htable : (r.line t.version).toList <:+:
      (String.join (branchRows.map (·.line t.version))).toList := by
    rw [String.toList_join, flatMap_map]
    exact infix_of_mem_flatten (mem_map_of_mem hr)
  have hsection : (String.join (branchRows.map (·.line t.version))).toList <:+:
      t.developmentText.toList := by
    unfold Readme.developmentText
    rw [String.toList_append, String.toList_append]
    exact infix_append ..
  refine (htable.trans hsection).trans ?_
  unfold Readme.text
  rw [String.toList_append, String.toList_append, String.toList_append]
  exact (infix_append ..).trans (prefix_append ..).isInfix

/-- **The examples of the table are valid, but that of a release candidate is not.**  Each row of
    the table is a line of the text. -/
theorem samples_judged (t : Readme) {digits : String} (hdigits : IsNumber digits)
    (hversion : t.version = digits ++ ".0") :
    ∃ p, Policy.ofSection .null none (.table []) = .ok p ∧ ∀ r ∈ branchRows,
      (r.line t.version).toList <:+: t.text.toList ∧
      ((∃ v, p.judge (r.sample t.version) = .ok v ∧ v.valid = true) ↔
        r.type ≠ "release-candidate") := by
  obtain ⟨p, hp, hvalid⟩ := valid_sample_iff hdigits
  refine ⟨p, hp, fun r hr => ⟨ line_infix t hr, ?_⟩⟩
  rw [hversion]
  exact hvalid r hr

theorem seventeen_isNumber : IsNumber "17" := ⟨by decide, all_eq_true.mp (by decide)⟩

theorem samples_judged_seventeen :
    ∃ p, Policy.ofSection .null none (.table []) = .ok p ∧
    ∃ v, p.judge "fix/17.0-correct-tax-calc" = .ok v ∧ v.valid := by
  obtain ⟨p, hp, hrows⟩ := samples_judged ⟨"tools", "17.0", "", "", "", ""⟩ seventeen_isNumber rfl
  exact ⟨p, hp,
    (hrows ⟨"fix", none, "Bug fix", "-correct-tax-calc"⟩ (by simp [branchRows])).2.mpr (by decide)⟩

/-- **The example of a release candidate is refused.** -/
theorem candidate_sample_refused : ∃ p, Policy.ofSection .null none (.table []) = .ok p ∧
    ¬ ∃ v, p.judge "release-candidate/17.0.1.0-rc1" = .ok v ∧ v.valid = true := by
  obtain ⟨p, hp, hvalid⟩ := valid_sample_iff seventeen_isNumber
  refine ⟨p, hp, fun h => ?_⟩
  exact (hvalid ⟨"release-candidate", none, "Pre-release validation", ".1.0-rc1"⟩
    (by simp [branchRows])).mp h rfl

end AddonAudit.Branch
