/-
  AddonAudit.Proofs.Audit.Verdict — the words with which a run ends.

  A run that is told to speak ends its part of the error channel with one of three texts: that all
  checks passed, that the audit failed, or neither.  The first one agrees with the exit code.  The
  second one is decided by the first report alone, so it is missing where only later addons block.
-/
import AddonAudit.Proofs.Audit.Telling

namespace AddonAudit.Audit

open Session (linesText)
open Traversal (ok_of_toOption_map)

/-! ## §1. The last lines. -/

/-- The lines that say that a run failed. -/
def failedLines (st : Style) : List String :=
  let red := Style.colorOf .error
  ["", st.paint thickRule red, st.paint "VALIDATION FAILED - Blocking issues found" red,
    st.paint thickRule red, ""]

/-- The lines that say that a run passed. -/
def passedLines :
    List String := ["", Style.green ++ "  ✓ All checks passed!" ++ Style.reset, thickRule]

/-- The lines that end a summary without a verdict. -/
def bareLines : List String := ["  Time: 0.00s", thickRule]

/-- Whether a text ends with some lines. -/
def EndsWith (text : String) (lines : List String) :
    Prop := ∃ before, text = before ++ linesText lines

theorem endsWith_linesText (ls ms : List String) : EndsWith (linesText (ls ++ ms)) ms :=
  ⟨linesText ls, Session.linesText_append ls ms⟩

/-- Lines clash if no text ends with both. -/
def Clash (ls ms : List String) : Prop :=
  ¬ (linesText ls).toList <:+ (linesText ms).toList ∧
    ¬ (linesText ms).toList <:+ (linesText ls).toList

instance (ls ms : List String) : Decidable (Clash ls ms) := inferInstanceAs (Decidable (_ ∧ _))

theorem Clash.symm {ls ms : List String} (h : Clash ls ms) : Clash ms ls := ⟨h.2, h.1⟩

theorem Clash.not_endsWith {ls ms : List String} (h : Clash ls ms) {text : String}
    (hls : EndsWith text ls) : ¬ EndsWith text ms := by
  rintro ⟨before', heq'⟩
  obtain ⟨before, heq⟩ := hls
  have hl : (linesText ls).toList <:+ text.toList :=
    ⟨before.toList, by rw [heq, String.toList_append]⟩
  have hm : (linesText ms).toList <:+ text.toList :=
    ⟨before'.toList, by rw [heq', String.toList_append]⟩
  -- of two endings of one text, the shorter one ends the longer one
  rcases List.suffix_or_suffix_of_suffix hl hm with hlm | hml
  · exact h.1 hlm
  · exact h.2 hml

theorem toList_thickRule : thickRule.toList = List.replicate 60 '=' := by decide +kernel

theorem clash_passed_bare : Clash passedLines bareLines := by
  unfold Clash
  simp only [linesText, passedLines, bareLines, String.toList_append, toList_thickRule]
  decide +kernel

/-- Whether or not it is painted, the notice ends with an empty line, and a summary does not. -/
theorem clash_failed (st : Style) : Clash (failedLines st) passedLines ∧
    Clash (failedLines st) bareLines := by
  unfold Clash failedLines Style.paint
  simp only [linesText, passedLines, bareLines, String.toList_append, toList_thickRule]
  cases st.colors with
  | true =>
    simp only [if_true, String.toList_append, toList_thickRule]
    decide +kernel
  | false =>
    simp only [Bool.false_eq_true, if_false, toList_thickRule]
    decide +kernel

/-! ## §2. How a run ends. -/

/-- An outcome is announced as failed if its first report blocks. -/
def Outcome.Announced (o : Outcome) : Prop := ∃ e, o.reports.head? = some e ∧ e.2.isBlocking = true

theorem Outcome.exitCode_eq_one {o : Outcome} : o.exitCode = 1 ↔ o.blocked := by
  unfold exitCode
  cases o.blocked <;> decide

theorem Outcome.exitCode_eq_zero {o : Outcome} : o.exitCode = 0 ↔ o.blocked = false := by
  unfold exitCode
  cases o.blocked <;> decide

/-- A first report that blocks is one of the reports that do. -/
theorem Outcome.Announced.blocked {as : List Audited} (h : (Outcome.of as).Announced) :
    (Outcome.of as).blocked := by
  obtain ⟨e, hfirst, hblocks⟩ := h
  have hmem : e ∈ reportsOf as := List.mem_of_mem_head? hfirst
  unfold reportsOf at hmem
  obtain ⟨a, ha, rfl⟩ := List.mem_map.mp hmem
  exact List.any_eq_true.mpr ⟨a, List.mem_of_mem_filter ha, hblocks⟩

theorem noticeOf_of_announced (st : Style) {as : List Audited} (h : (Outcome.of as).Announced) :
    noticeOf st (Outcome.of as) = failedLines st := by
  have hblocked := h.blocked
  obtain ⟨e, hfirst, hblocks⟩ := h
  unfold noticeOf
  rw [if_pos hblocked, hfirst]
  show Report.noticeLines st e.2 = failedLines st
  unfold Report.noticeLines
  rw [hblocks]
  rfl

theorem noticeOf_of_not_announced (st : Style) {o : Outcome} (h : ¬ o.Announced) :
    noticeOf st o = [] := by
  unfold noticeOf
  split
  · cases hfirst : o.reports.head? with
    | none => rfl
    | some e =>
      -- the notice of a report that does not block has no lines
      have hquiet : e.2.isBlocking = false := by
        rw [← Bool.not_eq_true]
        intro hblocks
        exact h ⟨e, hfirst, hblocks⟩
      show Report.noticeLines st e.2 = []
      unfold Report.noticeLines
      rw [hquiet]
      rfl
  · rfl

/-- The lines of a summary above its end. -/
theorem summaryLines_ends (q : Request) (changedOnly : Bool) (as : List Audited) :
    ∃ above, summaryLines q changedOnly as = above ++
    if (Outcome.of as).blocked then bareLines else passedLines := by
  have hblocked : (Outcome.of as).blocked = isBlocked as := rfl
  unfold summaryLines
  rw [hblocked]
  cases isBlocked as with
  | true =>
    simp only [↓reduceIte, List.append_nil]
    rw [List.append_assoc]
    exact ⟨_, rfl⟩
  | false =>
    simp only [Bool.false_eq_true, ↓reduceIte]
    rw [List.append_assoc]
    exact ⟨_, rfl⟩

/-- **How what a run tells ends**: it passed, it failed and says so, or it failed and does not. -/
theorem run_ends {q : Request} {w w' : World} {o : Outcome} (hpaths : q.paths ≠ [])
    (hverbose : q.manner.verbose) (h : run q w = .ok o w') :
    ∃ told, w'.log.err = w.log.err ++ told ∧
      ((o.blocked = false ∧ ¬ o.Announced ∧ EndsWith told passedLines) ∨
        (o.blocked ∧ o.Announced ∧ EndsWith told (failedLines (q.style w))) ∨
        (o.blocked ∧ ¬ o.Announced ∧ EndsWith told bareLines)) := by
  obtain ⟨c, release, as, -, -, -, rfl, htold⟩ := run_tells h
  refine ⟨_, htold, ?_⟩
  have hsome : (!q.paths.isEmpty) := by simpa using hpaths
  unfold toldLines
  rw [if_pos hsome, if_pos hverbose, if_pos hverbose]
  obtain ⟨above, habove⟩ := summaryLines_ends q c.settings.changedOnly as
  by_cases hannounced : (Outcome.of as).Announced
  · refine .inr (.inl ⟨hannounced.blocked, hannounced, ?_⟩)
    rw [noticeOf_of_announced _ hannounced]
    exact endsWith_linesText _ _
  · rw [noticeOf_of_not_announced _ hannounced, List.append_nil, habove, ← List.append_assoc]
    cases hblocked : (Outcome.of as).blocked with
    | true => exact .inr (.inr ⟨rfl, hannounced, endsWith_linesText _ _⟩)
    | false => exact .inl ⟨rfl, hannounced, endsWith_linesText _ _⟩

/-- **The last words of a run.**  A run over some paths that speaks and ends says that all checks
    passed exactly when its exit code is 0.  It says that the audit failed exactly when its first
    report blocks: so this notice agrees with the exit code 1 exactly if the first report blocks
    whenever one does. -/
theorem run_verdictText {q : Request} {w w' : World} {o : Outcome} (hpaths : q.paths ≠ [])
    (hverbose : q.manner.verbose = true) (h : run q w = .ok o w') :
    ∃ told, w'.log.err = w.log.err ++ told ∧
      (EndsWith told passedLines ↔ o.exitCode = 0) ∧
      (EndsWith told (failedLines (q.style w)) ↔ o.Announced) ∧
      ((EndsWith told (failedLines (q.style w)) ↔ o.exitCode = 1) ↔
        (o.exitCode = 1 → o.Announced)) := by
  obtain ⟨told, htold, hends⟩ := run_ends hpaths hverbose h
  obtain ⟨hpassed, hbare⟩ := clash_failed (q.style w)
  refine ⟨told, htold, ?_⟩
  rw [Outcome.exitCode_eq_zero, Outcome.exitCode_eq_one]
  rcases hends with ⟨hblocked, hannounced, hend⟩ | ⟨hblocked, hannounced, hend⟩ |
    ⟨hblocked, hannounced, hend⟩
  · have hnot := hpassed.symm.not_endsWith hend
    simp [hblocked, hannounced, hend, hnot]
  · have hnot := hpassed.not_endsWith hend
    simp [hblocked, hannounced, hend, hnot]
  · have hnot := clash_passed_bare.symm.not_endsWith hend
    have hnot' := hbare.symm.not_endsWith hend
    simp [hblocked, hannounced, hnot, hnot']

/-- An addon without a manifest: the run fails and says so. -/
theorem run_verdictText_without_manifest :
    let q : Request := { paths := ["m"], scope := some "full" }
    ∃ o w' told, run q {} = .ok o w' ∧ o.exitCode = 1 ∧ w'.log.err = "" ++ told ∧
      EndsWith told (failedLines (q.style {})) ∧ ¬ EndsWith told passedLines := by
  intro q
  obtain ⟨o, ho, hcode⟩ : ∃ o, (run q).verdict {} = .ok o ∧
      (o.exitCode, o.reports.head?.map (·.2.isBlocking)) = (1, some true) :=
    ok_of_toOption_map (by decide +kernel)
  obtain ⟨hexit, hfirst⟩ := Prod.mk.inj hcode
  obtain ⟨w', hrun⟩ := Session.ok_of_verdict ho
  obtain ⟨told, htold, hpassed, hfailed, -⟩ := run_verdictText (q := q) (by decide) rfl hrun
  refine ⟨o, w', told, hrun, hexit, htold, hfailed.mpr ?_, ?_⟩
  · obtain ⟨e, he, hblocks⟩ := Option.map_eq_some_iff.mp hfirst
    exact ⟨e, he, hblocks⟩
  · rw [hpassed, hexit]
    decide

/-! ## §3. A failure that is not announced. -/

/-- Two addons: the first one only lacks a description, the second one has no version. -/
def secondBlocks : World where
  root := .folder [
    ("a", .folder [
      ("__init__.py", .file ⟨#[]⟩),
      ("__manifest__.py", .file "\x7b'version': '18.0.1.0.0'\x7d".toUTF8)]),
    ("b", .folder [("__init__.py", .file ⟨#[]⟩), ("__manifest__.py", .file "\x7b\x7d".toUTF8)])]

/-- **A run that fails and does not say so.**  The first report does not block, and the second one,
    which does, is not asked. -/
theorem run_blocked_without_notice :
    let q : Request := { paths := ["a", "b"], scope := some "full" }
    ∃ o w', run q secondBlocks = .ok o w' ∧ o.exitCode = 1 ∧
      ¬ EndsWith w'.log.err (failedLines (q.style secondBlocks)) := by
  intro q
  obtain ⟨o, ho, hcode⟩ : ∃ o, (run q).verdict secondBlocks = .ok o ∧
      (o.exitCode, o.reports.head?.map (·.2.isBlocking)) = (1, some false) :=
    ok_of_toOption_map (by decide +kernel)
  obtain ⟨hexit, hfirst⟩ := Prod.mk.inj hcode
  obtain ⟨w', hrun⟩ := Session.ok_of_verdict ho
  refine ⟨o, w', hrun, hexit, ?_⟩
  have hnot : ¬ o.Announced := by
    rintro ⟨e, he, hblocks⟩
    rw [he] at hfirst
    exact absurd hblocks (by simpa using hfirst)
  obtain ⟨told, htold, hends⟩ := run_ends (q := q) (by decide) rfl hrun
  have herr : w'.log.err = told := by rw [htold]; exact String.empty_append
  rw [herr]
  rcases hends with ⟨hblocked, -, -⟩ | ⟨-, hannounced, -⟩ | ⟨-, -, hend⟩
  · rw [Outcome.exitCode_eq_one, hblocked] at hexit
    cases hexit
  · exact absurd hannounced hnot
  · exact (clash_failed _).2.symm.not_endsWith hend

end AddonAudit.Audit
