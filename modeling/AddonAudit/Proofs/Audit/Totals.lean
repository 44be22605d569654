/-
  AddonAudit.Proofs.Audit.Totals — how many messages a run found, told three times.

  A run tells on the error channel how many errors, warnings and informations there are, writes
  these numbers into its report, and gives back reports whose messages can be counted.  The reports
  that it gives back are only those that hold anything; what is left out has nothing to count, so
  that all three agree.
-/
import AddonAudit.Proofs.Audit.Reporting
import AddonAudit.Proofs.Report.Views

namespace AddonAudit.Audit

open List

open Session (linesText)

/-! ## §1. Messages that are given back. -/

/-- How many messages of a severity there are in the reports that an outcome gives back. -/
def Outcome.total (o : Outcome) (s : Severity) : Nat :=
  (o.reports.flatMap fun e => e.2.findings.messages.map fun m => e.2.settings.severity m.1).count s

theorem count_severities (r : Report) (s : Severity) :
    (r.findings.messages.map fun m => r.settings.severity m.1).count s = r.count s := by
  rw [count, countP_map, r.count_eq_countP]
  rfl

/-- **The messages that are given back are all that were found**: a report that is left out has
    none. -/
theorem Outcome.total_of (as : List Audited) (s : Severity) :
    (Outcome.of as).total s = totalOf as s := by
  show (((as.filter fun a => !a.report.isEmpty).map fun a =>
    (a.addon.name, a.report)).flatMap _).count s = _
  unfold totalOf
  induction as with
  | nil => rfl
  | cons a as ih =>
    rw [map_cons, foldr_cons, ← ih, ← count_severities]
    by_cases hempty : a.report.isEmpty
    · have hnone : a.report.findings.messages = [] := a.report.isEmpty_iff.mp hempty
      rw [filter_cons_of_neg (by simp [hempty]), hnone]
      simp
    · rw [filter_cons_of_pos (by simpa using hempty), map_cons, flatMap_cons,
        count_append]

/-! ## §2. Totals that are told and written. -/

/-- The lines that tell totals. -/
def totalLines (total : Severity → Nat) : List String :=
  ["  Errors: " ++ toString (total .error), "  Warnings: " ++ toString (total .warning),
    "  Info: " ++ toString (total .info)]

/-- The lines of a summary above its totals. -/
def summaryHead (changedOnly : Bool) (as : List Audited) : List String :=
  ["", thickRule, "SOLT PRE-COMMIT VALIDATION", thickRule, "  Scope: " ++ scopeLabel changedOnly,
    "  Odoo version(s): " ++ ", ".intercalate (Text.sortedSet (as.map (·.addon.release))),
    "  Modules checked: " ++ toString as.length] ++ as.map (fun a => "    - " ++ a.addon.name) ++
      [""]

/-- The lines of a summary below its totals. -/
def summaryEnd (as : List Audited) : List String :=
  ["  Time: 0.00s"] ++
    (if isBlocked as then [] else ["", Style.green ++ "  ✓ All checks passed!" ++ Style.reset]) ++
    [thickRule]

/-- **Where a summary tells its totals**, if it is asked for all of them. -/
theorem summaryLines_totals {q : Request} (h : q.showInfo) (changedOnly : Bool)
    (as : List Audited) : summaryLines q changedOnly as = summaryHead changedOnly as ++
    totalLines (totalOf as) ++ summaryEnd as := by
  unfold summaryLines summaryHead totalLines summaryEnd
  rw [if_pos h]
  simp only [append_assoc, cons_append, nil_append]

/-- The key under which a report has the number of messages of a severity. -/
def issueKey : Severity → String
  | .error => "errors"
  | .warning => "warnings"
  | .info => "info"

theorem part?_issues (as : List Audited) (s : Severity) :
    part? ["summary", "issues", issueKey s] (coverageOf as).document =
    some (Coverage.countOf (totalOf as s)) := by
  cases s <;>
    simp [part?, Coverage.Summary.document, Coverage.issuesPart, Coverage.tableOf, lookupText_cons,
    coverageOf,
      issueKey]

theorem text_eq {s : Coverage.Summary} {text : String} (h : s.text = .ok text) :
    text = Json.writeIndented Coverage.usualIndent s.document := by
  obtain ⟨_, -, h⟩ := Traversal.bind_ok_iff.mp h
  exact (Except.ok.inj h).symm

/-! ## §3. Runs. -/

/-- The reports of an outcome count under the settings of the run. -/
theorem settings_of_reports {w : World} {c : Config} {mode release : Option String}
    {paths : List String} {as : List Audited} (h : paths.mapM (audited w c mode release) = .ok as) :
    ∀ e ∈ (Outcome.of as).reports, e.2.settings = c.settings := by
  intro e he
  obtain ⟨a, ha, rfl⟩ := mem_map.mp he
  obtain ⟨path, -, haudited⟩ := Traversal.mem_of_mapM_ok h (mem_of_mem_filter ha)
  exact settings_of_audited haudited

/-- **The three numbers of a run.**  A run over some paths that is asked for all messages and for a
    report tells, between the head and the end of its summary, the numbers of messages by severity
    in the reports that it gives back; and these numbers stand in the report that it saves, if that
    can be saved. -/
theorem run_totals {q : Request} {w v : World} {o : Outcome} {path : String} (h : run q w = .ok o v)
    (hpaths : q.paths ≠ []) (hinfo : q.showInfo = true) (hpath : given? q.reportPath = some path) :
    ∃ c as before, Ends q w v c as before ∧ o = Outcome.of as ∧
      (∀ e ∈ o.reports, e.2.settings = c.settings) ∧
      (∃ above below, v.log.err = w.log.err ++ linesText
        (above ++ summaryHead c.settings.changedOnly as ++ totalLines o.total ++ summaryEnd as ++
          below)) ∧
      ((∃ document, Written v (Path.tidy path) (Json.writeIndented Coverage.usualIndent document) ∧
          ∀ s, part? ["summary", "issues", issueKey s] document
            = some (Coverage.countOf (o.total s))) ∨
        ∃ f, ((coverageOf as).save path).verdict w = .error f) := by
  obtain ⟨c, as, before, hends⟩ := ends_of_run h
  -- what is told and what is written come from the same messages
  obtain ⟨c', release, as', hc', hrelease, has', rfl, htold⟩ := run_tells h
  obtain ⟨rfl, rfl⟩ := hends.unique hc' hrelease has'
  have htotal : totalOf as = (Outcome.of as).total := funext fun s => (Outcome.total_of as s).symm
  refine ⟨c, as, before, hends, rfl, settings_of_reports has', ?_, ?_⟩
  · have hsome : (!q.paths.isEmpty) = true := by simpa using hpaths
    refine ⟨if q.manner.verbose then as.flatMap
      (addonLines (q.style w) q c.settings.changedOnly) else [],
      if q.manner.verbose then noticeOf (q.style w) (Outcome.of as) else [], ?_⟩
    rw [htold, toldLines, if_pos hsome, summaryLines_totals hinfo, htotal]
    simp only [List.append_assoc]
  · rcases hends.report hpath with ⟨-, text, htext, hwritten⟩ | hfailed
    · refine .inl ⟨(coverageOf as).document, ?_, fun s => ?_⟩
      · rwa [← text_eq htext]
      · rw [part?_issues, htotal]
    · exact .inr hfailed

/-- Two addons: one that is not to be installed, so that nothing is found, and one that is no
    package. -/
def silentAndBroken : World where
  root := .folder [
    ("a", .folder [
      ("__init__.py", .file ⟨#[]⟩), ("__manifest__.py", .file "\x7b'installable':''\x7d".toUTF8)]),
    ("b", .folder [("__manifest__.py", .file ⟨#[]⟩)])]

/-- A run over them that tells all and writes a report. -/
def fullRun : Request where
  paths := ["a", "b"]
  scope := some "full"
  release := some "17.0"
  showInfo := true
  reportPath := some "r.json"

/-- One error, told and written, although one of the addons is not given back. -/
theorem run_totals_silentAndBroken :
    ∃ o v, run fullRun silentAndBroken = .ok o v ∧ o.reports.map Prod.fst = ["b"] ∧
      (∃ above below, v.log.err
        = "" ++ linesText (above ++ ["  Errors: 1", "  Warnings: 0", "  Info: 0"] ++ below)) ∧
      ∃ document,
        Written v (Path.tidy "r.json") (Json.writeIndented Coverage.usualIndent document) ∧
        part? ["summary", "issues", "errors"] document = some (Coverage.countOf 1) := by
  obtain ⟨x, hx, hsays⟩ : ∃ x, ((fullRun.configure.verdict silentAndBroken).bind fun c =>
      (fullRun.paths.mapM (audited silentAndBroken c none (some "17.0"))).map fun as =>
        ((Outcome.of as).reports.map Prod.fst, Severity.all.map (Outcome.of as).total,
          (((coverageOf as).save "r.json").verdict silentAndBroken).toOption.isSome)) = .ok x ∧
      x = (["b"], [1, 0, 0], true) :=
    Traversal.ok_of_toOption_map (by decide +kernel)
  obtain ⟨d, hd, hx⟩ := Traversal.bind_ok_iff.mp hx
  obtain ⟨bs, hbs, rfl⟩ := Traversal.map_ok_iff.mp hx
  obtain ⟨_, hrelease, rfl⟩ : ∃ r, fullRun.releaseGiven = .ok r ∧ r = some "17.0" :=
    Traversal.ok_of_toOption_map (by decide +kernel)
  obtain ⟨v, hv⟩ := Session.ok_of_verdict (run_ok_iff.mpr ⟨d, some "17.0", bs, hd, hrelease, hbs,
    rfl⟩)
  simp only [Prod.mk.injEq, Severity.all, List.map_cons, List.map_nil, List.cons.injEq,
    and_true] at hsays
  obtain ⟨hreports, ⟨herrors, hwarnings, hinfo⟩, hsaved⟩ := hsays
  have hpath : given? fullRun.reportPath = some "r.json" := rfl
  obtain ⟨c, as, before, hends, -, -, ⟨above, below, htold⟩, hreport⟩ :=
    run_totals hv (by decide) rfl hpath
  obtain ⟨rfl, rfl⟩ := hends.unique hd hrelease hbs
  refine ⟨_, v, hv, hreports, ⟨above ++ summaryHead c.settings.changedOnly as, summaryEnd as ++
    below, ?_⟩, ?_⟩
  · have hlines : totalLines (Outcome.of as).total = ["  Errors: 1", "  Warnings: 0",
        "  Info: 0"] := by
      unfold totalLines
      rw [herrors, hwarnings, hinfo]
      decide
    rw [htold, hlines]
    simp only [List.append_assoc]
    rfl
  · rcases hreport with ⟨document, hwritten, hparts⟩ | ⟨f, hfailed⟩
    · exact ⟨document, hwritten, (hparts .error).trans (by rw [herrors])⟩
    · rw [hfailed] at hsaved
      cases hsaved

end AddonAudit.Audit
