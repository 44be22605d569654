/-
  AddonAudit.Proofs.Audit.Reporting — what a run says about coverage.

  Once all addons are audited, a run prints the metrics of their sources, and may write the coverage
  of their models to a file.  Both are functions of the audits; what became of the file is the last
  thing that is printed.
-/
import AddonAudit.Proofs.Audit.Telling
import AddonAudit.Proofs.Workspace.Files

namespace AddonAudit.Audit

open Session (linesText)

/-! ## §1. The report. -/

/-- Whether a tree has a file with a text at the place of a path. -/
def Written (w : World) (path text : String) : Prop :=
  w.root.get? (w.placeOf path) = some (.file text.toUTF8)

/-- **A report that is saved is in the tree.** -/
theorem written_of_save {s : Coverage.Summary} {path : String} {w w' : World}
    (h : s.save path w = .ok () w') :
    ∃ text, s.text = .ok text ∧ Written w' (Path.tidy path) text := by
  unfold Coverage.Summary.save at h
  obtain ⟨_, w₁, -, h⟩ := Session.bind_eq_ok_iff.mp h
  obtain ⟨text, w₂, htext, h⟩ := Session.bind_eq_ok_iff.mp h
  obtain rfl := Session.writeBytes_eq_ok h
  refine ⟨text, ?_, ?_⟩
  · cases hs : s.text with
    | ok t =>
      rw [hs] at htext
      cases htext
      rfl
    | error f =>
      rw [hs] at htext
      cases htext
  · have hplace : (w₂.put (Path.tidy path) (.file text.toUTF8)).placeOf (Path.tidy path)
        = w₂.placeOf (Path.tidy path) := by
      unfold World.placeOf World.resolve
      rw [World.cwd_put]
    unfold Written
    rw [hplace, World.root_put, Entry.get?_put_self]

/-- The part of a document at a path of keys. -/
def part? : List String → Datum → Option Datum
  | [], d => some d
  | key :: keys, .table es => (Datum.lookupText key es).bind (part? keys)
  | _ :: _, _ => none

theorem lookupText_cons (key k : String) (v : Datum) (es : List (Datum × Datum)) :
    Datum.lookupText key ((.text k, v) :: es) = if k =
    key then some v else Datum.lookupText key es := by
  unfold Datum.lookupText
  rw [Datum.lookup]
  by_cases hk : k = key
  · rw [if_pos hk, if_pos (by rw [Datum.same, hk]; exact beq_self_eq_true key)]
  · rw [if_neg hk, if_neg]
    rw [Datum.same]
    simpa using hk

/-! ## §2. A run. -/

/-- **How a run ends**: under a configuration, with its audits, after these have printed a text.
    What it prints then are the metrics and what became of the report, and this is all that it
    writes. -/
structure Ends (q : Request) (w v : World) (c : Config) (as : List Audited) (before : String) :
    Prop where
  configured : q.configure.verdict w = .ok c
  audits : ∃ release l c' l', q.releaseGiven = .ok release ∧
    q.paths.mapM (audited w c q.manner.mode release) = .ok as ∧
    auditAll q (q.style w) release c q.paths (w.relog l) = .ok (as, c') (w.relog l') ∧
      before = l'.out
  printed : v.log.out = before ++ linesText (coverageLines q c.settings as) ++
    linesText (reportLines q w as)
  written : ∃ l, v = (reportWorld q w as).relog l

/-- **How a run ends.** -/
theorem ends_of_run {q : Request} {w v : World} {o : Outcome} (h : run q w = .ok o v) :
    ∃ c as before, Ends q w v c as before := by
  obtain ⟨c, release, as, l, c', l', hc, hrelease, has, -, haudits, rfl⟩ := run_parts h
  exact ⟨c, as, l'.out, hc, ⟨release, l, c', l', hrelease, has, haudits, rfl⟩, rfl, _, rfl⟩

/-- A run ends with the audits of its paths under its configuration. -/
theorem Ends.unique {q : Request} {w v : World} {c c' : Config} {release : Option String}
    {as as' : List Audited} {before : String} (h : Ends q w v c as before)
    (hc : q.configure.verdict w = .ok c') (hrelease : q.releaseGiven = .ok release)
    (has : q.paths.mapM (audited w c' q.manner.mode release) = .ok as') : c = c' ∧ as = as' := by
  obtain ⟨release', -, -, -, hrelease', has', -⟩ := h.audits
  cases h.configured.symm.trans hc
  cases hrelease'.symm.trans hrelease
  exact ⟨rfl, Except.ok.inj (has'.symm.trans has)⟩

/-- The report of a run is in the tree, or could not be saved. -/
theorem Ends.report {q : Request} {w v : World} {c : Config} {as : List Audited}
    {before path : String} (h : Ends q w v c as before) (hpath : given? q.reportPath = some path) :
    (((coverageOf as).save path).verdict w = .ok () ∧
      ∃ text, (coverageOf as).text = .ok text ∧ Written v (Path.tidy path) text) ∨
    ∃ f, ((coverageOf as).save path).verdict w = .error f := by
  obtain ⟨l, rfl⟩ := h.written
  unfold reportWorld Session.leaves Session.verdict
  rw [hpath]
  dsimp only
  cases hsave : (coverageOf as).save path w with
  | ok u x =>
    obtain ⟨text, htext, hwritten⟩ := written_of_save hsave
    exact .inl ⟨rfl, text, htext, hwritten⟩
  | error f x => exact .inr ⟨f, rfl⟩

end AddonAudit.Audit
