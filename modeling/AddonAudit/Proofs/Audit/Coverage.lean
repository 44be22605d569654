/-
  AddonAudit.Proofs.Audit.Coverage — the coverage of a run does not depend on its scope.

  Checks look at the files in the scope, and only at those of a mode.  Coverage is taken from all
  source files of an addon, which are read once more after the checks.  So neither the scope nor the
  mode nor what version control says about changes can be seen in the metrics that a run prints, or
  in its report but for the number of issues.
-/
import AddonAudit.Proofs.Audit.Reporting

namespace AddonAudit

open Session Coverage

open Traversal (bind_ok_iff map_ok_iff mapM_ok_iff)

variable {w : World} {ps : List (String × Option ProcessResult)}

/-! ## §1. Settings. -/

namespace Audit

/-- The configuration of settings for a request. -/
def configured (q : Request) (s : Settings) : Except Fault Config :=
  let config : Config := match given? q.scope with
    | some scope => Config.withScope { settings := s } scope
    | none => { settings := s }
  match given? q.release with
  | some v => config.setRelease (.text v)
  | none => .ok config

theorem verdict_configure (q : Request) (w : World) :
    q.configure.verdict w = (Settings.load w q.config).bind (configured q) := by
  have hload : Config.load q.config w = (match Settings.load w q.config with
      | .ok s => .ok { settings := s } w
      | .error f => .error f w : EStateM.Result Fault World Config) := by
    show (ofExcept (Settings.load w q.config) >>= fun s =>
      pure ({ settings := s } : Config)) w = _
    cases Settings.load w q.config <;> rfl
  unfold Request.configure verdict
  cases hs : Settings.load w q.config with
  | error f =>
    rw [hs] at hload
    rw [bind_of_error _ hload]
    rfl
  | ok s =>
    rw [hs] at hload
    rw [bind_of_ok _ hload]
    show _ = configured q s
    unfold configured
    cases given? q.release with
    | none => rfl
    | some v =>
      dsimp only
      generalize Config.setRelease _ (Datum.text v) = r
      cases r <;> rfl

/-- A request with another scope and another mode. -/
def Request.rescoped (q : Request) (scope mode : Option String) : Request :=
  { q with scope := scope, manner := { q.manner with mode := mode } }

variable {c c' : Config} {l : Log} {mode release : Option String} {as as' : List Audited}

theorem settings_of_setRelease {d : Datum} (h : c.setRelease d = .ok c') :
    ∃ r, Release.normalizeDatum d = .ok r ∧ c'.settings =
    { c.settings with release := some r } := by
  obtain ⟨r, hr, hend⟩ := bind_ok_iff.mp h
  obtain rfl := Except.ok.inj hend
  exact ⟨r, hr, rfl⟩

/-- **Two scopes, and all other settings the same.** -/
theorem settings_of_configure {q : Request} {scope : Option String}
    (h : q.configure.verdict w = .ok c) (h' : (q.rescoped scope mode).configure.verdict
    (w.dress ps l) = .ok c') :
    c'.settings = { c.settings with scope := c'.settings.scope } := by
  rw [verdict_configure] at h h'
  obtain ⟨s, hs, hc⟩ := bind_ok_iff.mp h
  obtain ⟨s', hs', hc'⟩ := bind_ok_iff.mp h'
  rw [Settings.load_dress] at hs'
  cases hs.symm.trans hs'
  -- before a version is set, the settings are those of the file with some scope
  have hscope : ∀ given : Option String, ∃ x, (match given with
      | some scope => Config.withScope { settings := s } scope
      | none => { settings := s } : Config).settings = { s with scope := x } := by
    intro given
    cases given with
    | some scope => exact ⟨.text scope, rfl⟩
    | none => exact ⟨s.scope, rfl⟩
  obtain ⟨x, hx⟩ := hscope (given? q.scope)
  obtain ⟨x', hx'⟩ := hscope (given? scope)
  unfold configured at hc hc'
  rw [show given? (q.rescoped scope mode).release = given? q.release from rfl,
    show (q.rescoped scope mode).scope = scope from rfl] at hc'
  cases hrelease : given? q.release with
  | none =>
    rw [hrelease] at hc hc'
    obtain rfl := Except.ok.inj hc
    obtain rfl := Except.ok.inj hc'
    rw [hx, hx']
  | some v =>
    rw [hrelease] at hc hc'
    obtain ⟨r, hr, hset⟩ := settings_of_setRelease hc
    obtain ⟨r', hr', hset'⟩ := settings_of_setRelease hc'
    cases hr.symm.trans hr'
    rw [hset, hset', hx, hx']

/-! ## §2. Audits. -/

/-- Audits of an addon with the same sources: they may differ in what was found. -/
structure SameCoverage (a a' : Audited) : Prop where
  name : a'.addon.name = a.addon.name
  folder : a'.addon.folder = a.addon.folder
  readings : a'.readings = a.readings

/-- **The audits of a path have the same sources**, whatever scope and mode they have and whatever
    commands can be run. -/
theorem sameCoverage_of_audited {mode' : Option String} {path : String} {a a' : Audited}
    (hsettings : c'.settings = { c.settings with scope := c'.settings.scope })
    (h : audited w c mode release path = .ok a)
    (h' : audited (w.dress ps l) c' mode' release path = .ok a') :
    SameCoverage a a' := by
  obtain ⟨hchecked, hreadings⟩ := audited_ok_iff.mp h
  obtain ⟨hchecked', hreadings'⟩ := audited_ok_iff.mp h'
  have hpath := Addon.fromPath_of_built (checked_ok_iff.mp hchecked).1
  have hpath' := Addon.fromPath_of_built (checked_ok_iff.mp hchecked').1
  have hfolder : a'.addon.folder = a.addon.folder := by
    rw [hpath'.folder, hpath.folder, Manifest.locate_dress, World.resolve_dress]
  have hmanifest : a'.addon.manifest = a.addon.manifest := by
    rw [hpath'.manifest, hpath.manifest, Manifest.locate_dress, World.resolve_dress,
      Manifest.read_dress]
  have hfiles : a'.addon.files = a.addon.files := by
    have hscope : ∀ (s : Settings) (scope : Datum) (folder : String) (manifest : Datum),
        Addon.filesOf w { s with scope := scope } folder manifest =
        Addon.filesOf w s folder manifest :=
      fun _ _ _ _ => rfl
    have hother := hpath'.files
    rw [hfolder, hmanifest, Addon.filesOf_dress, hsettings, hscope, hpath.files] at hother
    exact (Except.ok.inj hother).symm
  refine ⟨by rw [hpath'.name, hpath.name, hfolder], hfolder, ?_⟩
  have hread : a'.addon.readings w = a.addon.readings w := by
    unfold Addon.readings
    rw [hfiles]
  rw [Addon.readings_dress, hread, hreadings] at hreadings'
  exact (Except.ok.inj hreadings').symm

/-- So it is for the audits of several paths. -/
theorem sameCoverage_of_mapM {mode' : Option String}
    (hsettings : c'.settings = { c.settings with scope := c'.settings.scope }) :
    ∀ {paths : List String} {as as' : List Audited},
      paths.mapM (audited w c mode release) = .ok as →
      paths.mapM (audited (w.dress ps l) c' mode' release) = .ok as' →
      List.Forall₂ SameCoverage as as' := by
  intro paths
  induction paths with
  | nil =>
    intro as as' h h'
    cases mapM_ok_iff.mp h
    cases mapM_ok_iff.mp h'
    exact .nil
  | cons path paths ih =>
    intro as as' h h'
    cases mapM_ok_iff.mp h with
    | cons ha has =>
      cases mapM_ok_iff.mp h' with
      | cons ha' has' =>
        refine .cons (sameCoverage_of_audited hsettings ha ha') ?_
        exact ih (mapM_ok_iff.mpr has) (mapM_ok_iff.mpr has')

/-! ## §3. Reports. -/

theorem coverageOf_addons (h : List.Forall₂ SameCoverage as as') :
    (coverageOf as').addons = (coverageOf as).addons := by
  unfold coverageOf
  dsimp only
  induction h with
  | nil => rfl
  | cons hhead htail ih =>
    rw [List.map_cons, List.map_cons, ih, hhead.name, hhead.folder, hhead.readings]

theorem metricsOf_eq (h : List.Forall₂ SameCoverage as as') (s : Settings) (scope : Datum) :
    metricsOf { s with scope := scope } as' = metricsOf s as := by
  have hsurveys : (as'.flatMap fun a => a.readings.map (·.2.survey))
      = as.flatMap fun a => a.readings.map (·.2.survey) := by
    induction h with
    | nil => rfl
    | cons hhead htail ih => rw [List.flatMap_cons, List.flatMap_cons, ih, hhead.readings]
  unfold metricsOf
  rw [hsurveys]
  rfl

/-- The parts of a report that do not count issues. -/
def countedParts : List (List String) :=
  [["modules"], ["summary", "modules_count"], ["summary", "models_count"], ["summary", "methods"],
    ["summary", "fields"]]

/-- **Reports on the same addons differ in their issues only.** -/
theorem part?_document {s s' : Summary} (h : s'.addons = s.addons) {keys : List String}
    (hkeys : keys ∈ countedParts) : ∃ d, part? keys s.document = some d ∧
    part? keys s'.document = some d := by
  have htally : s'.tally = s.tally := by
    unfold Summary.tally
    rw [h]
  have hmodels : s'.modelCount = s.modelCount := by
    unfold Summary.modelCount
    rw [h]
  simp only [countedParts, List.mem_cons, List.not_mem_nil, or_false] at hkeys
  rcases hkeys with rfl | rfl | rfl | rfl | rfl
  · exact ⟨.list (s.addons.map addonPart), by
      simp [part?, Summary.document, tableOf, lookupText_cons, h]⟩
  · exact ⟨countOf s.addons.length, by
      simp [part?, Summary.document, tableOf, lookupText_cons, h]⟩
  · exact ⟨countOf s.modelCount, by
      simp [part?, Summary.document, tableOf, lookupText_cons, hmodels]⟩
  · exact ⟨methodsPart s.tally, by
      simp [part?, Summary.document, tableOf, lookupText_cons, htally]⟩
  · exact ⟨fieldsPart s.tally, by
      simp [part?, Summary.document, tableOf, lookupText_cons, htally]⟩

/-- Whether a file can be written does not depend on what is written. -/
theorem verdict_writeText (p s s' : String) (w : World) :
    (writeText p s').verdict w = (writeText p s).verdict w := by
  unfold writeText writeBytes
  rw [verdict_get_bind, verdict_get_bind]
  generalize w.find (Path.parent (Path.join w.cwd p)) = above
  generalize w.put p (.file s.toUTF8) = x
  generalize w.put p (.file s'.toUTF8) = x'
  cases w.find p with
  | ok e => cases e <;> rfl
  | error a =>
    cases a with
    | notFolder => rfl
    | missing =>
      cases above with
      | ok e => cases e <;> rfl
      | error a => rfl

/-- Counts can always be written: only the part about addons decides. -/
theorem unwritable?_document (as : List Audited) : Json.unwritable? (coverageOf as).document
    = Json.unwritableItem? ((coverageOf as).addons.map addonPart) := by
  simp [Summary.document, tableOf, methodsPart, fieldsPart,
    issuesPart, countOf, Tally.methodShare, Tally.labelShare,
    Tally.helpShare, roundedPercent, Json.unwritable?, Json.unwritableValue?, coverageOf]

/-- **A report can be saved if one on the same addons can be**, and fails for the same reason. -/
theorem verdict_save (h : (coverageOf as').addons = (coverageOf as).addons) (path : String)
    (w : World) :
    ((coverageOf as').save path).verdict w = ((coverageOf as).save path).verdict w := by
  have hwritable : Json.checkWritable (coverageOf as').document
      = Json.checkWritable (coverageOf as).document := by
    unfold Json.checkWritable
    rw [unwritable?_document, unwritable?_document, h]
  have htext : ∀ (k : String → Session Unit) (w : World),
      (∀ t t', (k t').verdict w = (k t).verdict w) →
      (ofExcept (coverageOf as').text >>= k).verdict w
        = (ofExcept (coverageOf as).text >>= k).verdict w := by
    intro k w hk
    unfold Summary.text
    rw [hwritable]
    cases Json.checkWritable (coverageOf as).document with
    | error f => rfl
    | ok _ => exact hk _ _
  unfold Summary.save verdict
  dsimp only
  cases hfolder : ensureFolder (Path.parent (Path.tidy path)) w with
  | error f x => rw [bind_of_error _ hfolder, bind_of_error _ hfolder]
  | ok u x =>
    rw [bind_of_ok _ hfolder, bind_of_ok _ hfolder]
    exact htext _ x fun t t' => verdict_writeText _ t t' x

/-! ## §4. Runs. -/

/-- **Coverage does not depend on the scope.**  Two runs that end, and that differ in scope, mode
    and what commands give, print the same metrics.  Their reports are both saved or both fail for
    the same reason, and agree on the addons and on the number of models, methods and fields. -/
theorem run_coverage_unscoped {q : Request} {scope mode : Option String} {v v' : World}
    {o o' : Outcome} (h : run q w = .ok o v)
    (h' : run (q.rescoped scope mode) { w with processes := ps } = .ok o' v') :
    ∃ c as before c' as' before',
      Ends q w v c as before ∧
      Ends (q.rescoped scope mode) { w with processes := ps } v' c' as' before' ∧
      coverageLines (q.rescoped scope mode) c'.settings as' = coverageLines q c.settings as ∧
      (∀ path, given? q.reportPath = some path →
        (∃ text text', (coverageOf as).text = .ok text ∧ Written v (Path.tidy path) text ∧
          (coverageOf as').text = .ok text' ∧ Written v' (Path.tidy path) text') ∨
        ∃ f, ((coverageOf as).save path).verdict w = .error f ∧
          ((coverageOf as').save path).verdict { w with processes := ps } = .error f) ∧
      ∀ keys ∈ countedParts, ∃ d, part? keys (coverageOf as).document = some d ∧
        part? keys (coverageOf as').document = some d := by
  obtain ⟨c, as, before, hends⟩ := ends_of_run h
  obtain ⟨c', as', before', hends'⟩ := ends_of_run h'
  obtain ⟨release, -, -, -, hrelease, has, -⟩ := hends.audits
  obtain ⟨release', -, -, -, hrelease', has', -⟩ := hends'.audits
  cases hrelease.symm.trans hrelease'
  -- the configurations differ in the scope only
  have hsettings : c'.settings = { c.settings with scope := c'.settings.scope } :=
    settings_of_configure hends.configured hends'.configured
  have hsame : List.Forall₂ SameCoverage as as' := sameCoverage_of_mapM hsettings has has'
  have haddons := coverageOf_addons hsame
  refine ⟨c, as, before, c', as', before', hends, hends', ?_, fun path hpath => ?_,
    fun keys hkeys => part?_document haddons hkeys⟩
  · unfold coverageLines
    rw [hsettings, metricsOf_eq hsame, hsame.length_eq]
    rfl
  · have hverdict : ((coverageOf as').save path).verdict { w with processes := ps }
        = ((coverageOf as).save path).verdict w :=
      ((plain_save (coverageOf as') path).verdict_dress w ps w.log).trans
      (verdict_save haddons path w)
    rcases hends.report hpath with ⟨hsaved, text, htext, hwritten⟩ | ⟨f, hfault⟩
    · rcases hends'.report hpath with ⟨-, text', htext', hwritten'⟩ | ⟨f, hfault⟩
      · exact .inl ⟨text, text', htext, hwritten, htext', hwritten'⟩
      · rw [hverdict, hsaved] at hfault
        cases hfault
    · exact .inr ⟨f, hfault, hverdict.trans hfault⟩

/-- An addon with a model that has one method. -/
def oneModel : World where
  root := .folder [("m", .folder [
    ("__init__.py", .file ⟨#[]⟩),
    ("__manifest__.py", .file "\x7b'version': '17.0.1.0.0'\x7d".toUTF8),
    ("a.py", .file "class A(models.Model):\n    def f(self):\n        pass\n".toUTF8)])]

/-- The manifest of the addon has changed, and no more. -/
def manifestStaged : List (String × Option ProcessResult) :=
  [(" ".intercalate stagedCommand, some { out := "m/__manifest__.py\n" })]

/-- A run over the addon with a report. -/
def wholeRun : Request := { paths := ["m"], scope := some "full", reportPath := some "c.json" }

/-- The method counts, also for a run that does not look at its file. -/
theorem run_coverage_unscoped_oneModel :
    ∃ o v o' v' c as before c' as' before', run wholeRun oneModel = .ok o v ∧
      run (wholeRun.rescoped (some "changed") (some "optional"))
        { oneModel with processes := manifestStaged } = .ok o' v' ∧
      Ends wholeRun oneModel v c as before ∧
      Ends (wholeRun.rescoped (some "changed") (some "optional"))
        { oneModel with processes := manifestStaged } v' c' as' before' ∧
      (coverageOf as).tally.methods = 1 ∧
      coverageLines (wholeRun.rescoped (some "changed") (some "optional")) c'.settings as'
        = coverageLines wholeRun c.settings as := by
  obtain ⟨o', hrun', -⟩ : ∃ o, (run (wholeRun.rescoped (some "changed") (some "optional"))).verdict
      { oneModel with processes := manifestStaged } = .ok o ∧ o.blocked = false :=
    Traversal.ok_of_toOption_map (by decide +kernel)
  obtain ⟨bs, hbs, hmethods⟩ : ∃ bs, ((wholeRun.configure.verdict oneModel).bind fun c =>
      wholeRun.paths.mapM (audited oneModel c none none)) = .ok bs ∧
        (coverageOf bs).tally.methods = 1 :=
    Traversal.ok_of_toOption_map (by decide +kernel)
  obtain ⟨d, hd, hbs⟩ := bind_ok_iff.mp hbs
  obtain ⟨v, hv⟩ := Session.ok_of_verdict (run_ok_iff.mpr ⟨d, none, bs, hd, rfl, hbs, rfl⟩)
  obtain ⟨v', hv'⟩ := Session.ok_of_verdict hrun'
  obtain ⟨c, as, before, c', as', before', hends, hends', hlines, -, -⟩ :=
    run_coverage_unscoped hv hv'
  obtain ⟨-, rfl⟩ := hends.unique hd rfl hbs
  exact ⟨_, v, o', v', c, as, before, c', as', before', hv, hv', hends, hends', hmethods, hlines⟩

end Audit

end AddonAudit
