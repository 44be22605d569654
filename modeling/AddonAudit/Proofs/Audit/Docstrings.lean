/-
  AddonAudit.Proofs.Audit.Docstrings — the two counts of docstrings.

  A run counts docstrings twice.  The metrics that it prints take the methods of all classes, of a
  file as often as it is read, and leave out those that the settings name.  Its report takes the
  public methods of models, of a file once, whatever the settings say.  Both are counts over one
  list of methods, which shows where they differ.
-/
import AddonAudit.Proofs.Audit.Coverage
import AddonAudit.Proofs.Model.Methods
import Mathlib

namespace AddonAudit.Audit

open List Bool Coverage Model

open Coverage (Tally ModelMetrics standardPolicy)
open Model (Declaration MethodInfo Reading Survey Visit)

/-! ## §1. Methods that are met. -/

/-- A method as a run meets it. -/
structure Met where
  method : MethodInfo
  /-- Whether its class is a model. -/
  ofModel : Bool
  /-- Whether its file has been read before. -/
  again : Bool

namespace Met

/-- Whether a method has a docstring. -/
def documented (x : Met) : Bool := x.method.docstring.isSome

/-- Whether the metrics count a method. -/
def printed (s : Settings) (x : Met) : Bool :=
  Coverage.countsMethod (Model.Policy.ofSettings s) x.method.name

/-- Whether the report counts a method: it is public, of a model, and its file is read for the first
    time. -/
def reported (x : Met) : Bool := !x.again && x.ofModel && !Model.isPrivateName x.method.name

/-- Whether only the metrics count a method: its file is read again, its class is no model, or its
    name starts with two underscores. -/
def onlyPrinted (s : Settings) (x : Met) : Bool :=
  x.printed s && (x.again || !x.ofModel || Text.startsWith x.method.name "__")

/-- Whether only the report counts a method: the settings leave it out. -/
def onlyReported (s : Settings) (x : Met) : Bool :=
  x.reported && Datum.hasText s.skipDocstring x.method.name

end Met

/-- The methods of a file that is read. -/
def metIn (v : Visit) : List Met :=
  v.reading.survey.models.flatMap fun p =>
    (Groups.get p.1 v.reading.survey.methods).map fun m => ⟨m, p.2.isModel, v.again⟩

/-- The methods that a run meets. -/
def metOf (as : List Audited) :
    List Met := as.flatMap fun a => (Model.visits [] a.readings).flatMap metIn

/-- How many methods of a kind are documented, and how many there are. -/
def share (kind : Met → Bool) (xs : List Met) : Nat × Nat :=
  (xs.countP fun x => kind x && x.documented, xs.countP kind)

/-- Audits whose sources were read in a world. -/
def ReadIn (w : World) (as : List Audited) : Prop :=
  ∀ a ∈ as, ∃ files, Model.readSources w files = .ok a.readings

variable {as : List Audited} {w : World}

theorem readIn_of_audits {c : Config} {mode release : Option String} {paths : List String}
    (h : paths.mapM (audited w c mode release) = .ok as) : ReadIn w as := by
  intro a ha
  obtain ⟨path, -, haudited⟩ := Traversal.mem_of_mapM_ok h ha
  exact ⟨_, (audited_ok_iff.mp haudited).2⟩

/-! ## §2. The metrics. -/

theorem map_reading_visits (seen : List String) (rs : List (String × Reading)) :
    (visits seen rs).map (·.reading) = rs.map (·.2) := by
  induction rs generalizing seen with
  | nil => rfl
  | cons p rs ih => rw [visits, map_cons, map_cons, ih]

/-- The methods of a file are those of its survey, in the order of their classes. -/
theorem map_metIn_perm {v : Visit} (hnamed : WellNamed v.reading.survey.models)
    (hfiled : v.reading.survey.Filed) :
    ((metIn v).map (·.method)).Perm (v.reading.survey.methods.flatMap (·.2)) := by
  have hmap : (metIn v).map (·.method)
      = (v.reading.survey.models.map Prod.fst).flatMap (Groups.get · v.reading.survey.methods) := by
    unfold metIn
    rw [map_flatMap, flatMap_map]
    refine flatMap_congr fun p _ => ?_
    rw [map_map]
    exact map_id _
  rw [hmap]
  exact Groups.flatMap_get_perm hfiled.nodup hnamed.nodup hfiled.listed

/-- The methods that a run meets are all that its readings hold. -/
theorem map_metOf_perm (h : ReadIn w as) : ((metOf as).map (·.method)).Perm
    ((as.flatMap fun a => a.readings.map (·.2.survey)).flatMap fun s =>
    s.methods.flatMap (·.2)) := by
  unfold metOf
  rw [map_flatMap, flatMap_assoc]
  refine Perm.flatMap_left _ fun a ha => ?_
  obtain ⟨files, hfiles⟩ := h a ha
  have hsurveys : (a.readings.map (·.2.survey)).flatMap (fun s => s.methods.flatMap (·.2))
      = (visits [] a.readings).flatMap fun v => v.reading.survey.methods.flatMap (·.2) := by
    rw [← flatMap_map (fun v : Visit => v.reading) (fun r : Reading =>
      r.survey.methods.flatMap (·.2)), map_reading_visits, flatMap_map, flatMap_map]
  rw [hsurveys, map_flatMap]
  refine Perm.flatMap_left _ fun v hv => ?_
  obtain ⟨p, hp, hreading⟩ : ∃ p ∈ a.readings, p.2 = v.reading :=
    mem_map.mp (map_reading_visits [] a.readings ▸ mem_map_of_mem hv)
  have hread := readSource_of_mem hfiles hp
  rw [hreading] at hread
  exact map_metIn_perm (wellNamed_of_readSource hread) (filed_of_readSource hread)

/-- **What the metrics count.** -/
theorem share_printed (h : ReadIn w as) (s : Settings) :
    share (Met.printed s) (metOf as) = ((metricsOf s as).documented, (metricsOf s as).methods) := by
  have hperm := map_metOf_perm h
  unfold share metricsOf Metrics.of
  dsimp only
  rw [countP_filter, ← countP_eq_length_filter, ← hperm.countP_eq, ← hperm.countP_eq,
    countP_map, countP_map]
  refine Prod.ext (countP_congr fun x _ => ?_) rfl
  show _ ↔ (x.documented && x.printed s)
  rw [Bool.and_comm]

/-! ## §3. The report. -/

/-- A part of a tally that counts public methods, all or the documented ones. -/
structure CountsPublic (part : Tally → Nat) (e : Bool → Bool) : Prop where
  zero : part {} = 0
  add : ∀ a b, part (a.add b) = part a + part b
  tally : ∀ m : ModelMetrics, part m.tally = m.methods.countP fun x => x.isPublic && e x.documented

theorem countsPublic_methods : CountsPublic (·.methods) fun _ => true where
  zero := rfl
  add _ _ := rfl
  tally m := by
    simp only [Bool.and_true]
    exact countP_eq_length_filter.symm

theorem countsPublic_documented : CountsPublic (·.documented) id where
  zero := rfl
  add _ _ := rfl
  tally m := by
    refine (countP_filter ..).trans (countP_congr fun x _ => ?_)
    rw [Bool.and_comm]
    rfl

/-- The methods of a declaration. -/
def metBy (d : Declaration) : List Met := d.methods.map fun m => ⟨m, d.model.isModel, false⟩

/-- Public methods need docstrings, as far as there are no settings: all names that need none are
    private. -/
theorem countsMethod_standard {name : String} (h : isPrivateName name = false) :
    countsMethod standardPolicy name := by
  have hprivate : ∀ skipped ∈ defaultSkipDocstring, isPrivateName skipped := by decide
  have hskip : Datum.hasText standardPolicy.skipDocstring name = false := by
    refine eq_false_iff.mpr fun hskip => ?_
    obtain ⟨d, hd, hsame⟩ := any_eq_true.mp hskip
    obtain ⟨skipped, hmem, rfl⟩ := mem_map.mp hd
    rw [Datum.same, beq_iff_eq] at hsame
    rw [hsame] at hmem
    exact false_ne_true (h.symm.trans (hprivate name hmem))
  unfold countsMethod
  rw [hskip, show Text.startsWith name "_" = false from h]
  rfl

namespace CountsPublic

variable {part : Tally → Nat} {e : Bool → Bool}

theorem sum (h : CountsPublic part e) (ts : List Tally) :
    part (Tally.sum ts) = (ts.map part).sum := by
  have hfold : ∀ (ts : List Tally) (t : Tally), part (ts.foldl Tally.add t) =
      part t + (ts.map part).sum := by
    intro ts
    induction ts with
    | nil => exact fun t => (Nat.add_zero _).symm
    | cons u ts ih =>
      intro t
      rw [foldl_cons, ih, h.add, map_cons, sum_cons, Nat.add_assoc]
  rw [Tally.sum, hfold, h.zero, Nat.zero_add]

/-- A model that is left out has no methods at all. -/
theorem counted (h : CountsPublic part e) (m : ModelMetrics) :
    (((some m).filter (·.counts)).map fun m => part m.tally).getD 0
      = m.methods.countP fun x => x.isPublic && e x.documented := by
  rw [Option.filter_some]
  cases hcounts : m.counts with
  | true => exact h.tally m
  | false =>
    simp only [ModelMetrics.counts, or_eq_false_iff, not_eq_false', List.isEmpty_iff] at hcounts
    rw [hcounts.1]
    rfl

/-- A model counts with its public methods, and what is no model does not count. -/
theorem ofDeclaration (h : CountsPublic part e) (d : Declaration) :
    ((((ofDeclaration? standardPolicy d).filter (·.counts)).map fun m => part m.tally).getD 0)
      = (metBy d).countP fun x => x.reported && e x.documented := by
  unfold ofDeclaration? metBy
  rw [countP_map]
  cases hmodel : d.model.isModel with
  | false =>
    refine (countP_eq_zero.mpr fun m _ => ?_).symm
    simp [Met.reported]
  | true =>
    have hcount : ∀ ms : List MethodInfo,
        ((ms.filter fun m => countsMethod standardPolicy m.name).map fun m =>
          methodMetrics m.name m.docstring.isSome (m.docstring.getD "").length).countP
            (fun x => x.isPublic && e x.documented)
          = ms.countP ((fun x => x.reported && e x.documented) ∘ fun m =>
            (⟨m, true, false⟩ : Met)) := by
      intro ms
      rw [countP_map, countP_filter]
      refine countP_congr fun m _ => ?_
      show (!Model.isPrivateName m.name && e m.docstring.isSome && _)
        ↔ (!Model.isPrivateName m.name && e m.docstring.isSome)
      cases hprivate : isPrivateName m.name with
      | true => simp
      | false => rw [countsMethod_standard hprivate, Bool.and_true]
    rw [← hcount, Bool.not_true, if_neg Bool.false_ne_true]
    exact h.counted _

theorem ofDeclarations (h : CountsPublic part e) (name path : String) (ds : List Declaration) :
    part (ofDeclarations standardPolicy name path ds).tally
      = (ds.flatMap metBy).countP fun x => x.reported && e x.documented := by
  unfold Coverage.AddonMetrics.tally Coverage.ofDeclarations
  rw [h.sum, map_map, countP_flatMap]
  induction ds with
  | nil => rfl
  | cons d ds ih =>
    rw [map_cons, sum_cons, ← ih, Function.comp_apply, ← h.ofDeclaration d, filterMap_cons]
    cases ofDeclaration? standardPolicy d with
    | none => exact (Nat.zero_add _).symm
    | some m =>
      dsimp only
      rw [filter_cons, Option.filter_some]
      split
      · rfl
      · exact (Nat.zero_add _).symm

/-- A visit counts with what it adds to the declarations. -/
theorem visit (v : Visit) : (metIn v).countP (fun x => x.reported && e x.documented)
    = (v.declarations.flatMap metBy).countP fun x => x.reported && e x.documented := by
  obtain ⟨file, r, again⟩ := v
  cases again with
  | true =>
    refine countP_eq_zero.mpr fun x hx => ?_
    obtain ⟨p, -, hx⟩ := mem_flatMap.mp hx
    obtain ⟨m, -, rfl⟩ := mem_map.mp hx
    simp [Met.reported]
  | false =>
    have hmet : metIn ⟨file, r, false⟩ = (Visit.declarations ⟨file, r, false⟩).flatMap metBy := by
      unfold metIn Visit.declarations declarationsOf
      rw [if_neg Bool.false_ne_true, flatMap_map]
      rfl
    rw [hmet]

/-- **What the report counts**: the public methods of models, those of a file once. -/
theorem coverageOf (h : CountsPublic part e) {w : World} {as : List Audited} (hread : ReadIn w as) :
    part (coverageOf as).tally = (metOf as).countP fun x => x.reported && e x.documented := by
  unfold Summary.tally Audit.coverageOf metOf
  rw [h.sum, map_map, map_map, countP_flatMap]
  refine congrArg List.sum (List.map_congr_left fun a ha => ?_)
  obtain ⟨files, hfiles⟩ := hread a ha
  show part (Coverage.ofDeclarations standardPolicy _ _ _).tally
    = ((visits [] a.readings).flatMap metIn).countP _
  rw [h.ofDeclarations, declarations_eq hfiles, flatMap_assoc, countP_flatMap,
    countP_flatMap]
  exact congrArg List.sum (List.map_congr_left fun v _ => (visit v).symm)

end CountsPublic

theorem share_reported (h : ReadIn w as) :
    share Met.reported (metOf as) = ((coverageOf as).tally.documented,
    (coverageOf as).tally.methods) := by
  have hmethods := countsPublic_methods.coverageOf h
  simp only [Bool.and_true] at hmethods
  exact Prod.ext (countsPublic_documented.coverageOf h).symm hmethods.symm

/-! ## §4. The difference. -/

theorem countP_add_countP (p q : Met → Bool) (xs : List Met) :
    xs.countP p + xs.countP (fun x => q x && !p x) = xs.countP q + xs.countP fun x => p x &&
    !q x := by
  induction xs with
  | nil => rfl
  | cons x xs ih =>
    simp only [countP_cons]
    cases p x <;> cases q x <;> simp <;> omega

theorem startsWith_one_of_two {s : String} (h : Text.startsWith s "__") :
    Text.startsWith s "_" := by
  obtain ⟨rest, rfl⟩ := Text.startsWith_iff.mp h
  exact Text.startsWith_iff.mpr ⟨"_" ++ rest, by rw [← String.append_assoc]; rfl⟩

theorem Met.onlyPrinted_eq (s : Settings) (x : Met) :
    (x.printed s && !x.reported) = x.onlyPrinted s := by
  have htwo := @startsWith_one_of_two x.method.name
  unfold Met.onlyPrinted Met.reported Met.printed countsMethod isPrivateName
  revert htwo
  cases Text.startsWith x.method.name "__" <;> cases Text.startsWith x.method.name "_" <;>
    cases x.again <;> cases x.ofModel <;> simp

theorem Met.onlyReported_eq (s : Settings) (x : Met) :
    (x.reported && !x.printed s) = x.onlyReported s := by
  unfold Met.onlyReported Met.printed Met.reported countsMethod isPrivateName
  cases Text.startsWith x.method.name "_" <;> simp [Policy.ofSettings]

/-- **The two counts agree exactly if the methods that only one of them counts make up for those
    that only the other counts.** -/
theorem share_eq_iff (s : Settings) (xs : List Met) :
    share (Met.printed s) xs = share Met.reported xs
      ↔ share (Met.onlyPrinted s) xs = share (Met.onlyReported s) xs := by
  have htotal := countP_add_countP (Met.printed s) Met.reported xs
  have hdocumented := countP_add_countP (fun x => x.printed s && x.documented)
    (fun x => x.reported && x.documented) xs
  have hprinted : (fun x : Met => (x.printed s && x.documented) && !(x.reported && x.documented))
      = fun x => x.onlyPrinted s && x.documented := by
    funext x
    rw [← Met.onlyPrinted_eq]
    cases x.printed s <;> cases x.reported <;> simp
  have hreported : (fun x : Met => (x.reported && x.documented) && !(x.printed s && x.documented))
      = fun x => x.onlyReported s && x.documented := by
    funext x
    rw [← Met.onlyReported_eq]
    cases x.printed s <;> cases x.reported <;> simp
  rw [hprinted, hreported] at hdocumented
  rw [funext (Met.onlyPrinted_eq s), funext (Met.onlyReported_eq s)] at htotal
  unfold share
  rw [Prod.mk.injEq, Prod.mk.injEq]
  constructor <;> rintro ⟨hfirst, hsecond⟩ <;> exact ⟨by omega, by omega⟩

/-! ## §5. Runs. -/

theorem part?_methods (s : Summary) :
    part? ["summary", "methods", "documented"] s.document = some (countOf s.tally.documented) ∧
      part? ["summary", "methods", "total"] s.document = some (countOf s.tally.methods) := by
  constructor <;>
    simp [part?, Summary.document, methodsPart, tableOf, lookupText_cons]

/-- The record is among the lines about metrics, unless there is nothing to count. -/
theorem record_mem_lines {m : Metrics} (h : m.isEmpty = false) (n : Nat) :
    m.record ∈ m.lines n := by
  unfold Metrics.lines
  rw [if_neg (by rw [h]; exact false_ne_true)]
  simp

/-- **Both counts of docstrings.**  A run that prints its metrics and writes a report prints the
    share of the methods that are `Met.printed`, and reports the share of those that are
    `Met.reported`.  The two agree exactly if the methods that only the metrics count and those that
    only the report counts are as many. -/
theorem run_docstring_shares {q : Request} {w v : World} {o : Outcome} {path : String}
    (h : run q w = .ok o v) (hverbose : q.manner.verbose = true) (hshow : q.showCoverage = true)
    (hpath : given? q.reportPath = some path) :
    ∃ c as before, Ends q w v c as before ∧
      ((metricsOf c.settings as).isEmpty = true ∨ ∃ others, "METRICS:" ++ ",".intercalate
          (shareEntries "docstring" (share (Met.printed c.settings) (metOf as)).1
            (share (Met.printed c.settings) (metOf as)).2 ++ others)
        ∈ coverageLines q c.settings as) ∧
      ((∃ text, (coverageOf as).text = .ok text ∧ Written v (Path.tidy path) text) ∨
        ∃ f, ((coverageOf as).save path).verdict w = .error f) ∧
      part? ["summary", "methods", "documented"] (coverageOf as).document
        = some (Coverage.countOf (share Met.reported (metOf as)).1) ∧
      part? ["summary", "methods", "total"] (coverageOf as).document
        = some (Coverage.countOf (share Met.reported (metOf as)).2) ∧
      (share (Met.printed c.settings) (metOf as) = share Met.reported (metOf as) ↔
        share (Met.onlyPrinted c.settings) (metOf as)
          = share (Met.onlyReported c.settings) (metOf as)) := by
  obtain ⟨c, as, before, hends⟩ := ends_of_run h
  obtain ⟨release, -, -, -, -, has, -⟩ := hends.audits
  -- what was audited is what the files of the world say
  have hread : ReadIn w as := readIn_of_audits has
  refine ⟨c, as, before, hends, ?_, ?_, ?_, ?_, share_eq_iff c.settings (metOf as)⟩
  · rw [share_printed hread]
    cases hempty : (metricsOf c.settings as).isEmpty with
    | true => exact .inl rfl
    | false =>
      have hrecord := record_mem_lines hempty as.length
      unfold Metrics.record at hrecord
      rw [List.append_assoc, List.append_assoc] at hrecord
      unfold coverageLines
      rw [hverbose, hshow, Bool.and_true, if_pos rfl]
      exact .inr ⟨_, hrecord⟩
  · exact (hends.report hpath).imp_left fun hsaved => hsaved.2
  · rw [share_reported hread]
    exact (part?_methods _).1
  · rw [share_reported hread]
    exact (part?_methods _).2

/-- An addon with a model and a class that is none.  Each has a method; that of the model is
    documented. -/
def modelAndHelper : World where
  root := .folder [("m", .folder [
    ("__init__.py", .file ⟨#[]⟩),
    ("__manifest__.py", .file "\x7b'version': '17.0.1.0.0'\x7d".toUTF8),
    ("a.py", .file
      "class A(models.Model):\n def f(self):\n  'Adds.'\nclass B:\n def g(self):\n  0\n".toUTF8)])]

/-- What the run over this addon counts, in the metrics and in the report. -/
theorem run_modelAndHelper : ∃ o v, run wholeRun modelAndHelper = .ok o v ∧
    ∀ c as before, Ends wholeRun modelAndHelper v c as before → ReadIn modelAndHelper as ∧
      ((metricsOf c.settings as).documented, (metricsOf c.settings as).methods) = (1, 2) ∧
      ((coverageOf as).tally.documented, (coverageOf as).tally.methods) = (1, 1) := by
  obtain ⟨x, hx, hcounts⟩ : ∃ x, ((wholeRun.configure.verdict modelAndHelper).bind fun c =>
      (wholeRun.paths.mapM (audited modelAndHelper c none none)).map fun as =>
        (((metricsOf c.settings as).documented, (metricsOf c.settings as).methods),
          ((coverageOf as).tally.documented, (coverageOf as).tally.methods))) = .ok x ∧
      x = ((1, 2), (1, 1)) :=
    Traversal.ok_of_toOption_map (by decide +kernel)
  obtain ⟨d, hd, hx⟩ := Traversal.bind_ok_iff.mp hx
  obtain ⟨bs, hbs, rfl⟩ := Traversal.map_ok_iff.mp hx
  obtain ⟨v, hv⟩ := Session.ok_of_verdict (run_ok_iff.mpr ⟨d, none, bs, hd, rfl, hbs, rfl⟩)
  refine ⟨_, v, hv, fun c as before hends => ?_⟩
  obtain ⟨rfl, rfl⟩ := hends.unique hd rfl hbs
  exact ⟨readIn_of_audits hbs, Prod.mk.inj hcounts⟩

/-- The method of the class that is no model makes the difference. -/
theorem run_docstring_shares_modelAndHelper :
    ∃ o v c as before, run wholeRun modelAndHelper = .ok o v ∧
      Ends wholeRun modelAndHelper v c as before ∧
      share (Met.printed c.settings) (metOf as) = (1, 2) ∧ share Met.reported (metOf as) = (1, 1) ∧
      share (Met.onlyPrinted c.settings) (metOf as)
        ≠ share (Met.onlyReported c.settings) (metOf as) := by
  obtain ⟨o, v, hv, hcounts⟩ := run_modelAndHelper
  have hpath : given? wholeRun.reportPath = some "c.json" := rfl
  obtain ⟨c, as, before, hends, -, -, -, -, hiff⟩ := run_docstring_shares hv rfl rfl hpath
  obtain ⟨hread, hmetrics, htally⟩ := hcounts c as before hends
  have hprinted := (share_printed hread c.settings).trans hmetrics
  have hreported := (share_reported hread).trans htally
  refine ⟨o, v, c, as, before, hv, hends, hprinted, hreported, fun heq => ?_⟩
  rw [← hiff, hprinted, hreported] at heq
  cases heq

/-- The metrics of a run say two methods where its report says one. -/
theorem run_docstring_counts_differ : ∃ o v c as before, run wholeRun modelAndHelper = .ok o v ∧
      Ends wholeRun modelAndHelper v c as before ∧
      (metricsOf c.settings as).record ∈ coverageLines wholeRun c.settings as ∧
      (metricsOf c.settings as).methods = 2 ∧
      part? ["summary", "methods", "total"] (coverageOf as).document
        = some (Coverage.countOf 1) := by
  obtain ⟨o, v, hv, hcounts⟩ := run_modelAndHelper
  obtain ⟨c, as, before, hends⟩ := ends_of_run hv
  obtain ⟨-, hmetrics, htally⟩ := hcounts c as before hends
  obtain ⟨-, hmethods⟩ := Prod.mk.inj hmetrics
  obtain ⟨-, htotal⟩ := Prod.mk.inj htally
  have hempty : (metricsOf c.settings as).isEmpty = false := by simp [Metrics.isEmpty, hmethods]
  refine ⟨o, v, c, as, before, hv, hends, record_mem_lines hempty as.length, hmethods, ?_⟩
  rw [(part?_methods _).2, htotal]

end AddonAudit.Audit
