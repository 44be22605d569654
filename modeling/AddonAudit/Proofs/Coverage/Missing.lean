/-
  AddonAudit.Proofs.Coverage.Missing — what the checks find missing is what the metrics lack.

  The checks on declarations report methods without a docstring and fields without a label or help;
  the metrics count methods and fields, and those that are documented.  Both leave things out, each
  in its own words: the checks drop related fields where the metrics count what is not related, and
  what needs no label counts as labelled.  One declaration at a time the findings make up for the
  difference of the counts.
-/
import AddonAudit.Coverage.Analysis
import AddonAudit.Proofs.Checks.Names

namespace AddonAudit.Coverage

open List Traversal Model

open Model (Declaration FieldInfo MethodInfo Policy)

/-! ## §1. Tallies of declarations. -/

namespace Tally

theorem zero_add (t : Tally) : Tally.add {} t = t := by
  simp [Tally.add]

theorem add_assoc (a b c : Tally) : (a.add b).add c = a.add (b.add c) := by
  simp [Tally.add, Nat.add_assoc]

theorem sum_cons (t : Tally) (ts : List Tally) : sum (t :: ts) = t.add (sum ts) := by
  have hfold : ∀ (ts : List Tally) (a b : Tally), ts.foldl add (a.add b) =
      a.add (ts.foldl add b) := by
    intro ts
    induction ts with
    | nil => exact fun _ _ => rfl
    | cons u ts ih =>
      intro a b
      rw [foldl_cons, foldl_cons, add_assoc, ih]
  have hstart : add {} t = t.add {} := by simp [add]
  show ts.foldl add (add {} t) = t.add (ts.foldl add {})
  rw [hstart, hfold]

end Tally

/-- The tally of a declaration; what is no model counts for nothing. -/
def tallyOf (p : Policy) (d : Declaration) : Tally := ((ofDeclaration? p d).map (·.tally)).getD {}

/-- A model that is left out would count for nothing. -/
theorem ModelMetrics.tally_of_not_counts {m : ModelMetrics} (h : m.counts = false) :
    m.tally = {} := by
  simp only [counts, Bool.or_eq_false_iff, Bool.not_eq_false', List.isEmpty_iff] at h
  unfold tally
  rw [h.1, h.2]
  rfl

/-- **The tally of an addon is the sum of the tallies of its declarations.** -/
theorem tally_ofDeclarations (p : Policy) (name path : String) (ds : List Declaration) :
    (ofDeclarations p name path ds).tally = Tally.sum (ds.map (tallyOf p)) := by
  unfold AddonMetrics.tally ofDeclarations
  dsimp only
  induction ds with
  | nil => rfl
  | cons d ds ih =>
    rw [map_cons, Tally.sum_cons, ← ih, filterMap_cons]
    unfold tallyOf
    cases ofDeclaration? p d with
    | none => exact (Tally.zero_add _).symm
    | some m =>
      show Tally.sum ((filter _ (m :: _)).map _) = m.tally.add _
      cases hcounts : m.counts with
      | true => rw [filter_cons_of_pos hcounts, map_cons, Tally.sum_cons]
      | false =>
        rw [filter_cons_of_neg (by simp [hcounts]), ModelMetrics.tally_of_not_counts hcounts,
          Tally.zero_add]

/-! ## §2. Checks that account for a difference. -/

/-- A check that accounts for a difference of two counts: it finds as many things in a declaration
    as count in it and are not documented. -/
structure Accounts (p : Policy) (check : Declaration → List Finding) (whole part : Tally → Nat) :
    Prop where
  whole_add : ∀ a b, whole (a.add b) = whole a + whole b
  part_add : ∀ a b, part (a.add b) = part a + part b
  zero : whole {} = 0 ∧ part {} = 0
  each : ∀ d, (check d).length + part (tallyOf p d) = whole (tallyOf p d)

/-- **A check that accounts for each declaration accounts for all of them.** -/
theorem Accounts.sum {p : Policy} {check : Declaration → List Finding} {whole part : Tally → Nat}
    (h : Accounts p check whole part) (ds : List Declaration) :
    (ds.flatMap check).length + part (Tally.sum (ds.map (tallyOf p))) =
    whole (Tally.sum (ds.map (tallyOf p))) := by
  induction ds with
  | nil =>
    show 0 + part {} = whole {}
    rw [h.zero.1, h.zero.2]
  | cons d ds ih =>
    have hd := h.each d
    rw [flatMap_cons, length_append, map_cons, Tally.sum_cons, h.part_add, h.whole_add]
    omega

/-- Members that a test holds for, with and without a property. -/
theorem countP_split {α : Type} (test property : α → Bool) (xs : List α) :
    xs.countP (fun x => test x && !property x) + xs.countP (fun x => property x && test x) =
    xs.countP test := by
  induction xs with
  | nil => rfl
  | cons x xs ih =>
    simp only [countP_cons]
    cases test x <;> cases property x <;> simp <;> omega

/-! ## §3. The three checks. -/

/-- Methods that are to have a docstring. -/
def owesDocstring (p : Policy) (m : MethodInfo) : Bool :=
  !Model.isPrivateName m.name && !Datum.hasText p.skipDocstring m.name

/-- Fields that are to be described. -/
def owesText (f : FieldInfo) : Bool := !Model.isPrivateName f.name && !f.related.truthy

/-- Whether a field has a text, or needs none. -/
def describedBy (text : FieldInfo → Option String) (skip : List Datum) (f : FieldInfo) : Bool :=
  (Model.filled? (text f)).isSome || Datum.hasText skip f.name

/-- What is no model counts for nothing. -/
theorem tallyOf_of_not_model {p : Policy} {d : Declaration} (h : d.model.isModel = false) :
    tallyOf p d = {} := by
  unfold tallyOf ofDeclaration?
  rw [h]
  rfl

/-- **What counts in a model**, by its own methods and fields. -/
theorem tallyOf_of_model {p : Policy} {d : Declaration} (h : d.model.isModel) :
    tallyOf p d = {
      methods := d.methods.countP (owesDocstring p)
      documented := d.methods.countP fun m => m.docstring.isSome && owesDocstring p m
      fields := d.fields.countP owesText
      labelled := d.fields.countP fun f => describedBy (·.label) p.skipLabel f && owesText f
      helped := d.fields.countP fun f => describedBy (·.help) p.skipHelp f && owesText f } := by
  -- a name with two leading underscores has one too, so that the metrics count public methods only
  have hmethod : ∀ m : MethodInfo,
      (!Text.startsWith m.name "_" && countsMethod p m.name) = owesDocstring p m := by
    intro m
    unfold countsMethod owesDocstring isPrivateName
    cases Text.startsWith m.name "_" <;> simp
  unfold tallyOf ofDeclaration?
  rw [h]
  simp only [Bool.not_true, Bool.false_eq_true, if_false, Option.map_some, Option.getD_some,
    ModelMetrics.tally, ← countP_eq_length_filter, countP_filter, countP_map, Function.comp_def,
    methodMetrics,
    fieldMetrics, Bool.and_assoc, hmethod]
  congr 1 <;> refine countP_congr fun f _ => ?_
  · unfold countsField owesText isPrivateName
    rw [Bool.and_comm]
  all_goals
    unfold describedBy countsField owesText isPrivateName
    cases f.related.truthy <;> simp

theorem accounts_missingDocstrings (p : Policy) :
    Accounts p (missingDocstrings p) (·.methods) (·.documented) where
  whole_add _ _ := rfl
  part_add _ _ := rfl
  zero := ⟨rfl, rfl⟩
  each d := by
    unfold missingDocstrings
    cases hmodel : d.model.isModel with
    | false =>
      rw [tallyOf_of_not_model hmodel]
      rfl
    | true =>
      have hsplit := countP_split (owesDocstring p) (fun m : MethodInfo =>
        m.docstring.isSome) d.methods
      rw [tallyOf_of_model hmodel, Bool.not_true, if_neg Bool.false_ne_true, length_map,
        ← countP_eq_length_filter, ← hsplit]
      simp [owesDocstring]

/-- Fields without a text that they are to have, and those that are to be described and are. -/
theorem missing_add_described (text : FieldInfo → Option String) (skip : List Datum)
    (fs : List FieldInfo) :
    (fs.filter fun f => needsAttribute skip f && (filled? (text f)).isNone).length +
      fs.countP (fun f => describedBy text skip f && owesText f) = fs.countP owesText := by
  rw [← countP_split owesText (describedBy text skip) fs, ← countP_eq_length_filter]
  refine congrArg (· + _) (countP_congr fun f _ => ?_)
  unfold needsAttribute describedBy owesText
  cases isPrivateName f.name <;> cases Datum.hasText skip f.name <;> cases f.related.truthy <;> simp

theorem accounts_missingLabels (p : Policy) :
    Accounts p (missingLabels p) (·.fields) (·.labelled) where
  whole_add _ _ := rfl
  part_add _ _ := rfl
  zero := ⟨rfl, rfl⟩
  each d := by
    unfold missingLabels
    cases hmodel : d.model.isModel with
    | false =>
      rw [tallyOf_of_not_model hmodel]
      rfl
    | true =>
      rw [tallyOf_of_model hmodel, Bool.not_true, if_neg Bool.false_ne_true, length_map]
      exact missing_add_described (·.label) p.skipLabel d.fields

theorem accounts_missingHelp (p : Policy) : Accounts p (missingHelp p) (·.fields) (·.helped) where
  whole_add _ _ := rfl
  part_add _ _ := rfl
  zero := ⟨rfl, rfl⟩
  each d := by
    unfold missingHelp
    cases hmodel : d.model.isModel with
    | false =>
      rw [tallyOf_of_not_model hmodel]
      rfl
    | true =>
      rw [tallyOf_of_model hmodel, Bool.not_true, if_neg Bool.false_ne_true, length_map]
      exact missing_add_described (·.help) p.skipHelp d.fields

/-! ## §4. Findings by name. -/

/-- The names of checks on declarations that have no count of their own. -/
def uncountedNames : List String :=
  ["python_syntax_error", "python_duplicate_field_label", "python_inconsistent_compute_sudo",
   "python_selection_on_related"] ++ Model.poorNames

/-- **Which findings are reported under a name** that only the three checks may have. -/
theorem get_checkSources {w : World} {p : Policy} {files : List String}
    {readings : List (String × Reading)} {found : Findings}
    (hread : readSources w files = .ok readings) (h : checkSources w p files = .ok found)
    {check : String} (hcheck : check ∉ uncountedNames) :
    Groups.get check found = ((((declarations readings).flatMap (missingHelp p) ++
      (declarations readings).flatMap (missingLabels p)) ++
      (declarations readings).flatMap (missingDocstrings p)).filter (·.check == check)).map
      (·.message) := by
  have hother : ∀ {names : List String} {fs : List Finding}, Named names fs →
    names ⊆ uncountedNames →
      fs.filter (·.check == check) = [] :=
    fun hnamed hsub => hnamed.filter_of_not_mem fun hmem => hcheck (hsub hmem)
  obtain ⟨read, hread', h⟩ := bind_ok_iff.mp h
  obtain rfl : readings = read := Except.ok.inj (hread.symm.trans hread')
  obtain ⟨all, hall, h⟩ := bind_ok_iff.mp h
  obtain ⟨poor, hpoor, hparts⟩ := bind_ok_iff.mp hall
  cases h
  cases hparts
  rw [Findings.get_ofList]
  simp only [filter_append]
  rw [hother (named_malformed _) (by decide),
    hother (Named.flatten_of_mapM (fun _ _ => named_poorDocstrings) hpoor) (by decide),
    hother (Named.flatMap named_duplicateLabels _) (by decide),
    hother (Named.flatMap named_inconsistentSudo _) (by decide),
    hother (Named.flatMap named_selectionOnRelated _) (by decide)]
  simp only [nil_append, append_nil]

/-! ## §5. Source files. -/

section Sources

variable {w : World} {s : Settings} {files : List String} {readings : List (String × Model.Reading)}

/-- How many messages each of the three checks reports. -/
theorem length_get_checkSources {p : Policy} {found : Findings}
    (hread : readSources w files = .ok readings) (h : checkSources w p files = .ok found) :
    (Groups.get "python_method_missing_docstring" found).length
        = ((declarations readings).flatMap (missingDocstrings p)).length ∧
      (Groups.get "python_field_missing_string" found).length
        = ((declarations readings).flatMap (missingLabels p)).length ∧
      (Groups.get "python_field_missing_help" found).length
        = ((declarations readings).flatMap (missingHelp p)).length := by
  have hdocstrings := Named.flatMap (named_missingDocstrings p) (declarations readings)
  have hlabels := Named.flatMap (named_missingLabels p) (declarations readings)
  have hhelp := Named.flatMap (named_missingHelp p) (declarations readings)
  refine ⟨?_, ?_, ?_⟩
  · rw [get_checkSources hread h (by decide), length_map, filter_append, filter_append,
      hhelp.filter_of_not_mem (by decide), hlabels.filter_of_not_mem (by decide),
      hdocstrings.filter_self]
    rfl
  · rw [get_checkSources hread h (by decide), length_map, filter_append, filter_append,
      hhelp.filter_of_not_mem (by decide), hlabels.filter_self,
      hdocstrings.filter_of_not_mem (by decide),
      nil_append, append_nil]
  · rw [get_checkSources hread h (by decide), length_map, filter_append, filter_append,
      hhelp.filter_self, hlabels.filter_of_not_mem (by decide),
      hdocstrings.filter_of_not_mem (by decide),
      append_nil, append_nil]

/-- Only a least length of docstrings that is no number makes the checks on source files fail. -/
theorem checkSources_ok {p : Policy} (hread : readSources w files = .ok readings)
    (hmin : ∀ n, (natLess? n p.minDocstring).isSome) :
    ∃ found, checkSources w p files = .ok found := by
  have hdocstring : ∀ d m text, ∃ fs, docstringFindings p d m text = .ok fs := by
    intro d m text
    obtain ⟨short, hshort⟩ := Option.isSome_iff_exists.mp (hmin (Text.strip text).length)
    unfold docstringFindings
    rw [hshort]
    exact ⟨_, rfl⟩
  have hpoor : ∀ d, ∃ fs, poorDocstrings p d = .ok fs := by
    intro d
    unfold poorDocstrings
    split
    · exact ⟨_, rfl⟩
    · refine exists_bind_ok (mapM_ok_of_forall _ fun m _ => ?_) fun parts => ⟨_, rfl⟩
      cases m.docstring with
      | none => exact ⟨_, rfl⟩
      | some text =>
        dsimp only
        split
        · exact ⟨_, rfl⟩
        · exact hdocstring d m text
  obtain ⟨all, hfound⟩ : ∃ all, checkDeclarations p (declarations readings) = .ok all :=
    exists_bind_ok (mapM_ok_of_forall _ fun d _ => hpoor d) fun poor => ⟨_, rfl⟩
  exact ⟨_, bind_ok_iff.mpr ⟨readings, hread, bind_ok_iff.mpr ⟨all, hfound, rfl⟩⟩⟩

/-- **The checks find missing exactly what the metrics lack.**  Take settings and source files that
    can be read.  The methods that the checks find without a docstring are as many as count and are
    not documented, and likewise the fields without a label and those without help.  The messages of
    a whole check are as many too, and there is such a check unless the least length of docstrings
    is no number. -/
theorem checkSources_missing (s : Settings) (name path : String)
    (hread : Model.readSources w files = .ok readings) :
    let p := Policy.ofSettings s
    let ds := Model.declarations readings
    let t := (ofDeclarations p name path ds).tally
    (((ds.flatMap (Model.missingDocstrings p)).length : Int) = t.methods - t.documented ∧
      ((ds.flatMap (Model.missingLabels p)).length : Int) = t.fields - t.labelled ∧
      ((ds.flatMap (Model.missingHelp p)).length : Int) = t.fields - t.helped) ∧
    (∀ found, Model.checkSources w p files = .ok found →
      ((Groups.get "python_method_missing_docstring" found).length : Int)
        = t.methods - t.documented ∧
      ((Groups.get "python_field_missing_string" found).length : Int) = t.fields - t.labelled ∧
      ((Groups.get "python_field_missing_help" found).length : Int) = t.fields - t.helped) ∧
    ((∀ n, (natLess? n s.minDocstring).isSome = true) →
      ∃ found, Model.checkSources w p files = .ok found) := by
  intro p ds t
  have htally : t = Tally.sum (ds.map (tallyOf p)) := tally_ofDeclarations p name path ds
  have hdocstrings := (accounts_missingDocstrings p).sum ds
  have hlabels := (accounts_missingLabels p).sum ds
  have hhelp := (accounts_missingHelp p).sum ds
  rw [← htally] at hdocstrings hlabels hhelp
  -- each check accounts for one difference of the tally
  have hcounts : ((ds.flatMap (Model.missingDocstrings p)).length : Int) =
    t.methods - t.documented ∧
      ((ds.flatMap (Model.missingLabels p)).length : Int) = t.fields - t.labelled ∧
      ((ds.flatMap (Model.missingHelp p)).length : Int) = t.fields - t.helped :=
    ⟨by omega, by omega, by omega⟩
  refine ⟨hcounts, fun found hfound => ?_, checkSources_ok (p := p) hread⟩
  obtain ⟨hmethods, hstrings, hhelps⟩ := length_get_checkSources hread hfound
  rw [hmethods, hstrings, hhelps]
  exact hcounts

end Sources

/-- A file with a model whose field and method have no texts, and a class that is no model. -/
def bareModel : World where
  root := .folder [("a.py", .file
    "class A(models.Model):\n x = fields.Char()\n def f(self):\n  0\nclass B:\n def g(self):\n  0\n".toUTF8)]

/-- One method and one field count, and neither has a text: each check finds one thing missing. -/
theorem checkSources_missing_bareModel :
    ∃ s readings found, Settings.load bareModel none = .ok s ∧
      Model.readSources bareModel ["/a.py"] = .ok readings ∧
      Model.checkSources bareModel (Policy.ofSettings s) ["/a.py"] = .ok found ∧
      (ofDeclarations (Policy.ofSettings s) "m" "" (Model.declarations readings)).tally
        = { methods := 1, fields := 1 } ∧
      (Groups.get "python_method_missing_docstring" found).length = 1 ∧
      (Groups.get "python_field_missing_string" found).length = 1 ∧
      (Groups.get "python_field_missing_help" found).length = 1 := by
  obtain ⟨t, ht, htally⟩ : ∃ t, ((Settings.load bareModel none).bind fun s =>
      (Model.readSources bareModel ["/a.py"]).bind fun readings =>
        (Model.checkSources bareModel (Policy.ofSettings s) ["/a.py"]).map fun _ =>
          (ofDeclarations (Policy.ofSettings s) "m" "" (Model.declarations readings)).tally)
        = .ok t ∧
      t = { methods := 1, fields := 1 } :=
    Traversal.ok_of_toOption_map (by decide +kernel)
  obtain ⟨s, hs, ht⟩ := Traversal.bind_ok_iff.mp ht
  obtain ⟨readings, hread, ht⟩ := Traversal.bind_ok_iff.mp ht
  obtain ⟨found, hfound, ht⟩ := Traversal.map_ok_iff.mp ht
  obtain ⟨-, hcounts, -⟩ := checkSources_missing s "m" "" hread
  obtain ⟨hdocstrings, hlabels, hhelp⟩ := hcounts found hfound
  rw [← ht] at htally
  rw [htally] at hdocstrings hlabels hhelp
  exact ⟨s, readings, found, hs, hread, hfound, htally, Int.ofNat.inj hdocstrings,
    Int.ofNat.inj hlabels, Int.ofNat.inj hhelp⟩

end AddonAudit.Coverage
