/-
  AddonAudit.Proofs.Audit.Scope — the scope of changed files raises no alarm of its own.

  A configuration whose scope is the changed files looks at a part of the files that it looks at in
  full, and every check narrows.  So checks that end in full end on any set of changed files, and
  what is reported then has a counterpart in full.

  Main result: `checkAddon_narrows`.
-/
import AddonAudit.Proofs.Audit.Run
import AddonAudit.Proofs.Checks.Narrowing

namespace AddonAudit

open Traversal (bind_ok_iff mapM_related ok_of_toOption_map)

variable {w : World} {c : Config} {changed : List String}

/-! ## §1. Two scopes. -/

namespace Config

theorem changedOnly_full (c : Config) : (c.withScope "full").settings.changedOnly = false := by
  show (Datum.text "full").same (.text "changed") = false
  decide +kernel

theorem told_of_changedFiles {c₁ : Config} (h : c.changedFiles.verdict w = .ok (.ok changed, c₁)) :
    c.told w = .ok changed := by
  obtain ⟨c', hv, -⟩ := c.gives_changedFiles w
  exact (Prod.mk.inj (Except.ok.inj (hv.verdict.symm.trans h))).1

/-- Changed files that are told keep a part of everything. -/
theorem kept_sublist {α : Type} (h : c.told w = .ok changed) (path : α → String) (xs : List α) :
    ∃ xs', c.kept w path xs = .ok xs' ∧ xs'.Sublist xs := by
  unfold kept
  split
  · exact ⟨xs, rfl, List.Sublist.refl xs⟩
  · rw [h]
    exact ⟨_, rfl, List.filter_sublist⟩

end Config

/-! ## §2. The files in a scope. -/

namespace Addon

/-- The files of some extensions. -/
def allOf (a : Addon) (extensions : List String) : List DataFile :=
  extensions.flatMap fun e => Groups.get e a.files

theorem allWithin_full (h : c.settings.changedOnly = false) (a : Addon) (extensions : List String) :
    a.allWithin w c extensions = .ok (a.allOf extensions) := by
  have hwithin : ∀ e, a.within w c e = .ok (Groups.get e a.files) := by
    intro e
    unfold within Config.kept
    rw [h]
    cases Groups.get e a.files <;> rfl
  induction extensions with
  | nil => rfl
  | cons e es ih =>
    unfold allWithin
    rw [hwithin, ih]
    rfl

/-- **The files in a scope are a part of all files.** -/
theorem allWithin_sublist (h : c.told w = .ok changed) (a : Addon) (extensions : List String) :
    ∃ files, a.allWithin w c extensions = .ok files ∧ files.Sublist (a.allOf extensions) := by
  have hwithin : ∀ e, ∃ files, a.within w c e = .ok files ∧
      files.Sublist (Groups.get e a.files) := by
    intro e
    unfold within
    cases Groups.get e a.files with
    | nil => exact ⟨[], rfl, List.Sublist.refl []⟩
    | cons f fs => exact Config.kept_sublist h _ _
  induction extensions with
  | nil => exact ⟨[], rfl, List.Sublist.refl []⟩
  | cons e es ih =>
    obtain ⟨files, hfiles, hsub⟩ := hwithin e
    obtain ⟨more, hmore, hsub'⟩ := ih
    refine ⟨files ++ more, ?_, hsub.append hsub'⟩
    unfold allWithin
    rw [hfiles, hmore]
    rfl

end Addon

/-! ## §3. Addons and checks. -/

/-- Once it is known what changed, the scope has no part in what an addon is. -/
theorem Addon.built_withScope {ch : Changes} (h : c.known w = .ok ch) (scope scope' path : String)
    (release : Option String) :
    built w (c.withScope scope) path release = built w (c.withScope scope') path release := by
  -- the changed files are known, so that no scope makes it fail
  have hend : ∀ (scope : String) (addon : Addon),
      (if (c.withScope scope).settings.changedOnly then ((c.withScope scope).known w).map fun _ =>
      addon
        else pure addon : Except Fault Addon) = .ok addon := by
    intro scope addon
    have hknown : (c.withScope scope).known w = .ok ch := h
    rw [hknown]
    split <;> rfl
  have hrelease : ∀ (scope folder : String) (manifest : Datum),
      (releaseOf (c.withScope scope) w folder manifest release).map Prod.fst
        = (releaseOf c w folder manifest release).map Prod.fst := by
    intro scope folder manifest
    rw [releaseOf_eq, releaseOf_eq]
    cases named manifest release with
    | error f => rfl
    | ok own =>
      cases own with
      | some v => rfl
      | none =>
        show Except.map Prod.fst ((c.withScope scope).release w folder)
          = Except.map Prod.fst (c.release w folder)
        rw [Config.release_fst, Config.release_fst]
        rfl
  unfold built
  simp only [hend, hrelease]
  rfl

/-- Whatever a check finds among changed files has a counterpart in full. -/
theorem Check.found_narrows (h : c.told w = .ok changed) (mode : Option String) (a : Addon)
    (k : Check) (fs : Findings) (hfs : k.found w (c.withScope "full") mode a = .ok fs) :
    ∃ fs', k.found w (c.withScope "changed") mode a = .ok fs' ∧ ∀ name, fs'.Has name →
    fs.Has name := by
  unfold found at hfs ⊢
  split at hfs
  next hskip =>
    rw [if_pos hskip]
    cases hfs
    exact ⟨[], rfl, fun _ => id⟩
  next hskip =>
    rw [if_neg hskip]
    -- neither what is told about changes nor the rules depend on the scope
    have htold : (c.withScope "changed").told w = .ok changed := h
    rw [Addon.allWithin_full c.changedOnly_full] at hfs
    obtain ⟨files, hfiles, hsub⟩ := Addon.allWithin_sublist htold a k.extensions
    rw [hfiles]
    exact k.narrows_findings w c.settings a _ _ _ hsub hfs

namespace Audit

/-- Checks that end in full end on the changed files, and report nothing else there. -/
theorem checked_narrows (h : c.told w = .ok changed) {mode release : Option String} {path : String}
    {addon : Addon} {full : Report} (hfull : checked w (c.withScope "full") mode release path
      = .ok (addon, full)) :
    ∃ narrow, checked w (c.withScope "changed") mode release path = .ok (addon, narrow) ∧
      ∀ check, narrow.findings.Has check → full.findings.Has check := by
  obtain ⟨ch, hknown, -⟩ := bind_ok_iff.mp h
  obtain ⟨hbuilt, parts, hparts, rfl⟩ := checked_ok_iff.mp hfull
  obtain ⟨parts', hparts', hhas⟩ := mapM_related (Check.found_narrows h mode addon) hparts
  have hbuilt' := (Addon.built_withScope hknown "changed" "full" (w.resolve path) release).trans
    hbuilt
  refine ⟨_, checked_ok_iff.mpr ⟨hbuilt', parts', hparts', rfl⟩, fun check hcheck => ?_⟩
  obtain ⟨henabled, hcheck⟩ := (Report.has_addAll_nil _ _ _).mp hcheck
  obtain ⟨fs', hfs', hcheck⟩ := Findings.has_flatten.mp hcheck
  obtain ⟨fs, hfs, hsub⟩ := hhas fs' hfs'
  exact (Report.has_addAll_nil _ _ _).mpr ⟨henabled,
    Findings.has_flatten.mpr ⟨fs, hfs, hsub _ hcheck⟩⟩

/-- **The scope of changed files raises no alarm of its own.**  Whatever the changed files are, if
    all checks on an addon end in full they end on the changed files, each check with a message
    there has a message in full, and so an addon that does not block in full does not block
    there. -/
theorem checkAddon_narrows {m : Check.Manner} {c c₁ c₂ : Config} {path : String}
    {release : Option String} {w : World} {changed : List String} {addon : Addon} {full : Report}
    (hchanged : c.changedFiles.verdict w = .ok (.ok changed, c₁))
    (hfull : (checkAddon m (c.withScope "full") path release).verdict w = .ok ((addon, full), c₂)) :
    ∃ narrow c₃,
      (checkAddon m (c.withScope "changed") path release).verdict w = .ok ((addon, narrow), c₃) ∧
      (∀ check, narrow.findings.Has check → full.findings.Has check) ∧
      (full.isBlocking = false → narrow.isBlocking = false) := by
  have htold := Config.told_of_changedFiles hchanged
  have hchecked := checkAddon_ok_iff.mp ⟨c₂, hfull⟩
  obtain ⟨narrow, hnarrow, hhas⟩ := checked_narrows htold hchecked
  obtain ⟨c₃, hended⟩ := checkAddon_ok_iff.mpr hnarrow
  refine ⟨narrow, c₃, hended, hhas, fun hfree => ?_⟩
  rw [← Bool.not_eq_true] at hfree ⊢
  refine mt (Report.isBlocking_of_has hhas fun check => ?_) hfree
  rw [settings_of_checked hnarrow, settings_of_checked hchecked]
  rfl

/-- An addon with two tables in which one id occurs. -/
def twoTables : World where
  root := .folder [("m", .folder [
    ("__init__.py", .file ⟨#[]⟩),
    ("__manifest__.py", .file "\x7b'data': ['a.csv', 'b.csv']\x7d".toUTF8),
    ("a.csv", .file "id\nx\n".toUTF8),
    ("b.csv", .file "id\nx\n".toUTF8)])]

/-- Settings under which the first of the tables has changed. -/
def firstChanged : Config where
  settings := {
    scope := .null, baseBranch := .null, release := none, severities := defaultSeverities
    blocking := [.text "error"], disabled := [], skipLabel := [], skipHelp := [], skipDocstring :=
      []
    minDocstring := .int 10, excludes := .list [] }
  changes := some { context := .desk, base := .null, files := some ["/m/a.csv"] }

theorem check_twoTables :
    ∃ p, (checkAddon {} (firstChanged.withScope "full") "m" none).verdict twoTables = .ok p ∧
      p.1.2.findings.map Prod.fst = ["csv_duplicate_record_id", "missing_readme"] :=
  ok_of_toOption_map (by decide +kernel)

/-- Alone, the first table repeats nothing. -/
theorem checkAddon_narrows_twoTables : ∃ addon full narrow c₂ c₃,
      (checkAddon {} (firstChanged.withScope "full") "m" none).verdict twoTables
        = .ok ((addon, full), c₂) ∧
      full.findings.map Prod.fst = ["csv_duplicate_record_id", "missing_readme"] ∧
      (checkAddon {} (firstChanged.withScope "changed") "m" none).verdict twoTables
        = .ok ((addon, narrow), c₃) ∧
      narrow.findings.map Prod.fst = ["missing_readme"] ∧
      ∀ check, narrow.findings.Has check → full.findings.Has check := by
  obtain ⟨⟨⟨addon, full⟩, c₂⟩, hfull, hnames⟩ := check_twoTables
  obtain ⟨p, hchanged, hnarrowed⟩ : ∃ p,
      (checkAddon {} (firstChanged.withScope "changed") "m" none).verdict twoTables = .ok p ∧
      p.1.2.findings.map Prod.fst = ["missing_readme"] := ok_of_toOption_map (by decide +kernel)
  obtain ⟨narrow, c₃, hnarrow, hchecks, -⟩ := checkAddon_narrows (c := firstChanged) rfl hfull
  cases hchanged.symm.trans hnarrow
  exact ⟨addon, full, narrow, c₂, c₃, hfull, hnames, hnarrow, hnarrowed, hchecks⟩

end Audit

end AddonAudit
