/-
  AddonAudit.Proofs.Audit.Grading — how findings are graded decides nothing else.

  Settings grade findings: they disable checks, set severities and say which severities block.  No
  check reads any of this.  Everything that is found passes one gate, at which the findings of
  disabled checks are dropped; so two gradings of one audit store the same messages, less what each
  of them disables.
-/
import AddonAudit.Proofs.Audit.Scope

namespace AddonAudit

/-! ## §1. Gradings. -/

/-- How findings are graded. -/
structure Grading where
  /-- The checks that are not reported. -/
  disabled : List Datum
  severities : List (Datum × Severity)
  /-- The severities that block, by name. -/
  blocking : List Datum

/-- The same grading with no check disabled. -/
def Grading.reportingAll (g : Grading) : Grading := { g with disabled := [] }

/-- Settings that differ from others in the grading only. -/
def Settings.graded (s : Settings) (g : Grading) : Settings :=
  { s with disabled := g.disabled, severities := g.severities, blocking := g.blocking }

/-- A configuration that differs from another in the grading only. -/
def Config.graded (c : Config) (g : Grading) : Config := { c with settings := c.settings.graded g }

/-- Findings without those of some checks. -/
def Findings.without (fs : Findings) (disabled : List Datum) : Findings :=
  fs.filter fun e => !Datum.hasText disabled e.1

/-! ## §2. Reports. -/

/-- Dropping keys before or after values are added makes no difference; what is added under a
    dropped key is lost. -/
theorem Groups.filter_append {κ α : Type} [BEq κ] [LawfulBEq κ] (keep : κ → Bool) (key : κ)
    (values : List α) (g : Groups κ α) : (append key values g).filter (fun e => keep e.1) =
      if keep key then append key values (g.filter fun e => keep e.1) else g.filter fun e =>
      keep e.1 := by
  induction g with
  | nil => by_cases hkeep : keep key <;> simp [append, hkeep]
  | cons p g ih =>
    obtain ⟨k, vs⟩ := p
    by_cases hkey : k = key
    · subst hkey
      by_cases hkeep : keep k <;> simp [append, hkeep]
    · -- the entry in front is another one, so it stays or goes on its own
      have hne : (k == key) = false := by simp [hkey]
      by_cases hk : keep k <;> by_cases hkeep : keep key <;>
        simp [append, hne, hk, hkeep, ih]

namespace Report

/-- Two reports of which the second is the first without the checks that it disables. -/
def Thins (r r' : Report) : Prop :=
  r.settings.disabled = [] ∧ r'.findings = r.findings.without r'.settings.disabled

/-- Adding the messages of a check keeps a report thinner by its disabled checks. -/
theorem Thins.add {r r' : Report} (h : Thins r r') (check : String) (messages : List String) :
    Thins (r.add check messages) (r'.add check messages) := by
  obtain ⟨hall, hfindings⟩ := h
  refine ⟨by rw [add_settings]; exact hall, ?_⟩
  rw [add_settings]
  have henabled : r.settings.isDisabled check = false := by
    unfold Settings.isDisabled
    rw [hall]
    rfl
  unfold Report.add
  cases messages with
  | nil => exact hfindings
  | cons m ms =>
    rw [henabled]
    have hgate := Groups.filter_append (fun name => !Datum.hasText r'.settings.disabled name) check
      ((m :: ms).map shorten) r.findings
    -- the gate of the second report is the one by which the first one is thinned
    cases hdisabled : r'.settings.isDisabled check with
    | true =>
      have hhas : Datum.hasText r'.settings.disabled check := hdisabled
      simp only [hhas, Bool.not_true, Bool.false_eq_true, if_false] at hgate
      exact hfindings.trans hgate.symm
    | false =>
      have hhas : Datum.hasText r'.settings.disabled check = false := hdisabled
      simp only [hhas, Bool.not_false, if_true] at hgate
      show Groups.append check ((m :: ms).map shorten) r'.findings = _
      rw [hfindings]
      exact hgate.symm

theorem Thins.addAll (found : Findings) :
    ∀ {r r' : Report}, Thins r r' → Thins (r.addAll found) (r'.addAll found) := by
  induction found with
  | nil => exact fun h => h
  | cons f found ih => exact fun h => ih (h.add f.1 f.2)

/-- **A report under a grading is the ungraded one without its disabled checks.** -/
theorem addAll_graded (s : Settings) (g g' : Grading) (found : Findings) :
    ({ settings := s.graded g } : Report).addAll found
      = { settings := s.graded g
          findings :=
          ((({ settings := s.graded g'.reportingAll } : Report).addAll found).findings).without
            g.disabled } := by
  have hstart : Thins { settings := s.graded g'.reportingAll } { settings := s.graded g } :=
    ⟨rfl, rfl⟩
  have hthin := (hstart.addAll found).2
  have hsettings := addAll_settings found { settings := s.graded g }
  generalize ({ settings := s.graded g } : Report).addAll found = r at hthin hsettings ⊢
  cases r
  simp only at hthin hsettings
  rw [hthin, hsettings]
  rfl

end Report

/-! ## §3. What does not see the grading. -/

theorem Addon.allWithin_graded (w : World) (c : Config) (g : Grading) (a : Addon)
    (extensions : List String) :
    a.allWithin w (c.graded g) extensions = a.allWithin w c extensions := by
  induction extensions with
  | nil => rfl
  | cons e es ih =>
    have hwithin : a.within w (c.graded g) e = a.within w c e := rfl
    unfold allWithin
    rw [hwithin, ih]

/-- **No check sees the grading.** -/
theorem Check.found_graded (w : World) (c : Config) (g : Grading) (mode : Option String) (a : Addon)
    (k : Check) : k.found w (c.graded g) mode a = k.found w c mode a := by
  have hfindings : k.findings w (c.graded g).settings a = k.findings w c.settings a := by
    funext files
    cases k <;> cases files <;> rfl
  unfold found
  rw [Addon.allWithin_graded, hfindings]

/-- **Neither does what makes up an addon.** -/
theorem Addon.built_graded (w : World) (c : Config) (g : Grading) (path : String)
    (release : Option String) : built w (c.graded g) path release = built w c path release := by
  have hfiles : ∀ folder manifest,
      filesOf w (c.graded g).settings folder manifest = filesOf w c.settings folder manifest :=
    fun _ _ => rfl
  have hrelease : ∀ folder manifest,
      (releaseOf (c.graded g) w folder manifest release).map Prod.fst
        = (releaseOf c w folder manifest release).map Prod.fst := by
    intro folder manifest
    rw [releaseOf_eq, releaseOf_eq]
    cases named manifest release with
    | error f => rfl
    | ok own =>
      cases own with
      | some v => rfl
      | none =>
        show Except.map Prod.fst ((c.graded g).release w folder)
          = Except.map Prod.fst (c.release w folder)
        rw [Config.release_fst, Config.release_fst]
        rfl
  unfold built
  simp only [hfiles, hrelease]
  rfl

/-! ## §4. Audits. -/

namespace Audit

open Traversal (mapM_map_ok)

/-- An audit with its report under another grading. -/
def Audited.graded (a : Audited) (s : Settings) : Audited :=
  { a with report := { settings := s, findings := a.report.findings.without s.disabled } }

/-- The audit of an addon under a grading is its audit under any other one that disables nothing,
    without the checks that the first one disables. -/
theorem audited_graded (w : World) (c : Config) (g g' : Grading) (mode release : Option String)
    (path : String) :
    audited w (c.graded g) mode release path =
    (audited w (c.graded g'.reportingAll) mode release path).map
          (Audited.graded · (c.settings.graded g)) := by
  have hfound : ∀ g addon, Check.found w (c.graded g) mode addon = Check.found w c mode addon :=
    fun g addon => funext fun k => Check.found_graded w c g mode addon k
  unfold audited checked
  simp only [Addon.built_graded, hfound]
  cases Addon.built w c (w.resolve path) release with
  | error f => rfl
  | ok addon =>
    show Except.bind (Except.bind (Except.map _ (Check.all.mapM (Check.found w c mode addon))) _) _
      = Except.map _ (Except.bind (Except.bind
          (Except.map _ (Check.all.mapM (Check.found w c mode addon))) _) _)
    cases Check.all.mapM (Check.found w c mode addon) with
    | error f => rfl
    | ok parts =>
      show (addon.readings w).bind _ = Except.map _ ((addon.readings w).bind _)
      cases addon.readings w with
      | error f => rfl
      | ok readings =>
        show Except.ok (⟨addon, ({ settings := c.settings.graded g } : Report).addAll parts.flatten,
          readings⟩ : Audited) = _
        rw [Report.addAll_graded c.settings g g']
        rfl

/-- A grading that leaves out what is said about a missing description. -/
def withoutReadme : Grading where
  disabled := [.text "missing_readme"]
  severities := defaultSeverities
  blocking := [.text "error"]

end Audit

end AddonAudit
