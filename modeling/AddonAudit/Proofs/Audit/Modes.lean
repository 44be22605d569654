/-
  AddonAudit.Proofs.Audit.Modes — all checks at once, or mode by mode.

  A mode runs some of the checks.  Checks do not affect one another, and the names under which they
  report tell modes apart; so what all checks report is made up of what the modes report, each name
  with all of its messages in exactly one of them.
-/
import AddonAudit.Proofs.Audit.Scope

namespace AddonAudit

open Traversal (ok_of_mem_of_mapM_ok mapM_ok_map)

/-! ## §1. Checks of a mode. -/

namespace Check

theorem mem_all (k : Check) : k ∈ all := by cases k <;> decide

/-- The modes in which checks can be run. -/
def modes : List String := ["xml", "csv", "po", "python", "manifest"]

theorem mode_mem_modes (k : Check) : k.mode ∈ modes := by cases k <;> decide

/-- A check finds in its mode what it finds anyway, and nothing in the others. -/
theorem found_some (w : World) (c : Config) (mode : String) (a : Addon) (k : Check) :
    k.found w c (some mode) a = if k.mode == mode then k.found w c none a else .ok [] := by
  have hsome : k.runsIn (some mode) = (k.mode == mode) := rfl
  have hnone : k.runsIn none := rfl
  unfold found
  rw [hsome, hnone]
  by_cases hmode : (k.mode == mode)
  · rw [if_pos hmode, hmode]
  · rw [if_neg hmode, if_pos]
    rw [Bool.not_eq_true] at hmode
    rw [hmode]
    exact Bool.or_true _

/-- What a check finds is reported under its names. -/
theorem mem_names_of_found {w : World} {c : Config} {mode : Option String} {a : Addon} {k : Check}
    {fs : Findings} (h : k.found w c mode a = .ok fs) {check : String} (hcheck : fs.Has check) :
    check ∈ k.names := by
  unfold found at h
  split at h
  · cases h
    obtain ⟨_, hmem, _⟩ := hcheck
    cases hmem
  · obtain ⟨files, -, hfound⟩ := Traversal.bind_ok_iff.mp h
    exact mem_names_of_has hfound hcheck

end Check

/-! ## §2. Messages by mode. -/

section

variable {g : Check → Findings} {check mode : String}

/-- The findings of the checks of a mode, in the order of all checks. -/
def findingsIn (g : Check → Findings) (mode : String) : Findings :=
  Check.all.flatMap fun k => if k.mode == mode then g k else []

theorem messagesOf_flatMap (ks : List Check) (g : Check → Findings) (check : String) :
    Findings.messagesOf check (ks.flatMap g) = ks.flatMap fun k => (g k).messagesOf check :=
  List.flatMap_assoc

/-- A name that a mode reports belongs to one of its checks. -/
theorem exists_check_of_has (hg : ∀ k check, (g k).Has check → check ∈ k.names)
    (h : (findingsIn g mode).Has check) : ∃ k : Check, k.mode = mode ∧ check ∈ k.names := by
  obtain ⟨messages, hmem, hne⟩ := h
  obtain ⟨k, -, hmem⟩ := List.mem_flatMap.mp hmem
  split at hmem
  next hmode => exact ⟨k, eq_of_beq hmode, hg k check ⟨messages, hmem, hne⟩⟩
  next => cases hmem

/-- **All messages under a name come from the mode that it belongs to.** -/
theorem messagesOf_findingsIn (hg : ∀ k check, (g k).Has check → check ∈ k.names) {k : Check}
    (hk : check ∈ k.names) :
    (findingsIn g k.mode).messagesOf check = Findings.messagesOf check (Check.all.flatMap g) := by
  unfold findingsIn
  rw [messagesOf_flatMap, messagesOf_flatMap]
  congr 1
  funext k'
  split
  next => rfl
  next hmode =>
    -- a check of another mode has no message under this name
    by_contra hne
    have hhas := (Findings.has_iff_messagesOf (g k') check).mpr (Ne.symm hne)
    exact Check.names_disjoint (fun h => hmode (beq_iff_eq.mpr h)) check (hg k' check hhas) hk

end

/-! ## §3. Reports by mode. -/

/-- The report of all checks. -/
def reportOf (s : Settings) (g : Check → Findings) : Report :=
  ({ settings := s } : Report).addAll (Check.all.flatMap g)

/-- The report of the checks of a mode. -/
def reportIn (s : Settings) (g : Check → Findings) (mode : String) : Report :=
  ({ settings := s } : Report).addAll (findingsIn g mode)

section

variable {s : Settings} {g : Check → Findings} {check mode : String} {messages : List String}

theorem proper_reportOf (s : Settings) (g : Check → Findings) :
    Groups.Proper (reportOf s g).findings :=
  Report.proper_addAll _ Groups.proper_nil

theorem proper_reportIn (s : Settings) (g : Check → Findings) (mode : String) :
    Groups.Proper (reportIn s g mode).findings := Report.proper_addAll _ Groups.proper_nil

/-- An entry of a mode is under a name of the mode. -/
theorem exists_check_of_mem_reportIn (hg : ∀ k check, (g k).Has check → check ∈ k.names)
    (h : (check, messages) ∈ (reportIn s g mode).findings) : ∃ k :
    Check, k.mode = mode ∧ check ∈ k.names := by
  have hhas : (reportIn s g mode).findings.Has check :=
    ⟨messages, h, (proper_reportIn s g mode).filled _ h⟩
  exact exists_check_of_has hg ((Report.has_addAll_nil _ _ _).mp hhas).2

/-- Under a name of a mode, the mode has the entries of the whole. -/
theorem mem_reportIn_iff_of_mem_names (hg : ∀ k check, (g k).Has check → check ∈ k.names)
    {k : Check} (hk : check ∈ k.names) :
    (check, messages) ∈ (reportIn s g k.mode).findings ↔
    (check, messages) ∈ (reportOf s g).findings := by
  rw [(proper_reportIn s g k.mode).mem_iff, (proper_reportOf s g).mem_iff]
  unfold reportIn reportOf
  rw [Report.get_addAll, Report.get_addAll, messagesOf_findingsIn hg hk]

/-- The entries of the whole are the entries of the modes. -/
theorem mem_reportOf_iff (hg : ∀ k check, (g k).Has check → check ∈ k.names) :
    (check, messages) ∈ (reportOf s g).findings
      ↔ ∃ mode ∈ Check.modes, (check, messages) ∈ (reportIn s g mode).findings := by
  constructor
  · intro h
    have hhas : (reportOf s g).findings.Has check := ⟨messages, h, (proper_reportOf s g).filled _ h⟩
    obtain ⟨-, ms, hms, hne⟩ := (Report.has_addAll_nil _ _ _).mp hhas
    obtain ⟨k, -, hms⟩ := List.mem_flatMap.mp hms
    have hk : check ∈ k.names := hg k check ⟨ms, hms, hne⟩
    exact ⟨k.mode, k.mode_mem_modes, (mem_reportIn_iff_of_mem_names hg hk).mpr h⟩
  · rintro ⟨mode, -, h⟩
    obtain ⟨k, rfl, hk⟩ := exists_check_of_mem_reportIn hg h
    exact (mem_reportIn_iff_of_mem_names hg hk).mp h

/-- No name has entries in two modes. -/
theorem disjoint_reportIn (hg : ∀ k check, (g k).Has check → check ∈ k.names) {mode' : String}
    (hne : mode ≠ mode') :
    ((reportIn s g mode).findings.map Prod.fst).Disjoint
    ((reportIn s g mode').findings.map Prod.fst) := by
  intro check hkey hkey'
  obtain ⟨⟨_, messages⟩, hmem, rfl⟩ := List.mem_map.mp hkey
  obtain ⟨⟨_, messages'⟩, hmem', rfl⟩ := List.mem_map.mp hkey'
  obtain ⟨k, rfl, hk⟩ := exists_check_of_mem_reportIn hg hmem
  obtain ⟨k', rfl, hk'⟩ := exists_check_of_mem_reportIn hg hmem'
  exact Check.names_disjoint hne _ hk hk'

end

namespace Audit

variable {w : World} {c : Config}

/-- Checks that all end, end in each mode, with what they find anyway. -/
theorem checked_by_mode {release : Option String} {path : String} {addon : Addon} {r : Report}
    (h : checked w c none release path = .ok (addon, r)) :
    ∃ g : Check → Findings, (∀ k check, (g k).Has check → check ∈ k.names) ∧
    r = reportOf c.settings g ∧
      ∀ mode, checked w c (some mode) release path = .ok (addon, reportIn c.settings g mode) := by
  obtain ⟨hbuilt, parts, hparts, rfl⟩ := checked_ok_iff.mp h
  have hfound : ∀ k : Check, ∃ fs, k.found w c none addon = .ok fs := by
    intro k
    obtain ⟨fs, -, hfs⟩ := ok_of_mem_of_mapM_ok hparts k.mem_all
    exact ⟨fs, hfs⟩
  choose g hg using hfound
  cases hparts.symm.trans (mapM_ok_map fun k _ => hg k)
  refine ⟨g, fun k _ => Check.mem_names_of_found (hg k), rfl, fun mode => ?_⟩
  have hparts' : Check.all.mapM (Check.found w c (some mode) addon)
      = .ok (Check.all.map fun k => if k.mode == mode then g k else []) := by
    refine mapM_ok_map fun k _ => ?_
    rw [Check.found_some, hg]
    split <;> rfl
  exact checked_ok_iff.mpr ⟨hbuilt, _, hparts', rfl⟩

end Audit

end AddonAudit
