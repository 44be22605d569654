/-
  AddonAudit.Proofs.Report.Views — the views of a report after any history.

  A report starts without findings.  After that messages of a check are added, or those of several
  checks, or a check gets an entry without any.  Whatever came first, all that a report says about
  itself is said about one list, that of its messages: how many there are of a severity, whether
  there are any, whether one would be shown and whether one blocks.
-/
import AddonAudit.Proofs.Findings
import AddonAudit.Proofs.Settings.Release
import Mathlib.Algebra.Ring.Nat
import Mathlib.Data.List.Count
import Mathlib.Data.List.Induction

namespace AddonAudit

open List

/-! ## §1. Severities. -/

/-- The severity of a check in a table; checks that are not in it warn. -/
def severityIn (table : List (Datum × Severity)) (check : String) : Severity :=
  ((table.find? fun e => e.1.same (.text check)).map (·.2)).getD .warning

theorem severityIn_cons (key : Datum) (s : Severity) (table : List (Datum × Severity))
    (check : String) :
    severityIn ((key, s) :: table) check = if key.same (.text check) then s else severityIn table
    check := by
  unfold severityIn
  cases h : key.same (.text check) with
  | true => simp [h]
  | false => simp [h]

/-- Setting the severity of a check changes that of no other. -/
theorem severityIn_setSeverity (key : Datum) (s : Severity) (check : String)
    (table : List (Datum × Severity)) :
    severityIn (setSeverity key s table) check =
    if key.same (.text check) then s else severityIn table check := by
  induction table with
  | nil => exact severityIn_cons key s [] check
  | cons e table ih =>
    obtain ⟨c, t⟩ := e
    unfold setSeverity
    by_cases hsame : c.same key
    · rw [if_pos hsame, severityIn_cons, severityIn_cons]
      by_cases hkey : key.same (.text check)
      · -- what equals a text is that text, so the entry is the one of the check
        rw [Datum.same_text_iff.mp hkey] at hsame ⊢
        rw [if_pos hsame, if_pos (Datum.same_text_iff.mpr rfl)]
      · have hc : ¬ c.same (.text check) := by
          intro hc
          rw [Datum.same_text_iff.mp hc] at hsame
          exact hkey (Datum.same_text_iff.mpr (Datum.text_same_iff.mp hsame))
        rw [if_neg hkey, if_neg hc, if_neg hc]
    · rw [if_neg hsame, severityIn_cons, severityIn_cons, ih]
      by_cases hkey : key.same (.text check)
      · -- the entry is none of the check, which has its own
        have hc : ¬ c.same (.text check) := by
          rwa [← Datum.same_text_iff.mp hkey]
        rw [if_neg hc, if_pos hkey, if_pos hkey]
      · rw [if_neg hkey, if_neg hkey]

/-- The level that the entries of a table name for a check: the last one that is a severity. -/
def levelNamed (levels : List (Datum × Datum)) (check : String) : Option Severity :=
  (levels.filterMap fun e =>
    if e.1.same (.text check) then Severity.ofDatum? e.2 else none).getLast?

theorem levelNamed_cons (key level : Datum) (levels : List (Datum × Datum)) (check : String) :
    levelNamed ((key, level) :: levels) check = (levelNamed levels check).or
      (if key.same (.text check) then Severity.ofDatum? level else none) := by
  unfold levelNamed
  cases h : (if key.same (.text check) then Severity.ofDatum? level else none) with
  | none => simp [h]
  | some s =>
    simp only [filterMap_cons, h, getLast?_cons]
    cases (levels.filterMap _).getLast? <;> rfl

/-- **The severity of a check** is the level that a table names for it, or else the one it had. -/
theorem severityIn_foldl (check : String) (levels : List (Datum × Datum)) :
    ∀ table : List (Datum × Severity),
      severityIn (levels.foldl (fun acc (key, level) =>
        match Severity.ofDatum? level with
        | some s => setSeverity key s acc
        | none => acc) table) check = (levelNamed levels check).getD (severityIn table check) := by
  induction levels with
  | nil => exact fun _ => rfl
  | cons e levels ih =>
    intro table
    obtain ⟨key, level⟩ := e
    rw [foldl_cons, ih, levelNamed_cons]
    dsimp only
    -- an entry counts if it is of this check and names a level that exists
    cases hlevel : Severity.ofDatum? level with
    | none => simp
    | some s =>
      dsimp only
      rw [severityIn_setSeverity]
      cases hkey : key.same (.text check) with
      | true => cases levelNamed levels check <;> simp
      | false => cases levelNamed levels check <;> simp

namespace Settings

/-- **The severity of a check under the settings of a table**: the level that its entry for
    severities names, if that is one, and else the default. -/
theorem severity_of_ofDatum {es : List (Datum × Datum)} {s : Settings}
    (h : Settings.ofDatum (.table es) = .ok s) :
    ∃ levels, (Datum.lookupText "severity" es).getD (.table []) = .table levels ∧
    ∀ check, s.severity check
        = (levelNamed levels check).getD (severityIn defaultSeverities check) := by
  have hseverities := (of_ofEntries h).2
  cases hentry : (Datum.lookupText "severity" es).getD (.table []) with
  | table levels =>
    rw [hentry] at hseverities
    refine ⟨levels, rfl, fun check => ?_⟩
    show severityIn s.severities check = _
    rw [← Except.ok.inj hseverities]
    exact severityIn_foldl check levels defaultSeverities
  | _ =>
    rw [hentry] at hseverities
    cases hseverities

end Settings

/-! ## §2. Messages. -/

/-- All messages of findings, each with its check. -/
def Findings.messages (fs : Findings) : List (String × String) :=
  fs.flatMap fun e => e.2.map fun m => (e.1, m)

namespace Findings

theorem messages_cons (e : String × List String) (fs : Findings) :
    messages (e :: fs) = e.2.map (fun m => (e.1, m)) ++ messages fs := flatMap_cons

/-- **Messages are told by what findings give for each check.** -/
theorem count_messages {fs : Findings} (h : (fs.map Prod.fst).Nodup) (check m : String) :
    (messages fs).count (check, m) = (Groups.get check fs).count m := by
  induction fs with
  | nil => rfl
  | cons e fs ih =>
    obtain ⟨name, own⟩ := e
    rw [map_cons, nodup_cons] at h
    have hget : Groups.get check ((name, own) :: fs) =
      if name == check then own else Groups.get check fs := rfl
    rw [messages_cons, count_append, ih h.2, hget]
    by_cases hname : name = check
    · subst hname
      -- no other entry is of this check
      rw [Groups.get_of_not_mem h.1, count_nil, Nat.add_zero, if_pos (beq_self_eq_true name)]
      exact count_map_of_injective own _ (fun _ _ heq => (Prod.mk.inj heq).2) m
    · rw [if_neg fun heq => hname (eq_of_beq heq), count_eq_zero.mpr, Nat.zero_add]
      rintro hmem
      obtain ⟨_, -, heq⟩ := mem_map.mp hmem
      exact hname (Prod.mk.inj heq).1

/-- Checks with a message are those that findings have. -/
theorem exists_mem_messages {fs : Findings} {p : String → Prop} :
    (∃ m ∈ messages fs, p m.1) ↔ ∃ check, fs.Has check ∧ p check := by
  constructor
  · rintro ⟨m, hm, hp⟩
    obtain ⟨e, he, hm⟩ := mem_flatMap.mp hm
    obtain ⟨text, htext, rfl⟩ := mem_map.mp hm
    exact ⟨e.1, ⟨e.2, he, ne_nil_of_mem htext⟩, hp⟩
  · rintro ⟨check, ⟨texts, he, hne⟩, hp⟩
    obtain ⟨text, htext⟩ := exists_mem_of_ne_nil _ hne
    exact ⟨(check, text), mem_flatMap.mpr ⟨_, he, mem_map_of_mem htext⟩, hp⟩

theorem length_messages_filter (p : String → Bool) (fs : Findings) :
    ((fs.filter fun e => p e.1).map fun e => e.2.length).sum = (messages fs).countP fun m =>
    p m.1 := by
  induction fs with
  | nil => rfl
  | cons e fs ih =>
    have hown : (e.2.map fun m => (e.1, m)).countP (fun m => p m.1) =
        if p e.1 then e.2.length else 0 := by
      rw [countP_map]
      cases hp : p e.1 with
      | true => simp [Function.comp_def, hp]
      | false => simp [Function.comp_def, hp]
    rw [messages_cons, countP_append, ← ih, hown, filter_cons]
    split <;> simp

end Findings

namespace Report

/-- **Counting check by check counts what is of a severity.** -/
theorem count_eq_sum (r : Report) (s : Severity) :
    r.count s = ((r.ofSeverity s).map fun e => e.2.length).sum := by
  have hfold : ∀ (fs : Findings) (start : Severity → Nat),
      fs.foldl (fun counts e s =>
        if r.settings.severity e.1 == s then counts s + e.2.length else counts s) start s =
      start s + ((fs.filter fun e => r.settings.severity e.1 == s).map fun e => e.2.length).sum := by
    intro fs
    induction fs with
    | nil => simp
    | cons e fs ih =>
      intro start
      obtain ⟨check, messages⟩ := e
      rw [foldl_cons, ih, filter_cons]
      dsimp only
      split
      · rw [map_cons, sum_cons, Nat.add_assoc]
      · rfl
  exact (hfold r.findings fun _ => 0).trans (Nat.zero_add _)

/-- The counts of a report are counts of its messages. -/
theorem count_eq_countP (r : Report) (s : Severity) :
    r.count s = r.findings.messages.countP fun m => r.settings.severity m.1 == s := by
  rw [count_eq_sum]
  exact Findings.length_messages_filter (fun check => r.settings.severity check == s) r.findings

theorem count_pos_iff (r : Report) (s : Severity) :
    0 < r.count s ↔ ∃ m ∈ r.findings.messages, r.settings.severity m.1 = s := by
  rw [count_eq_countP, countP_pos_iff]
  simp only [beq_iff_eq]

theorem isEmpty_iff (r : Report) : r.isEmpty = true ↔ r.findings.messages = [] := by
  unfold isEmpty Findings.messages
  rw [List.all_eq_true, List.flatMap_eq_nil_iff]
  simp only [List.isEmpty_iff, List.map_eq_nil_iff]

theorem isVisible_iff (r : Report) (showInfo : Bool) : r.isVisible showInfo
      ↔ ∃ m ∈ r.findings.messages, showInfo ∨ r.settings.severity m.1 ≠ .info := by
  rw [Findings.exists_mem_messages (p := fun check => showInfo ∨ r.settings.severity check ≠ .info)]
  unfold isVisible
  rw [any_eq_true]
  simp only [Bool.and_eq_true, Bool.not_eq_true', isEmpty_eq_false_iff, Bool.or_eq_true, bne_iff_ne]
  constructor
  · rintro ⟨e, he, hne, hshown⟩
    exact ⟨e.1, ⟨e.2, he, hne⟩, hshown⟩
  · rintro ⟨check, ⟨texts, he, hne⟩, hshown⟩
    exact ⟨(check, texts), he, hne, hshown⟩

theorem isBlocking_iff_messages (r : Report) : r.isBlocking
      ↔ ∃ m ∈ r.findings.messages, r.settings.blocks (r.settings.severity m.1).text := by
  rw [Findings.exists_mem_messages
    (p := fun check => r.settings.blocks (r.settings.severity check).text)]
  exact r.isBlocking_iff

/-! ## §3. Histories. -/

/-- What can be done with a report. -/
inductive Step where
  /-- Messages of a check are added. -/
  | add (check : String) (messages : List String)
  /-- Messages of several checks are added. -/
  | addAll (found : Findings)
  /-- A check gets an entry, if it has none. -/
  | touch (check : String)

/-- The messages that a step brings, each with its check. -/
def Step.brings : Step → List (String × String)
  | .add check messages => messages.map fun m => (check, m)
  | .addAll found => found.messages
  | .touch _ => []

/-- A report after a step. -/
def step (r : Report) : Step → Report
  | .add check messages => r.add check messages
  | .addAll found => r.addAll found
  | .touch check => r.touch check

/-- The report under some settings after a history. -/
def after (s : Settings) (steps : List Step) : Report := steps.foldl step { settings := s }

theorem after_concat (s : Settings) (steps : List Step) (x : Step) :
    after s (steps ++ [x]) = (after s steps).step x := by
  unfold after
  rw [foldl_append]
  rfl

theorem touch_settings (r : Report) (check : String) : (r.touch check).settings = r.settings := by
  unfold touch
  split <;> rfl

theorem step_settings (r : Report) (x : Step) : (r.step x).settings = r.settings := by
  cases x with
  | add check messages => exact r.add_settings check messages
  | addAll found => exact addAll_settings found r
  | touch check => exact r.touch_settings check

theorem after_settings (s : Settings) (steps : List Step) : (after s steps).settings = s := by
  induction steps using reverseRecOn with
  | nil => rfl
  | append_singleton steps x ih => rw [after_concat, step_settings, ih]

/-- The messages that a report takes in of those that are brought, as it stores them. -/
def taken (s : Settings) (brought : List (String × String)) : List (String × String) :=
  (brought.filter fun m => !s.isDisabled m.1).map fun m => (m.1, shorten m.2)

theorem nodup_add {r : Report} (h : (r.findings.map Prod.fst).Nodup) (check : String)
    (messages : List String) : ((r.add check messages).findings.map Prod.fst).Nodup := by
  unfold add
  split
  · exact h
  · exact Groups.nodup_append h

theorem nodup_touch {r : Report} (h : (r.findings.map Prod.fst).Nodup) (check : String) :
    ((r.touch check).findings.map Prod.fst).Nodup := by
  unfold touch
  split
  · exact h
  · rename_i hnone
    show ((r.findings ++ [(check, [])]).map Prod.fst).Nodup
    rw [map_append, map_singleton, nodup_append]
    refine ⟨h, nodup_singleton check, fun name hname other hother heq => ?_⟩
    obtain ⟨e, he, rfl⟩ := mem_map.mp hname
    refine hnone (any_eq_true.mpr ⟨e, he, ?_⟩)
    rw [heq, mem_singleton.mp hother]
    exact beq_self_eq_true check

/-- After any history every check has one entry at most. -/
theorem nodup_after (s : Settings) (steps : List Step) :
    ((after s steps).findings.map Prod.fst).Nodup := by
  induction steps using reverseRecOn with
  | nil => exact nodup_nil
  | append_singleton steps x ih =>
    rw [after_concat]
    cases x with
    | add check messages => exact nodup_add ih check messages
    | addAll found =>
      exact addAll_induction (P := fun r => (r.findings.map Prod.fst).Nodup) (fun _ =>
        nodup_add) found ih
    | touch check => exact nodup_touch ih check

theorem get_touch (r : Report) (name check : String) :
    Groups.get check (r.touch name).findings = Groups.get check r.findings := by
  have hconcat : ∀ fs : Findings, Groups.get check (fs ++ [(name, [])]) = Groups.get check fs := by
    intro fs
    induction fs with
    | nil => exact ite_self _
    | cons e fs ih =>
      show (if e.1 == check then e.2 else Groups.get check (fs ++ [(name, [])])) = _
      rw [ih]
      rfl
  unfold touch
  split
  · rfl
  · exact hconcat r.findings

/-- The messages that a step brings for a check. -/
def Step.bringsFor (check : String) (x : Step) : List String :=
  (x.brings.filter (·.1 == check)).map (·.2)

theorem bringsFor_add (name check : String) (messages : List String) :
    (Step.add name messages).bringsFor check = if name == check then messages else [] := by
  show ((messages.map fun m => (name, m)).filter (·.1 == check)).map (·.2) = _
  rw [filter_map, map_map]
  cases h : name == check with
  | true => simp [Function.comp_def, h]
  | false => simp [Function.comp_def, h]

theorem bringsFor_addAll (check : String) (found : Findings) :
    (Step.addAll found).bringsFor check = found.messagesOf check := by
  induction found with
  | nil => rfl
  | cons f found ih =>
    have hsplit : (Step.addAll (f :: found)).bringsFor check
        = (Step.add f.1 f.2).bringsFor check ++ (Step.addAll found).bringsFor check := by
      unfold Step.bringsFor
      rw [← map_append, ← filter_append]
      rfl
    rw [hsplit, bringsFor_add, ih]
    rfl

theorem get_step (r : Report) (x : Step) (check : String) : Groups.get check (r.step x).findings
      = Groups.get check r.findings ++ kept r.settings check (x.bringsFor check) := by
  cases x with
  | add name messages =>
    rw [bringsFor_add]
    exact r.get_add name check messages
  | addAll found =>
    rw [bringsFor_addAll]
    exact get_addAll check found r
  | touch name =>
    show Groups.get check (r.touch name).findings = _ ++ kept r.settings check []
    rw [get_touch, kept, map_nil, ite_self, append_nil]

/-- **The messages of a check in a report** are those that were brought for it, in this order,
    unless the check is disabled. -/
theorem get_after (s : Settings) (steps : List Step) (check : String) :
    Groups.get check (after s steps).findings =
    kept s check (steps.flatMap (Step.bringsFor check)) := by
  induction steps using reverseRecOn with
  | nil =>
    show [] = kept s check []
    rw [kept, map_nil, ite_self]
  | append_singleton steps x ih =>
    rw [after_concat, get_step, after_settings, ih, flatMap_append, flatMap_singleton]
    unfold kept
    split
    · rfl
    · exact map_append.symm

/-- Those of a check among the messages that are taken in. -/
theorem count_taken (s : Settings) (brought : List (String × String)) (check m : String) :
    (taken s brought).count (check, m) = (kept s check
    ((brought.filter (·.1 == check)).map (·.2))).count m := by
  unfold taken kept
  rw [List.count, countP_map, countP_filter]
  cases hdisabled : s.isDisabled check with
  | true =>
    rw [if_pos rfl, count_nil, countP_eq_zero]
    intro b _ hb
    simp only [Function.comp_apply, Bool.and_eq_true, beq_iff_eq, Prod.mk.injEq,
      Bool.not_eq_true'] at hb
    rw [hb.1.1, hdisabled] at hb
    cases hb.2
  | false =>
    rw [if_neg Bool.false_ne_true, List.count, countP_map, countP_map, countP_filter]
    refine countP_congr fun b _ => ?_
    simp only [Function.comp_apply, Bool.and_eq_true, beq_iff_eq, Prod.mk.injEq, Bool.not_eq_true']
    constructor
    · exact fun h => h.1.symm
    · rintro ⟨htext, hcheck⟩
      exact ⟨⟨hcheck, htext⟩, by rw [hcheck, hdisabled]⟩

/-- **The messages of a report are those that were brought**, less those of disabled checks. -/
theorem messages_after (s : Settings) (steps : List Step) :
    (after s steps).findings.messages.Perm (taken s (steps.flatMap Step.brings)) := by
  rw [perm_iff_count]
  rintro ⟨check, m⟩
  have hbrings : steps.flatMap (Step.bringsFor check)
      = ((steps.flatMap Step.brings).filter (·.1 == check)).map (·.2) := by
    rw [filter_flatMap, map_flatMap]
    rfl
  rw [Findings.count_messages (nodup_after s steps), get_after, hbrings, count_taken]

/-! ## §4. Views. -/

/-- The findings of the three severities make up all findings. -/
theorem ofSeverity_perm (r : Report) : (Severity.all.flatMap r.ofSeverity).Perm r.findings := by
  have hsplit : ∀ fs : Findings, (Severity.all.flatMap fun s =>
      fs.filter fun e => r.settings.severity e.1 == s).Perm fs := by
    intro fs
    induction fs with
    | nil => exact Perm.refl _
    | cons e fs ih =>
      have hall : (Severity.all.flatMap fun s => (e :: fs).filter fun e =>
        r.settings.severity e.1 == s).Perm
          (e :: Severity.all.flatMap fun s => fs.filter fun e => r.settings.severity e.1 == s) := by
        simp only [Severity.all, flatMap_cons, flatMap_nil, append_nil, filter_cons]
        cases r.settings.severity e.1 with
        | error => exact Perm.refl _
        | warning => exact perm_middle
        | info =>
          refine (perm_middle.append_left _).trans ?_
          exact perm_middle
      exact hall.trans (ih.cons e)
  exact hsplit r.findings

/-- **The views of a report agree with its history and with one another.** -/
structure Agrees (s : Settings) (steps : List Step) (r : Report) : Prop where
  /-- A check has one entry at most. -/
  nodup : (r.findings.map Prod.fst).Nodup
  /-- The findings of the severities are a partition of all findings, each where its check
      belongs. -/
  partition : (Severity.all.flatMap r.ofSeverity).Perm r.findings
  graded : ∀ sev, ∀ e ∈ r.ofSeverity sev, s.severity e.1 = sev
  /-- A count is that of the messages of its severity, in the findings and in the history. -/
  count : ∀ sev, r.count sev = ((r.ofSeverity sev).map fun e => e.2.length).sum
  brought : ∀ sev, r.count sev = (steps.flatMap Step.brings).countP fun m =>
    !s.isDisabled m.1 && s.severity m.1 == sev
  empty : r.isEmpty = true ↔ ∀ sev, r.count sev = 0
  visible : r.isVisible true = true ↔ r.isEmpty = false
  visibleWithoutInfo : r.isVisible false = true ↔ r.hasErrorsOrWarnings = true
  blocking : r.isBlocking = true ↔ ∃ sev : Severity, s.blocks sev.text = true ∧ 0 < r.count sev
  /-- What is stored of a check that is not disabled are the messages that were added, shortened. -/
  stored : ∀ check, s.isDisabled check = false →
    Groups.get check r.findings = (steps.flatMap (Step.bringsFor check)).map shorten

theorem isEmpty_iff_count (r : Report) : r.isEmpty ↔ ∀ sev, r.count sev = 0 := by
  rw [isEmpty_iff]
  constructor
  · intro hnil sev
    rw [count_eq_countP, hnil]
    rfl
  · -- a message counts under its own severity
    intro hcounts
    by_contra hne
    obtain ⟨m, hm⟩ := exists_mem_of_ne_nil _ hne
    have hpos := (r.count_pos_iff (r.settings.severity m.1)).mpr ⟨m, hm, rfl⟩
    have hzero := hcounts (r.settings.severity m.1)
    omega

theorem isVisible_true_iff (r : Report) : r.isVisible true ↔ r.isEmpty = false := by
  rw [isVisible_iff, ← Bool.not_eq_true, isEmpty_iff]
  constructor
  · rintro ⟨m, hm, -⟩
    exact ne_nil_of_mem hm
  · intro hne
    obtain ⟨m, hm⟩ := exists_mem_of_ne_nil _ hne
    exact ⟨m, hm, .inl rfl⟩

theorem isVisible_false_iff (r : Report) : r.isVisible false ↔ r.hasErrorsOrWarnings := by
  unfold hasErrorsOrWarnings
  rw [isVisible_iff, Bool.or_eq_true, decide_eq_true_iff, decide_eq_true_iff, count_pos_iff,
    count_pos_iff]
  constructor
  · rintro ⟨m, hm, hshown | hsevere⟩
    · cases hshown
    · cases hsev : r.settings.severity m.1 with
      | error => exact .inl ⟨m, hm, hsev⟩
      | warning => exact .inr ⟨m, hm, hsev⟩
      | info => exact absurd hsev hsevere
  · rintro (⟨m, hm, hsev⟩ | ⟨m, hm, hsev⟩)
    · exact ⟨m, hm, .inr (by rw [hsev]; decide)⟩
    · exact ⟨m, hm, .inr (by rw [hsev]; decide)⟩

theorem isBlocking_iff_count (r : Report) :
    r.isBlocking ↔ ∃ sev : Severity, r.settings.blocks sev.text ∧ 0 < r.count sev := by
  rw [isBlocking_iff_messages]
  constructor
  · rintro ⟨m, hm, hblocks⟩
    exact ⟨_, hblocks, (r.count_pos_iff _).mpr ⟨m, hm, rfl⟩⟩
  · rintro ⟨sev, hblocks, hpos⟩
    obtain ⟨m, hm, rfl⟩ := (r.count_pos_iff sev).mp hpos
    exact ⟨m, hm, hblocks⟩

/-- What a report counts is what its history brought. -/
theorem count_after (s : Settings) (steps : List Step) (sev : Severity) :
    (after s steps).count sev = (steps.flatMap Step.brings).countP fun m =>
      !s.isDisabled m.1 && s.severity m.1 == sev := by
  rw [count_eq_countP, after_settings, (messages_after s steps).countP_eq]
  unfold taken
  rw [countP_map, countP_filter]
  refine countP_congr fun m _ => ?_
  simp [Bool.and_comm]

/-- **The views of a report agree after any history.**  Under the settings of any table, the
    severity of a check is a level that the table names or the default; and after messages were
    added and entries made in any order, all that the report says about itself agrees with what was
    added. -/
theorem views_after {es : List (Datum × Datum)} {s : Settings}
    (h : Settings.ofDatum (.table es) = .ok s) (steps : List Step) :
    (∃ levels, (Datum.lookupText "severity" es).getD (.table []) = .table levels ∧
      ∀ check, s.severity check
        = (levelNamed levels check).getD (severityIn defaultSeverities check)) ∧
    Agrees s steps (after s steps) := by
  refine ⟨Settings.severity_of_ofDatum h, ?_⟩
  have hsettings := after_settings s steps
  refine {
    nodup := nodup_after s steps
    partition := ofSeverity_perm _
    graded := fun sev e he => ?_
    count := count_eq_sum _
    brought := count_after s steps
    empty := isEmpty_iff_count _
    visible := isVisible_true_iff _
    visibleWithoutInfo := isVisible_false_iff _
    blocking := ?_
    stored := fun check hcheck => ?_ }
  · have hsev := (List.mem_filter.mp he).2
    rw [hsettings] at hsev
    exact eq_of_beq hsev
  · rw [isBlocking_iff_count, hsettings]
  · rw [get_after, kept, hcheck, if_neg Bool.false_ne_true]

/-- A table that names two levels, one of which exists, and that disables a check. -/
def ownLevels : List (Datum × Datum) :=
  [(.text "severity", .table [(.text "own_check", .text "error"),
    (.text "missing_readme", .text "fatal")]),
    (.text "blocking_severities", .list [.text "info", .text "fatal"]),
    (.text "disabled_checks", .list [.text "po_syntax_error"])]

/-- A history with an entry that stays empty, a check that gets messages twice and one that is
    disabled. -/
def ownHistory : List Step :=
  [.touch "xml_hardcoded_id", .add "own_check" ["/home/runner/work/shop/a.py:1"],
    .addAll [("missing_readme", ["m"]), ("po_syntax_error", ["p"]), ("own_check", ["b.py:2"])]]

/-- The level that does not exist leaves the default, under which the report blocks. -/
theorem views_after_ownHistory :
    ∃ s, Settings.ofDatum (.table ownLevels) = .ok s ∧ s.severity "missing_readme" = .info ∧
      (after s ownHistory).count .error = 2 ∧ (after s ownHistory).count .warning = 0 ∧
      (after s ownHistory).count .info = 1 ∧ (after s ownHistory).isBlocking = true ∧
      Groups.get "own_check" (after s ownHistory).findings = ["a.py:1", "b.py:2"] := by
  obtain ⟨s, hs, hsays⟩ : ∃ s, Settings.ofDatum (.table ownLevels) = .ok s ∧
      (s.severity "own_check", s.severity "missing_readme", s.isDisabled "own_check",
        s.isDisabled "missing_readme", s.isDisabled "po_syntax_error", s.blocks "info")
        = (.error, .info, false, false, true, true) :=
    Traversal.ok_of_toOption_map (by decide +kernel)
  simp only [Prod.mk.injEq] at hsays
  obtain ⟨hown, hreadme, hkept, hkept', hdropped, hblocks⟩ := hsays
  obtain ⟨-, hviews⟩ := views_after hs ownHistory
  have hbrought : ownHistory.flatMap Step.brings = [("own_check", "/home/runner/work/shop/a.py:1"),
      ("missing_readme", "m"), ("po_syntax_error", "p"), ("own_check", "b.py:2")] := by decide
  have hcount : ∀ sev, (after s ownHistory).count sev
      = if sev = .error then 2 else if sev = .info then 1 else 0 := by
    intro sev
    rw [hviews.brought, hbrought]
    cases sev <;> simp [hown, hreadme, hkept, hkept', hdropped]
  refine ⟨s, hs, hreadme, hcount .error, hcount .warning, hcount .info, ?_, ?_⟩
  · exact hviews.blocking.mpr ⟨.info, hblocks, by rw [hcount]; decide⟩
  · rw [hviews.stored "own_check" hkept]
    decide +kernel

end Report

end AddonAudit
