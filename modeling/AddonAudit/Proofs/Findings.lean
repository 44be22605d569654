/-
  AddonAudit.Proofs.Findings — groups and findings as maps.

  Groups are lists of entries.  All that the program builds are proper: every key occurs once and no
  group is empty, so that they are maps from keys to values and `Groups.get` tells all about them.
-/
import AddonAudit.Report.Basic
import Mathlib.Data.List.Nodup

namespace AddonAudit

open List

/-! ## §1. Groups as maps. -/

namespace Groups

variable {κ α β : Type} [BEq κ] [LawfulBEq κ] {g : Groups κ α} {key k : κ} {vs : List α}

/-- Groups that are a map: every key occurs once, and no group is empty. -/
structure Proper (g : Groups κ α) : Prop where
  nodup : (g.map Prod.fst).Nodup
  filled : ∀ p ∈ g, p.2 ≠ []

omit [BEq κ] [LawfulBEq κ] in
theorem proper_nil : Proper ([] : Groups κ α) := ⟨nodup_nil, fun _ h => by cases h⟩

theorem get_append (key k : κ) (vs : List α) (g : Groups κ α) :
    get k (append key vs g) = get k g ++ if key == k then vs else [] := by
  induction g with
  | nil =>
    show (if key == k then vs else []) = [] ++ _
    rw [nil_append]
  | cons p g ih =>
    obtain ⟨k', vs'⟩ := p
    unfold append
    by_cases hkey : k' = key
    · subst hkey
      rw [if_pos (beq_self_eq_true k')]
      show (if k' == k then vs' ++ vs else get k g) = (if k' == k then vs' else get k g) ++ _
      split
      · rfl
      · rw [append_nil]
    · rw [if_neg (fun h => hkey (eq_of_beq h))]
      show (if k' == k then vs' else get k (append key vs g)) =
        (if k' == k then vs' else get k g) ++ _
      by_cases hk : k' = k
      · subst hk
        rw [if_pos (beq_self_eq_true k'), if_pos (beq_self_eq_true k'),
          if_neg (fun h => hkey (eq_of_beq h).symm), append_nil]
      · rw [if_neg (fun h => hk (eq_of_beq h)), if_neg (fun h => hk (eq_of_beq h)), ih]

/-- Values that are added one by one are grouped by their keys. -/
theorem get_foldl_add (key : β → κ) (value : β → α) (xs : List β) (g : Groups κ α) (k : κ) :
    get k (xs.foldl (fun g x => add (key x) (value x) g) g) = get k g ++
    (xs.filter (key · == k)).map value := by
  induction xs generalizing g with
  | nil => exact (append_nil _).symm
  | cons x xs ih =>
    rw [foldl_cons, ih, add, get_append, append_assoc, filter_cons]
    split <;> rfl

theorem get_of_not_mem (h : k ∉ g.map Prod.fst) : get k g = [] := by
  induction g with
  | nil => rfl
  | cons p g ih =>
    rw [map_cons, mem_cons, not_or] at h
    exact (if_neg fun heq => h.1 (eq_of_beq heq).symm).trans (ih h.2)

/-- Appending adds an entry or makes one longer. -/
theorem mem_append {p : κ × List α} (h : p ∈ append key vs g) :
    (p.1 = key ∧ ∃ vs', p.2 = vs' ++ vs) ∨ p ∈ g := by
  induction g with
  | nil =>
    rw [mem_singleton.mp h]
    exact .inl ⟨rfl, [], rfl⟩
  | cons q g ih =>
    unfold append at h
    split at h
    next hq =>
      rcases mem_cons.mp h with rfl | h
      · exact .inl ⟨eq_of_beq hq, q.2, rfl⟩
      · exact .inr (mem_cons_of_mem _ h)
    next =>
      rcases mem_cons.mp h with rfl | h
      · exact .inr mem_cons_self
      · exact (ih h).imp_right (mem_cons_of_mem _)

theorem nodup_append (h : (g.map Prod.fst).Nodup) : ((append key vs g).map Prod.fst).Nodup := by
  induction g with
  | nil => exact nodup_singleton key
  | cons q g ih =>
    rw [map_cons, nodup_cons] at h
    unfold append
    split
    next => exact nodup_cons.mpr h
    next hq =>
      refine nodup_cons.mpr ⟨fun hmem => ?_, ih h.2⟩
      obtain ⟨p, hp, hpq⟩ := mem_map.mp hmem
      rcases mem_append hp with ⟨hkey, -⟩ | hp
      · exact hq (beq_iff_eq.mpr (hpq.symm.trans hkey))
      · exact h.1 (mem_map.mpr ⟨p, hp, hpq⟩)

/-- Adding values keeps groups proper. -/
theorem Proper.append (h : Proper g) (hvs : vs ≠ []) : Proper (append key vs g) where
  nodup := nodup_append h.nodup
  filled p hp := by
    rcases mem_append hp with ⟨-, vs', heq⟩ | hp
    · rw [heq]
      exact append_ne_nil_of_right_ne_nil vs' hvs
    · exact h.filled p hp

/-- **Proper groups are told by what they give for each key.** -/
theorem Proper.mem_iff (h : Proper g) : (k, vs) ∈ g ↔ get k g = vs ∧ vs ≠ [] := by
  induction g with
  | nil => exact ⟨fun hmem => (by cases hmem), fun ⟨hget, hne⟩ => absurd hget.symm hne⟩
  | cons p g ih =>
    obtain ⟨k', vs'⟩ := p
    have hnodup := nodup_cons.mp h.nodup
    have hrest : Proper g := ⟨hnodup.2, fun p hp => h.filled p (mem_cons_of_mem _ hp)⟩
    show _ ↔ (if k' == k then vs' else get k g) = vs ∧ vs ≠ []
    by_cases hk : k' = k
    · subst hk
      rw [if_pos (beq_self_eq_true k')]
      constructor
      · intro hmem
        rcases mem_cons.mp hmem with heq | hmem
        · cases heq
          exact ⟨rfl, h.filled _ mem_cons_self⟩
        · exact absurd (mem_map.mpr ⟨_, hmem, rfl⟩) hnodup.1
      · rintro ⟨rfl, -⟩
        exact mem_cons_self
    · rw [if_neg (fun h => hk (eq_of_beq h)), ← ih hrest, mem_cons]
      refine or_iff_right fun heq => ?_
      cases heq
      exact hk rfl

/-! ## §2. Grouping a list. -/

/-- What grouping does with one value. -/
def addKeyed (key : α → Option κ) (groups : Groups κ α) (v : α) : Groups κ α :=
  match key v with
  | some k => add k v groups
  | none => groups

theorem get_addKeyed (key : α → Option κ) (g : Groups κ α) (v : α) (k : κ) :
    get k (addKeyed key g v) = get k g ++ [v].filter fun v => key v == some k := by
  unfold addKeyed
  cases hv : key v with
  | none =>
    rw [filter_cons_of_neg (by rw [hv]; exact Bool.false_ne_true)]
    exact (append_nil _).symm
  | some k' =>
    show get k (append k' [v] g) = _
    rw [get_append]
    by_cases hk : k' = k
    · subst hk
      rw [if_pos (beq_self_eq_true k'), filter_cons_of_pos (by rw [hv]; exact beq_self_eq_true _)]
      rfl
    · rw [if_neg (fun h => hk (eq_of_beq h)), filter_cons_of_neg]
      · rfl
      · rw [hv]
        exact fun h => hk (Option.some.inj (eq_of_beq h))

/-- The values of a key are those of the list that have it, in order. -/
theorem get_of (key : α → Option κ) (xs : List α) (k : κ) :
    get k (of key xs) = xs.filter fun v => key v == some k := by
  have hfold : ∀ (xs : List α) (g : Groups κ α), get k (xs.foldl (addKeyed key) g)
      = get k g ++ xs.filter fun v => key v == some k := by
    intro xs
    induction xs with
    | nil => exact fun g => (append_nil _).symm
    | cons x xs ih =>
      intro g
      rw [foldl_cons, ih, get_addKeyed, append_assoc, ← filter_append]
      rfl
  exact hfold xs []

theorem proper_of (key : α → Option κ) (xs : List α) : Proper (of key xs) := by
  have hfold : ∀ (xs : List α) (g : Groups κ α), Proper g → Proper (xs.foldl (addKeyed key) g) := by
    intro xs
    induction xs with
    | nil => exact fun g h => h
    | cons x xs ih =>
      intro g h
      refine ih _ ?_
      unfold addKeyed
      split
      · exact h.append (cons_ne_nil x [])
      · exact h
  exact hfold xs [] proper_nil

/-- **The groups of a list are its parts of equal keys**, without the empty ones. -/
theorem mem_of {key : α → Option κ} {xs : List α} :
    (k, vs) ∈ of key xs ↔ (xs.filter fun v => key v == some k) = vs ∧ vs ≠ [] := by
  rw [(proper_of key xs).mem_iff, get_of]

/-- **What is picked from groups of two or more is there exactly when keys repeat.** -/
theorem filterMap_of_ne_nil_iff {key : α → Option κ} {xs : List α} {pick : κ × List α → Option β}
    (hnil : ∀ k, pick (k, []) = none) (hone : ∀ k x, pick (k, [x]) = none)
    (htwo : ∀ k x y vs, (pick (k, x :: y :: vs)).isSome) :
    (of key xs).filterMap pick ≠ [] ↔ ¬ (xs.filterMap key).Nodup := by
  have hpick : ∀ k vs, (pick (k, vs)).isSome ↔ 2 ≤ vs.length := by
    intro k vs
    match vs with
    | [] =>
      rw [hnil]
      exact ⟨fun h => (by cases h), fun h => (by cases h)⟩
    | [x] =>
      rw [hone]
      exact ⟨fun h => (by cases h), fun h => absurd h (by decide : ¬ 2 ≤ 1)⟩
    | x :: y :: vs => exact ⟨fun _ => Nat.le_add_left 2 _, fun _ => htwo k x y vs⟩
  have hcount : ∀ k, (xs.filterMap key).count k = (xs.filter fun v => key v == some k).length := by
    intro k
    rw [count_filterMap, countP_eq_length_filter]
  rw [nodup_iff_count_le_one, not_forall]
  constructor
  · intro hne
    obtain ⟨b, hb⟩ := exists_mem_of_ne_nil _ hne
    obtain ⟨⟨k, vs⟩, hmem, hsome⟩ := mem_filterMap.mp hb
    have hlong := (hpick k vs).mp (by rw [hsome]; rfl)
    rw [← (mem_of.mp hmem).1] at hlong
    refine ⟨k, ?_⟩
    rw [hcount]
    exact Nat.not_le.mpr hlong
  · rintro ⟨k, hlong⟩
    rw [hcount, Nat.not_le] at hlong
    obtain ⟨b, hb⟩ := Option.isSome_iff_exists.mp ((hpick k _).mpr hlong)
    refine ne_nil_of_mem (mem_filterMap.mpr ⟨_, mem_of.mpr ⟨rfl, ?_⟩, hb⟩)
    exact ne_nil_of_length_pos (by omega)

end Groups

/-! ## §3. Findings. -/

namespace Findings

/-- Whether findings hold a message of a check. -/
def Has (fs : Findings) (check : String) : Prop :=
  ∃ messages, (check, messages) ∈ fs ∧ messages ≠ []

/-- All messages of a check, in order; entries of one name follow one another. -/
def messagesOf (check : String) (fs : Findings) : List String :=
  fs.flatMap fun p => if p.1 == check then p.2 else []

theorem has_iff_get {fs : Findings} (h : Groups.Proper fs) (check : String) :
    fs.Has check ↔ Groups.get check fs ≠ [] := by
  constructor
  · rintro ⟨messages, hmem, hne⟩
    rw [(h.mem_iff.mp hmem).1]
    exact hne
  · intro hne
    exact ⟨_, h.mem_iff.mpr ⟨rfl, hne⟩, hne⟩

theorem has_iff_messagesOf (fs : Findings) (check : String) :
    fs.Has check ↔ fs.messagesOf check ≠ [] := by
  unfold messagesOf
  constructor
  · rintro ⟨messages, hmem, hne⟩ hnil
    have hpart := flatMap_eq_nil_iff.mp hnil _ hmem
    rw [if_pos (beq_self_eq_true check)] at hpart
    exact hne hpart
  · intro hne
    obtain ⟨m, hm⟩ := exists_mem_of_ne_nil _ hne
    obtain ⟨⟨name, messages⟩, hmem, hpart⟩ := mem_flatMap.mp hm
    split at hpart
    next hname =>
      cases eq_of_beq hname
      exact ⟨messages, hmem, ne_nil_of_mem hpart⟩
    next => cases hpart

theorem has_flatten {parts : List Findings} {check : String} :
    Has parts.flatten check ↔ ∃ fs ∈ parts, fs.Has check := by
  constructor
  · rintro ⟨messages, hmem, hne⟩
    obtain ⟨fs, hfs, hmem⟩ := mem_flatten.mp hmem
    exact ⟨fs, hfs, messages, hmem, hne⟩
  · rintro ⟨fs, hfs, messages, hmem, hne⟩
    exact ⟨messages, mem_flatten.mpr ⟨fs, hfs, hmem⟩, hne⟩

/-- Findings in a list are grouped by their checks. -/
theorem get_ofList (found : List Finding) (check : String) :
    Groups.get check (ofList found) = (found.filter (·.check == check)).map (·.message) :=
  Groups.get_foldl_add Finding.check Finding.message found [] check

theorem proper_ofList (found : List Finding) : Groups.Proper (ofList found) := by
  have hfold : ∀ (found : List Finding) (fs : Findings), Groups.Proper fs →
      Groups.Proper (found.foldl (fun fs f => Groups.add f.check f.message fs) fs) := by
    intro found
    induction found with
    | nil => exact fun fs h => h
    | cons f found ih => exact fun fs h => ih _ (h.append (cons_ne_nil _ _))
  exact hfold found [] Groups.proper_nil

/-- The checks of a list of findings. -/
theorem has_ofList (found : List Finding) (check : String) :
    Has (ofList found) check ↔ ∃ f ∈ found, f.check = check := by
  rw [has_iff_get (proper_ofList found), get_ofList, ne_eq, map_eq_nil_iff,
    filter_eq_nil_iff]
  constructor
  · intro h
    by_contra hnone
    exact h fun f hf heq => hnone ⟨f, hf, eq_of_beq heq⟩
  · rintro ⟨f, hf, rfl⟩ h
    exact h f hf (beq_self_eq_true _)

end Findings

/-! ## §4. Reports. -/

namespace Report

theorem add_settings (r : Report) (check : String) (messages : List String) :
    (r.add check messages).settings = r.settings := by
  unfold add
  split <;> rfl

/-- What adding the messages of one check keeps, adding those of several does. -/
theorem addAll_induction {P : Report → Prop} (hadd : ∀ r, P r →
    ∀ check messages, P (r.add check messages)) (found : Findings) {r : Report} (h :
    P r) : P (r.addAll found) := by
  induction found generalizing r with
  | nil => exact h
  | cons f found ih => exact ih (hadd r h f.1 f.2)

theorem addAll_settings (found : Findings) (r : Report) : (r.addAll found).settings = r.settings :=
  addAll_induction (fun r' h check messages => (r'.add_settings check messages).trans h) found rfl

/-- The messages that a report takes in of a check. -/
def kept (s : Settings) (check : String) (messages : List String) : List String :=
  if s.isDisabled check then [] else messages.map shorten

theorem get_add (r : Report) (name check : String) (messages : List String) :
    Groups.get check (r.add name messages).findings
      = Groups.get check r.findings ++ kept r.settings check
      (if name == check then messages else []) := by
  unfold add kept
  by_cases hname : name = check
  · subst hname
    rw [if_pos (beq_self_eq_true name)]
    cases hdisabled : r.settings.isDisabled name with
    | true =>
      rw [Bool.or_true, if_pos rfl, if_pos rfl, append_nil]
    | false =>
      cases messages with
      | nil => exact (append_nil _).symm
      | cons m ms =>
        show Groups.get name (Groups.append name ((m :: ms).map shorten) r.findings) = _
        rw [Groups.get_append, if_pos (beq_self_eq_true name)]
        rfl
  · rw [if_neg fun h => hname (eq_of_beq h), map_nil, ite_self, append_nil]
    split
    · rfl
    · show Groups.get check (Groups.append name (messages.map shorten) r.findings) = _
      rw [Groups.get_append, if_neg fun h => hname (eq_of_beq h), append_nil]

/-- **The messages of a check in a report** are those that it had and those that are added, unless
    the check is disabled. -/
theorem get_addAll (check : String) (found : Findings) : ∀ r :
    Report, Groups.get check (r.addAll found).findings
      = Groups.get check r.findings ++ kept r.settings check (found.messagesOf check) := by
  have hkept : ∀ s ms ms', kept s check (ms ++ ms') = kept s check ms ++ kept s check ms' := by
    intro s ms ms'
    unfold kept
    split
    · rfl
    · exact map_append
  induction found with
  | nil =>
    intro r
    show _ = _ ++ kept r.settings check []
    rw [kept, map_nil, ite_self, append_nil]
    rfl
  | cons f found ih =>
    intro r
    show Groups.get check ((r.add f.1 f.2).addAll found).findings = _
    rw [ih, get_add, add_settings, append_assoc, ← hkept]
    rfl

theorem proper_add {r : Report} (h : Groups.Proper r.findings) (check : String)
    (messages : List String) : Groups.Proper (r.add check messages).findings := by
  unfold add
  cases messages with
  | nil => exact h
  | cons m ms =>
    split
    · exact h
    · exact h.append (cons_ne_nil _ _)

theorem proper_addAll (found : Findings) {r : Report} (h : Groups.Proper r.findings) :
    Groups.Proper (r.addAll found).findings :=
    addAll_induction (P := fun r => Groups.Proper r.findings) (fun _ => proper_add) found h

/-- A report that starts without findings holds messages of the enabled checks that have some. -/
theorem has_addAll_nil (s : Settings) (found : Findings) (check : String) :
    (({ settings := s } : Report).addAll found).findings.Has check
      ↔ s.isDisabled check = false ∧ found.Has check := by
  rw [Findings.has_iff_get (proper_addAll found Groups.proper_nil), get_addAll,
    Findings.has_iff_messagesOf]
  show kept s check _ ≠ [] ↔ _
  unfold kept
  cases s.isDisabled check with
  | true => exact ⟨fun h => absurd rfl h, fun h => Bool.noConfusion h.1⟩
  | false =>
    rw [if_neg Bool.false_ne_true, ne_eq, map_eq_nil_iff]
    exact ⟨fun h => ⟨rfl, h⟩, fun h => h.2⟩

/-- A report blocks exactly when it holds a message of a check whose severity blocks. -/
theorem isBlocking_iff (r : Report) : r.isBlocking ↔ ∃ check, r.findings.Has check ∧
      r.settings.blocks (r.settings.severity check).text := by
  unfold isBlocking blocks
  rw [any_eq_true]
  constructor
  · rintro ⟨⟨check, messages⟩, hmem, hblocks⟩
    rw [Bool.and_eq_true, Bool.not_eq_true', isEmpty_eq_false_iff] at hblocks
    exact ⟨check, ⟨messages, hmem, hblocks.1⟩, hblocks.2⟩
  · rintro ⟨check, ⟨messages, hmem, hne⟩, hblocks⟩
    refine ⟨(check, messages), hmem, ?_⟩
    rw [Bool.and_eq_true, Bool.not_eq_true', isEmpty_eq_false_iff]
    exact ⟨hne, hblocks⟩

/-- A report that has messages only where another one has some blocks only if that one does. -/
theorem isBlocking_of_has {r r' : Report} (hhas : ∀ check, r'.findings.Has check →
    r.findings.Has check) (hblocks : ∀ check, r'.settings.blocks (r'.settings.severity check).text
      = r.settings.blocks (r.settings.severity check).text) (h : r'.isBlocking) : r.isBlocking := by
  obtain ⟨check, hcheck, hb⟩ := r'.isBlocking_iff.mp h
  exact r.isBlocking_iff.mpr ⟨check, hhas check hcheck, (hblocks check).symm.trans hb⟩

end Report

end AddonAudit
