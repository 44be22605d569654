/-
  AddonAudit.Proofs.Checks.Narrowing — looking at fewer files raises no new alarm.

  A check that goes through all files goes through any part of them, and under each name that it
  then reports it reports for all files too.  Most rules look at one file at a time, and what they
  find in fewer files is a part of what they find in all.  The rules on duplicates look across
  files: their messages change, but where keys repeat in a part they repeat in the whole.

  Main result: `Check.narrows_findings`.
-/
import AddonAudit.Proofs.Checks.Names
import AddonAudit.Proofs.Model.Declarations
import Mathlib.Data.List.Flatten

namespace AddonAudit

open List

open Traversal (bind_ok_iff mapM_sublist mapM_cover)

/-! ## §1. Narrowing. -/

/-- Findings whose checks all occur among others. -/
def Covered (found' found : List Finding) : Prop := ∀ f ∈ found', ∃ g ∈ found, g.check = f.check

namespace Covered

variable {found' found more' more : List Finding}

theorem of_subset (h : found' ⊆ found) : Covered found' found := fun f hf => ⟨f, h hf, rfl⟩

theorem append (h : Covered found' found) (h' : Covered more' more) :
    Covered (found' ++ more') (found ++ more) := by
  intro f hf
  rcases mem_append.mp hf with hf | hf
  · obtain ⟨g, hg, hcheck⟩ := h f hf
    exact ⟨g, mem_append_left _ hg, hcheck⟩
  · obtain ⟨g, hg, hcheck⟩ := h' f hf
    exact ⟨g, mem_append_right _ hg, hcheck⟩

/-- Findings under one name are covered if there are any others under it. -/
theorem of_named {check : String} (h' : Named [check] found') (h : Named [check] found)
    (hne : found' ≠ [] → found ≠ []) : Covered found' found := by
  intro f hf
  obtain ⟨g, hg⟩ := exists_mem_of_ne_nil _ (hne (ne_nil_of_mem hf))
  exact ⟨g, hg, (mem_singleton.mp (h g hg)).trans (mem_singleton.mp (h' f hf)).symm⟩

theorem has (h : Covered found' found) {check : String}
    (hcheck : (Findings.ofList found').Has check) : (Findings.ofList found).Has check := by
  obtain ⟨f, hf, rfl⟩ := (Findings.has_ofList found' check).mp hcheck
  exact (Findings.has_ofList found _).mpr (h f hf)

end Covered

/-- A check that succeeds with every part of what it succeeds with, and then reports under no other
    names. -/
def Narrows {α : Type} (check : List α → Except Fault Findings) : Prop :=
  ∀ (xs' xs : List α) (fs : Findings), xs'.Sublist xs → check xs = .ok fs →
    ∃ fs', check xs' = .ok fs' ∧ ∀ name, fs'.Has name → fs.Has name

/-- A check that looks at nothing. -/
theorem Narrows.const {α : Type} (r : Except Fault Findings) : Narrows fun _ : List α => r :=
  fun _ _ fs _ h => ⟨fs, h, fun _ => id⟩

/-- A check that finds nothing in no files narrows if it does so otherwise. -/
theorem Narrows.of_cons {α : Type} {check check' : List α → Except Fault Findings}
    (h : Narrows check') (hnil : check [] = .ok [])
    (hcons : ∀ x xs, check (x :: xs) = check' (x :: xs)) :
    Narrows check := by
  intro xs' xs fs hsub hfs
  cases xs' with
  | nil => exact ⟨[], hnil, fun _ ⟨_, hmem, _⟩ => by cases hmem⟩
  | cons x' xs' =>
    cases xs with
    | nil => cases hsub
    | cons x xs =>
      rw [hcons] at hfs ⊢
      exact h _ _ _ hsub hfs

theorem flatten_subset {α : Type} {parts' parts : List (List α)} (h : parts' ⊆ parts) :
    parts'.flatten ⊆ parts.flatten := by
  intro x hx
  obtain ⟨part, hpart, hx⟩ := mem_flatten.mp hx
  exact mem_flatten.mpr ⟨part, h hpart, hx⟩

theorem flatMap_subset {α β : Type} (g : α → List β) {xs' xs : List α} (h : xs' ⊆ xs) :
    xs'.flatMap g ⊆ xs.flatMap g := by
  rw [flatMap_def, flatMap_def]
  exact flatten_subset (map_subset g h)

/-! ## §2. Tables. -/

namespace Csv

/-- Tables report duplicates exactly when ids repeat. -/
theorem duplicates_ne_nil_iff (rs : List Record) :
    (Groups.of (fun r : Record => some r.key) rs).filterMap duplicate? ≠ [] ↔
    ¬ (rs.map Record.key).Nodup := by
  rw [Groups.filterMap_of_ne_nil_iff (fun _ => rfl) (fun _ _ => rfl) (fun _ _ _ _ => rfl)]
  rw [filterMap_eq_map']

theorem named_duplicates (rs : List Record) : Named ["csv_duplicate_record_id"]
    ((Groups.of (fun r : Record => some r.key) rs).filterMap duplicate?) :=
  Named.filterMap "csv_duplicate_record_id" mem_cons_self (fun _ _ => check_of_duplicate) _

theorem narrows_checkTables (w : World) : Narrows (checkTables w) := by
  intro files' files fs hsub h
  obtain ⟨tables, htables, h⟩ := bind_ok_iff.mp h
  cases h
  obtain ⟨tables', htables', hsub'⟩ := mapM_sublist hsub htables
  refine ⟨_, bind_ok_iff.mpr ⟨tables', htables', rfl⟩, fun _ => Covered.has (Covered.append ?_ ?_)⟩
  · exact Covered.of_subset (hsub'.filterMap _).subset
  · refine Covered.of_named (named_duplicates _) (named_duplicates _) ?_
    rw [duplicates_ne_nil_iff, duplicates_ne_nil_iff]
    exact mt fun hnodup => ((hsub'.flatMap _).map _).nodup hnodup

end Csv

/-! ## §3. Catalogs. -/

namespace Catalog

theorem narrows_checkCatalogs (w : World) : Narrows (checkCatalogs w) := by
  intro files' files fs hsub h
  obtain ⟨opened, hopened, h⟩ := bind_ok_iff.mp h
  obtain ⟨parts, hparts, h⟩ := bind_ok_iff.mp h
  cases h
  obtain ⟨opened', hopened', hsub'⟩ := mapM_sublist hsub hopened
  obtain ⟨parts', hparts', hsub''⟩ := mapM_sublist hsub' hparts
  refine ⟨_, bind_ok_iff.mpr ⟨opened', hopened', bind_ok_iff.mpr ⟨parts', hparts', rfl⟩⟩,
    fun _ => Covered.has (Covered.append ?_ ?_)⟩
  · exact Covered.of_subset (hsub'.filterMap _).subset
  · exact Covered.of_subset (flatten_subset hsub''.subset)

end Catalog

/-! ## §4. Data files. -/

namespace Xml

/-- A record of a document with another number. -/
def Record.at (r : Record) (i : Nat) : Record := { r with index := i }

/-- A key of a document with another number. -/
def FieldKey.at (k : FieldKey) (i : Nat) : FieldKey := { k with index := i }

/-- The number of a document only numbers its records. -/
theorem recordsOf_eq_map (d : Document) (i j : Nat) :
    recordsOf d j = (recordsOf d i).map (·.at j) := by
  unfold recordsOf
  cases d.dataRoot? with
  | none => rfl
  | some root =>
    dsimp only
    rw [map_filterMap]
    congr 1
    funext p
    split
    · split <;> rfl
    · rfl

theorem exists_number_of_mem {ds : List Document} {d : Document} (h : d ∈ ds) :
    ∃ i, (d, i) ∈ ds.zipIdx := by
  obtain ⟨i, hi, rfl⟩ := mem_iff_getElem.mp h
  exact ⟨i, mem_zipIdx_iff_getElem?.mpr (getElem?_eq_getElem hi)⟩

/-- A record of some documents is a record of all of them, up to its number. -/
theorem exists_record_of_subset {ds' ds : List Document} (h : ds' ⊆ ds) {r : Record}
    (hr : r ∈ recordsIn ds') : ∃ i, r.at i ∈ recordsIn ds := by
  obtain ⟨⟨d, i'⟩, hmem, hr⟩ := mem_flatMap.mp hr
  obtain ⟨i, hi⟩ := exists_number_of_mem (h (fst_mem_of_mem_zipIdx hmem))
  refine ⟨i, mem_flatMap.mpr ⟨(d, i), hi, ?_⟩⟩
  show r.at i ∈ recordsOf d i
  rw [recordsOf_eq_map d i' i]
  exact mem_map_of_mem hr

/-- The keys of records, in which the numbers do not occur. -/
theorem map_key_recordsIn (ds : List Document) :
    (recordsIn ds).map Record.key = ds.flatMap fun d => (recordsOf d 0).map Record.key := by
  have hkeys : ∀ p : Document × Nat, (recordsOf p.1 p.2).map Record.key
      = (recordsOf p.1 0).map Record.key := by
    rintro ⟨d, i⟩
    rw [recordsOf_eq_map d 0 i, map_map]
    rfl
  calc (recordsIn ds).map Record.key
      = ds.zipIdx.flatMap fun p => (recordsOf p.1 p.2).map Record.key := map_flatMap
    _ = ds.zipIdx.flatMap fun p => (recordsOf p.1 0).map Record.key := by simp only [hkeys]
    _ = (ds.zipIdx.map Prod.fst).flatMap fun d => (recordsOf d 0).map Record.key :=
        by rw [flatMap_map]
    _ = ds.flatMap fun d => (recordsOf d 0).map Record.key := by rw [zipIdx_map_fst]

/-- The keys of the counted fields of a document. -/
def fieldKeys (d : Document) (i : Nat) : List FieldKey :=
  ((recordsOf d i).flatMap Record.countedFields).map PlacedField.key

theorem map_key_placed (r : Record) (i : Nat) (parent field : Element) :
    ((r.at i).placed parent field).map PlacedField.key
      = ((r.placed parent field).map PlacedField.key).map (·.at i) := by
  unfold Record.placed
  split <;> rfl

theorem map_key_countedFields (r : Record) (i : Nat) : (r.at i).countedFields.map PlacedField.key
      = (r.countedFields.map PlacedField.key).map (·.at i) := by
  have hall : (r.at i).allFields.map PlacedField.key
      = (r.allFields.map PlacedField.key).map (·.at i) := by
    unfold Record.allFields
    simp only [map_flatMap, map_append, map_key_placed]
    rfl
  unfold Record.countedFields
  show map _ (if r.fields.any _ then _ else _) = _
  split
  · rfl
  · exact hall

/-- The number of a document only numbers the keys of its fields. -/
theorem fieldKeys_eq_map (d : Document) (i j : Nat) :
    fieldKeys d j = (fieldKeys d i).map (·.at j) := by
  unfold fieldKeys
  rw [recordsOf_eq_map d i j, map_flatMap, flatMap_map, map_flatMap, map_flatMap]
  simp only [map_key_countedFields]

theorem index_of_mem_fieldKeys {d : Document} {i : Nat} {k : FieldKey} (h : k ∈ fieldKeys d i) :
    k.index = i := by
  rw [fieldKeys_eq_map d i i] at h
  obtain ⟨k', -, rfl⟩ := mem_map.mp h
  rfl

/-- **Fields repeat among documents exactly when they repeat inside one of them.** -/
theorem nodup_fieldKeys_iff (ds : List Document) :
    (((recordsIn ds).flatMap Record.countedFields).map PlacedField.key).Nodup ↔
    ∀ d ∈ ds, (fieldKeys d 0).Nodup := by
  have hkeys : ((recordsIn ds).flatMap Record.countedFields).map PlacedField.key
      = ds.zipIdx.flatMap fun p => fieldKeys p.1 p.2 := by
    unfold recordsIn
    rw [flatMap_assoc, map_flatMap]
    rfl
  rw [hkeys, nodup_flatMap]
  constructor
  · rintro ⟨hnodup, -⟩ d hd
    obtain ⟨i, hi⟩ := exists_number_of_mem hd
    have hat : (fieldKeys d i).Nodup := hnodup (d, i) hi
    rw [fieldKeys_eq_map d 0 i] at hat
    exact Nodup.of_map _ hat
  · intro hnodup
    constructor
    · rintro ⟨d, i⟩ hp
      have hzero := hnodup d (fst_mem_of_mem_zipIdx hp)
      rw [fieldKeys_eq_map d i 0] at hzero
      exact Nodup.of_map _ hzero
    · -- keys of different documents differ in the numbers of these
      have hnumbers : (ds.zipIdx.map Prod.snd).Nodup := by
        rw [zipIdx_map_snd]
        exact nodup_range'
      rw [Nodup, pairwise_map] at hnumbers
      refine hnumbers.imp fun {p q} hne k hk hk' => hne ?_
      exact (index_of_mem_fieldKeys hk).symm.trans (index_of_mem_fieldKeys hk')

/-- Records are reported as repeated exactly when their keys repeat. -/
theorem repeatedRecords_ne_nil_iff (rs : List Record) :
    repeatedRecords rs ≠ [] ↔ ¬ (rs.map Record.key).Nodup := by
  unfold repeatedRecords
  rw [Groups.filterMap_of_ne_nil_iff (fun _ => rfl) (fun _ _ => rfl) (fun _ _ _ _ => rfl)]
  rw [filterMap_eq_map']

/-- Fields are reported as repeated exactly when their keys repeat. -/
theorem repeatedFields_ne_nil_iff (fs : List PlacedField) :
    repeatedFields fs ≠ [] ↔ ¬ (fs.map PlacedField.key).Nodup := by
  unfold repeatedFields
  rw [Groups.filterMap_of_ne_nil_iff (fun _ => rfl) (fun _ _ => rfl) (fun _ _ _ _ => rfl)]
  rw [filterMap_eq_map']

theorem narrows_checkRecords {addon : String} {ds' ds : List Document} {found : List Finding}
    (hsub : ds'.Sublist ds) (h : checkRecords addon (recordsIn ds) = .ok found) :
    ∃ found', checkRecords addon (recordsIn ds') = .ok found' ∧ Covered found' found := by
  obtain ⟨single, hsingle, h⟩ := bind_ok_iff.mp h
  cases h
  have hcover : ∀ r ∈ recordsIn ds', ∃ r' ∈ recordsIn ds, checkRecord addon r =
      checkRecord addon r' := by
    intro r hr
    obtain ⟨i, hi⟩ := exists_record_of_subset hsub.subset hr
    exact ⟨r.at i, hi, rfl⟩
  obtain ⟨single', hsingle', hsub'⟩ := mapM_cover hsingle hcover
  refine ⟨_, bind_ok_iff.mpr ⟨single', hsingle', rfl⟩, Covered.append (Covered.append ?_ ?_) ?_⟩
  · exact Covered.of_subset (flatten_subset hsub')
  · refine Covered.of_named (named_repeatedRecords _) (named_repeatedRecords _) ?_
    rw [repeatedRecords_ne_nil_iff, repeatedRecords_ne_nil_iff, map_key_recordsIn,
      map_key_recordsIn]
    exact mt fun hnodup => (hsub.flatMap _).nodup hnodup
  · refine Covered.of_named (named_repeatedFields _) (named_repeatedFields _) ?_
    rw [repeatedFields_ne_nil_iff, repeatedFields_ne_nil_iff, nodup_fieldKeys_iff,
      nodup_fieldKeys_iff]
    exact mt fun hnodup d hd => hnodup d (hsub.subset hd)

theorem narrows_checkDataFiles (w : World) (addon : String) : Narrows (checkDataFiles w addon) := by
  intro files' files fs hsub h
  obtain ⟨ds, hds, h⟩ := bind_ok_iff.mp h
  obtain ⟨found, hfound, h⟩ := bind_ok_iff.mp h
  obtain ⟨records, hrecords, hparts⟩ := bind_ok_iff.mp hfound
  cases h
  cases hparts
  obtain ⟨ds', hds', hsub'⟩ := mapM_sublist hsub hds
  obtain ⟨records', hrecords', hcovered⟩ := narrows_checkRecords hsub' hrecords
  refine ⟨_, bind_ok_iff.mpr ⟨ds', hds', bind_ok_iff.mpr
    ⟨_, bind_ok_iff.mpr ⟨records', hrecords', rfl⟩, rfl⟩⟩, fun _ => Covered.has ?_⟩
  refine Covered.append (Covered.append (Covered.append (Covered.append (Covered.append
    ?_ ?_) ?_) ?_) ?_) hcovered
  · exact Covered.of_subset (hsub'.filterMap _).subset
  · exact Covered.of_subset (hsub'.flatMap _).subset
  · exact Covered.of_subset (hsub'.flatMap _).subset
  · exact Covered.of_subset (hsub'.flatMap _).subset
  · exact Covered.of_subset (hsub'.flatMap _).subset

/-! ## §5. Views. -/

theorem narrows_checkViewFiles (w : World) : Narrows (checkViewFiles w) := by
  intro files' files fs hsub h
  obtain ⟨ds, priorities, ids, hds, hpriorities, hids, rfl⟩ := checkViewFiles_parts h
  obtain ⟨ds', hds', hsub'⟩ := mapM_sublist hsub hds
  obtain ⟨priorities', hpriorities', hsubPriorities⟩ := mapM_sublist hsub' hpriorities
  obtain ⟨ids', hids', hsubIds⟩ := mapM_sublist hsub' hids
  refine ⟨_, bind_ok_iff.mpr ⟨ds', hds', bind_ok_iff.mpr ⟨_, bind_ok_iff.mpr
    ⟨priorities', hpriorities', bind_ok_iff.mpr ⟨ids', hids', rfl⟩⟩, rfl⟩⟩, fun _ => Covered.has ?_⟩
  refine Covered.append (Covered.append (Covered.append (Covered.append ?_ ?_) ?_) ?_) ?_
  · exact Covered.of_subset (hsub'.flatMap _).subset
  · exact Covered.of_subset (hsub'.flatMap _).subset
  · exact Covered.of_subset (flatten_subset hsubPriorities.subset)
  · exact Covered.of_subset (flatten_subset hsubIds.subset)
  · exact Covered.of_subset (hsub'.flatMap _).subset

end Xml

/-! ## §6. Sources. -/

namespace Model

theorem narrows_checkSources (w : World) (p : Policy) : Narrows (checkSources w p) := by
  intro files' files fs hsub h
  obtain ⟨readings, hreadings, h⟩ := bind_ok_iff.mp h
  obtain ⟨found, hfound, h⟩ := bind_ok_iff.mp h
  obtain ⟨poor, hpoor, hparts⟩ := bind_ok_iff.mp hfound
  cases h
  cases hparts
  obtain ⟨readings', hreadings', hsub'⟩ := mapM_sublist hsub hreadings
  -- the declarations of fewer files need not come in the same order
  have hdeclared : declarations readings' ⊆ declarations readings := by
    intro d hd
    obtain ⟨q, hq, hd⟩ := (mem_declarations_iff hreadings' d).mp hd
    exact (mem_declarations_iff hreadings d).mpr ⟨q, hsub'.subset hq, hd⟩
  have hcover : ∀ d ∈ declarations readings', ∃ d' ∈ declarations readings,
      poorDocstrings p d = poorDocstrings p d' := fun d hd => ⟨d, hdeclared hd, rfl⟩
  obtain ⟨poor', hpoor', hsubPoor⟩ := mapM_cover hpoor hcover
  refine ⟨_, bind_ok_iff.mpr ⟨readings', hreadings', bind_ok_iff.mpr ⟨_, bind_ok_iff.mpr
    ⟨poor', hpoor', rfl⟩, rfl⟩⟩, fun _ => Covered.has ?_⟩
  refine Covered.append (Covered.of_subset (hsub'.filterMap _).subset) ?_
  refine Covered.append (Covered.append (Covered.append
    (Covered.append (Covered.append (Covered.append ?_ ?_) ?_) ?_) ?_) ?_) ?_
  · exact Covered.of_subset (flatten_subset hsubPoor)
  -- the other parts come from each declaration by itself
  all_goals exact Covered.of_subset (flatMap_subset _ hdeclared)

end Model

/-! ## §7. All checks. -/

/-- **Every check narrows.** -/
theorem Check.narrows_findings (k : Check) (w : World) (s : Settings) (a : Addon) :
    Narrows (k.findings w s a) := by
  cases k with
  | manifest => exact Narrows.const _
  | readme => exact Narrows.const _
  | tables => exact (Csv.narrows_checkTables w).of_cons rfl fun _ _ => rfl
  | catalogs => exact (Catalog.narrows_checkCatalogs w).of_cons rfl fun _ _ => rfl
  | records => exact (Xml.narrows_checkDataFiles w a.name).of_cons rfl fun _ _ => rfl
  | views => exact (Xml.narrows_checkViewFiles w).of_cons rfl fun _ _ => rfl
  | sources =>
    have hpaths : Narrows fun files : List DataFile =>
        Model.checkSources w (Model.Policy.ofSettings s) (files.map (·.path)) :=
      fun _ _ _ hsub h => Model.narrows_checkSources w _ _ _ _ (hsub.map _) h
    exact hpaths.of_cons rfl fun _ _ => rfl

end AddonAudit
