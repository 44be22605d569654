/-
  AddonAudit.Proofs.Checks.Fields — what is said of fields that occur more than once.

  Fields are met record by record, along paths of one, three and five steps.  The paths from one
  record lead to elements of their own, but a record that stands in a field of another is one of the
  steps on the paths from it, so that its fields are met twice.  Elements are told apart by their
  places, which no two of a document share.
-/
import AddonAudit.Proofs.Checks.Duplicates
import AddonAudit.Proofs.Xml.Tree

namespace AddonAudit.Xml

open List

/-! ## §1. The paths from a record. -/

/-- An element in which the fields of a record stand: the record, a child of one of its fields, or a
    list or form in a field of such a child. -/
inductive Record.Reaches (r : Record) : Element → Prop
  | own : Reaches r r.element
  | inner {f c : Element} (hf : f ∈ r.fields) (hc : c ∈ f.elements) : Reaches r c
  | deep {f c g t : Element} (hf : f ∈ r.fields) (hc : c ∈ f.elements) (hg : g ∈ c.elements)
      (ht : t ∈ g.elements) (hname : t.isNamed "record" = false) : Reaches r t

variable {root : Element} {r : Record}

theorem Record.Reaches.mem {p : Element} (h : r.Reaches p)
    (hr : r.element ∈ root.selfAndDescendants) : p ∈ root.selfAndDescendants := by
  have hfield : ∀ {f}, f ∈ r.fields → f ∈ root.selfAndDescendants :=
    fun hf => Element.mem_of_child hr (mem_of_mem_filter hf)
  cases h with
  | own => exact hr
  | inner hf hc => exact Element.mem_of_child (hfield hf) hc
  | deep hf hc hg ht =>
    exact Element.mem_of_child (Element.mem_of_child (Element.mem_of_child (hfield hf) hc) hg) ht

theorem mem_placed {parent field : Element} {x : PlacedField} (h : x ∈ r.placed parent field) :
    ∃ name, field.get? "name" = some name ∧ x = ⟨r.doc, r.index, name, field, parent⟩ := by
  unfold Record.placed at h
  split at h
  · rename_i name hname
    exact ⟨name, hname, mem_singleton.mp h⟩
  · cases h

/-- What a field that is met from a record is. -/
theorem mem_allFields {x : PlacedField} (h : x ∈ r.allFields) :
    (x.doc = r.doc ∧ x.index = r.index ∧ x.field.get? "name" = some x.name) ∧
      x.field ∈ x.parent.elements ∧ r.Reaches x.parent := by
  have hplaced : ∀ {parent field}, x ∈ r.placed parent field → field ∈ parent.elements →
    r.Reaches parent →
      (x.doc = r.doc ∧ x.index = r.index ∧ x.field.get? "name" = some x.name) ∧
        x.field ∈ x.parent.elements ∧ r.Reaches x.parent := by
    intro parent field hx hfield hparent
    obtain ⟨name, hname, rfl⟩ := mem_placed hx
    exact ⟨⟨rfl, rfl, hname⟩, hfield, hparent⟩
  obtain ⟨f, hf, hx⟩ := mem_flatMap.mp h
  rcases mem_append.mp hx with hx | hx
  · exact hplaced hx (mem_of_mem_filter hf) .own
  obtain ⟨c, hc, hx⟩ := mem_flatMap.mp hx
  obtain ⟨g, hg, hx⟩ := mem_flatMap.mp hx
  have hg := mem_of_mem_filter hg
  rcases mem_append.mp hx with hx | hx
  · exact hplaced hx hg (.inner hf hc)
  obtain ⟨t, ht, hx⟩ := mem_flatMap.mp hx
  obtain ⟨k, hk, hx⟩ := mem_flatMap.mp hx
  obtain ⟨ht, hname⟩ := mem_filter.mp ht
  refine hplaced hx (mem_of_mem_filter hk) (.deep hf hc hg ht ?_)
  -- a list or form is no record
  unfold Element.isNamed at hname ⊢
  grind

theorem sublist_flatMap {α β : Type} {xs' xs : List α} (h : xs'.Sublist xs) {g g' : α → List β}
    (hg : ∀ x, (g' x).Sublist (g x)) : (xs'.flatMap g').Sublist (xs.flatMap g) := by
  induction h with
  | slnil => exact .refl _
  | cons x _ ih => exact ih.trans (sublist_append_right ..)
  | cons_cons x _ ih => exact (hg x).append ih

/-- **The paths from a record lead to elements of their own**, in document order. -/
theorem sublist_allFields (r : Record) :
    (r.allFields.map (·.field)).Sublist r.element.descendants := by
  have hplaced : ∀ parent field, ((r.placed parent field).map (·.field)).Sublist [field] := by
    intro parent field
    unfold Record.placed
    split
    · exact .refl _
    · exact nil_sublist _
  have hbelow : ∀ {e : Element} {xs : List Element} {g : Element → List Element},
    xs.Sublist e.elements →
      (∀ c, (g c).Sublist c.selfAndDescendants) → (xs.flatMap g).Sublist e.descendants := by
    intro e xs g hxs hg
    rw [descendants_eq]
    exact sublist_flatMap hxs hg
  unfold Record.allFields
  simp only [map_flatMap, map_append]
  refine hbelow filter_sublist fun f => (hplaced _ f).append ?_
  refine hbelow (.refl _) fun c => .cons _ ?_
  refine hbelow filter_sublist fun g => (hplaced _ g).append ?_
  refine hbelow filter_sublist fun t => .cons _ ?_
  exact hbelow filter_sublist fun k => (hplaced t k).trans (singleton_sublist.mpr mem_cons_self)

/-- Whether a record stands in a field of another. -/
def Record.Holds (r r' : Record) : Prop := ∃ f ∈ r.fields, r'.element ∈ f.elements

/-- **What is met from two records is met where one stands in a field of the other.** -/
theorem holds_of_reaches (hroot : root.Distinct) {r' : Record}
    (hr : r.element ∈ root.selfAndDescendants) (hr' : r'.element ∈ root.selfAndDescendants)
    (hname : r.element.isNamed "record") (hname' : r'.element.isNamed "record")
    (hne : r.element ≠ r'.element) {p p' : Element} (hp : r.Reaches p) (hp' : r'.Reaches p')
    (heq : p = p') :
    r.Holds r' ∨ r'.Holds r := by
  -- the paths are followed up from where they meet, step by step, until one of them has reached its
  -- record
  have hup : ∀ {e e' c c' : Element}, e ∈ root.selfAndDescendants → c ∈ e.elements →
    e' ∈ root.selfAndDescendants →
      c' ∈ e'.elements → c = c' → e = e' := by
    rintro e e' c c' he hc he' hc' rfl
    exact (hroot.parent_unique he hc he' hc' rfl).1
  have hdown : ∀ {e c : Element}, e ∈ root.selfAndDescendants → c ∈ e.elements →
      c ∈ root.selfAndDescendants :=
    Element.mem_of_child
  have hfield : ∀ {r : Record} {f : Element}, f ∈ r.fields → f ∈ r.element.elements :=
    mem_of_mem_filter
  cases hp with
  | own =>
    cases hp' with
    | own => exact absurd heq hne
    | inner hf hc => exact .inr ⟨_, hf, heq ▸ hc⟩
    | deep hf hc hg ht hother => exact absurd (heq ▸ hname) (by simp [hother])
  | @inner f c hf hc =>
    have hmem := hdown hr (hfield hf)
    cases hp' with
    | own => exact .inl ⟨f, hf, heq ▸ hc⟩
    | inner hf' hc' =>
      have hsame := hup hmem hc (hdown hr' (hfield hf')) hc' heq
      exact absurd (hup hr (hfield hf) hr' (hfield hf') hsame) hne
    | deep hf' hc' hg' ht' =>
      have hmem' := hdown (hdown hr' (hfield hf')) hc'
      have hsame := hup hmem hc (hdown hmem' hg') ht' heq
      exact .inr ⟨_, hf', hup hr (hfield hf) hmem' hg' hsame ▸ hc'⟩
  | @deep f c g t hf hc hg ht hother =>
    have hmem := hdown (hdown hr (hfield hf)) hc
    cases hp' with
    | own => exact absurd (heq ▸ hname') (by simp [hother])
    | inner hf' hc' =>
      have hsame := hup (hdown hmem hg) ht (hdown hr' (hfield hf')) hc' heq
      exact .inl ⟨_, hf, hup hmem hg hr' (hfield hf') hsame ▸ hc⟩
    | deep hf' hc' hg' ht' =>
      have hmem' := hdown (hdown hr' (hfield hf')) hc'
      have hsame := hup hmem hg hmem' hg' (hup (hdown hmem hg) ht (hdown hmem' hg') ht' heq)
      have hsame := hup (hdown hr (hfield hf)) hc (hdown hr' (hfield hf')) hc' hsame
      exact absurd (hup hr (hfield hf) hr' (hfield hf') hsame) hne

/-! ## §2. Fields of documents. -/

/-- Places tell the elements of a document apart that was read from a file. -/
theorem distinct_of_readDocument {w : World} {f : DataFile} {d : Document}
    (h : readDocument w f = .ok d) (hroot : d.dataRoot? = some root) : root.Distinct := by
  have hroot := (Option.filter_eq_some_iff.mp hroot).1
  unfold readDocument at h
  split at h
  · split at h
    · rename_i hread
      cases h
      cases hroot
      exact distinct_of_read hread
    · cases h
      cases hroot
  · cases h
    cases hroot
  · cases h

/-- Two mentions of fields are of different elements, or of one that is met from two records. -/
def Apart (rs : List Record) (x y : PlacedField) : Prop :=
  x.field.place ≠ y.field.place ∨ x.field = y.field ∧ ∃ r ∈ rs, ∃ r' ∈ rs,
    x ∈ r.countedFields ∧ y ∈ r'.countedFields ∧ (r.Holds r' ∨ r'.Holds r)

theorem sublist_countedFields (r : Record) : r.countedFields.Sublist r.allFields := by
  unfold Record.countedFields
  split
  · exact nil_sublist _
  · exact .refl _

section Documents

variable {ds : List Document} (hdistinct : ∀ d ∈ ds, ∀ root, d.dataRoot? = some root →
    root.Distinct)
include hdistinct

/-- A record is an element of its document, and no other record there is the same element. -/
theorem pairwise_recordsIn : (recordsIn ds).Pairwise fun r r' => r.index = r'.index →
    r.element.place ≠ r'.element.place := by
  unfold recordsIn
  rw [pairwise_flatMap]
  constructor
  · rintro ⟨d, i⟩ hd
    dsimp only [recordsOf]
    split
    · rename_i root hroot
      have hplaced := (hdistinct d (fst_mem_of_mem_zipIdx hd) root hroot).placed
      refine Pairwise.filterMap _ ?_ (pairwise_map.mp hplaced)
      grind
    · exact .nil
  · have hnumbers : (ds.zipIdx.map Prod.snd).Nodup := by
      rw [zipIdx_map_snd]
      exact nodup_range'
    have hindex : ∀ {d i r}, r ∈ recordsOf d i → r.index = i := by
      intro d i r hr
      rw [recordsOf_eq_map d i i] at hr
      obtain ⟨_, -, rfl⟩ := mem_map.mp hr
      rfl
    refine (pairwise_map.mp hnumbers).imp fun {p q} hne r hr r' hr' heq => absurd ?_ hne
    exact (hindex hr).symm.trans (heq.trans (hindex hr'))

variable {r : Record}

/-- The document that a record stands in. -/
theorem exists_root (hr : r ∈ recordsIn ds) : ∃ root, r.doc.dataRoot? = some root ∧ root.Distinct ∧
    r.element ∈ root.selfAndDescendants ∧ r.element.isNamed "record" := by
  obtain ⟨hdoc, root, hroot, hplaced, hname⟩ := mem_recordsIn hr
  exact ⟨root, hroot, hdistinct _ (mem_of_getElem? hdoc) root hroot,
    mem_cons_of_mem _ (mem_map_of_mem hplaced), hname⟩

/-- Records with the number of one document stand in it. -/
theorem exists_common_root {r' : Record} (hr : r ∈ recordsIn ds) (hr' : r' ∈ recordsIn ds)
    (h : r.index = r'.index) : r.doc = r'.doc ∧ ∃ root : Element, root.Distinct ∧
      (r.element ∈ root.selfAndDescendants ∧ r.element.isNamed "record") ∧
      r'.element ∈ root.selfAndDescendants ∧ r'.element.isNamed "record" := by
  have hdoc : r.doc = r'.doc := Option.some.inj
    ((mem_recordsIn hr).1.symm.trans (h ▸ (mem_recordsIn hr').1))
  obtain ⟨root, hroot, hunique, hmem⟩ := exists_root hdistinct hr
  obtain ⟨root', hroot', -, hmem'⟩ := exists_root hdistinct hr'
  obtain rfl : root = root' := Option.some.inj (hroot.symm.trans (hdoc ▸ hroot'))
  exact ⟨hdoc, root, hunique, hmem, hmem'⟩

/-- The fields of one record are different elements. -/
theorem pairwise_allFields (hr : r ∈ recordsIn ds) :
    r.allFields.Pairwise fun x y => x.field.place ≠ y.field.place := by
  obtain ⟨root, -, hroot, hmem, -⟩ := exists_root hdistinct hr
  have hnodup : (r.element.descendants.map (·.place)).Nodup := by
    refine Nodup.sublist ?_ hroot.placed
    rw [Element.descendants, map_map]
    exact (Element.sublist_placedDescendants hmem).map _
  exact pairwise_map.mp (map_map .. ▸ hnodup.sublist ((sublist_allFields r).map _))

/-- Fields of different records are different elements, or one of the records stands in a field of
    the other. -/
theorem apart_of_records {r' : Record} (hr : r ∈ recordsIn ds) (hr' : r' ∈ recordsIn ds)
    (hne : r.index = r'.index → r.element.place ≠ r'.element.place) {x y : PlacedField}
    (hx : x ∈ r.countedFields)
    (hy : y ∈ r'.countedFields) (hindex : x.index = y.index) : Apart (recordsIn ds) x y := by
  obtain ⟨⟨-, hxindex, -⟩, hfield, hreaches⟩ := mem_allFields ((sublist_countedFields r).subset hx)
  obtain ⟨⟨-, hyindex, -⟩, hfield', hreaches'⟩ :=
    mem_allFields ((sublist_countedFields r').subset hy)
  have hsame : r.index = r'.index := hxindex.symm.trans (hindex.trans hyindex)
  obtain ⟨-, root, hunique, ⟨hmem, hname⟩, hmem', hname'⟩ :=
    exists_common_root hdistinct hr hr' hsame
  by_cases hplace : x.field.place = y.field.place
  · obtain ⟨hparent, hsameField⟩ :=
      hunique.parent_unique (hreaches.mem hmem) hfield (hreaches'.mem hmem') hfield' hplace
    exact .inr ⟨hsameField, r, hr, r', hr', hx, hy, holds_of_reaches hunique hmem hmem' hname hname'
      (fun heq => hne hsame (congrArg (·.place) heq)) hreaches hreaches' hparent⟩
  · exact .inl hplace

/-- **Mentions of fields in one document are apart.** -/
theorem pairwise_countedFields : ((recordsIn ds).flatMap Record.countedFields).Pairwise fun x y =>
    x.index = y.index → Apart (recordsIn ds) x y := by
  rw [pairwise_flatMap]
  constructor
  · intro r hr
    exact ((pairwise_allFields hdistinct hr).sublist (sublist_countedFields r)).imp
      fun hne _ => .inl hne
  · exact (pairwise_recordsIn hdistinct).imp_of_mem fun hr hr' hne x hx y hy =>
      apart_of_records hdistinct hr hr' hne hx hy

end Documents

/-! ## §3. Messages. -/

/-- What is said of fields with the same key. -/
def toldFields (key : FieldKey) : List PlacedField → String
  | first :: others =>
    place first.doc.file.path first.field.line ++ " " ++ ("Duplicate xml field \"" ++ key.name ++
      "\" in lines " ++ ", ".intercalate (others.map fun f => toString f.field.line))
  | [] => ""

/-- The attributes by which fields are told apart. -/
def keyAttributes : List String := ["name", "context", "filter_domain", "groups"]

/-- Fields with the same key stand in the same element and agree in the attributes. -/
theorem same_of_key_eq {ds : List Document} (hdistinct : ∀ d ∈ ds, ∀ root, d.dataRoot? = some root →
    root.Distinct) {x y : PlacedField} (hx : x ∈ (recordsIn ds).flatMap Record.countedFields)
    (hy : y ∈ (recordsIn ds).flatMap Record.countedFields) (h : x.key = y.key) :
    x.doc = y.doc ∧ x.parent = y.parent ∧ ∀ a ∈ keyAttributes, x.field.get? a = y.field.get? a := by
  obtain ⟨r, hr, hx⟩ := mem_flatMap.mp hx
  obtain ⟨r', hr', hy⟩ := mem_flatMap.mp hy
  obtain ⟨⟨hxdoc, hxindex, hxname⟩, -, hreaches⟩ :=
    mem_allFields ((sublist_countedFields r).subset hx)
  obtain ⟨⟨hydoc, hyindex, hyname⟩, -, hreaches'⟩ :=
    mem_allFields ((sublist_countedFields r').subset hy)
  injection h with hname hcontext hdomain hgroups hindex hparent
  obtain ⟨hdoc, root, hunique, ⟨hmem, -⟩, hmem', -⟩ :=
    exists_common_root hdistinct hr hr' (hxindex.symm.trans (hindex.trans hyindex))
  refine ⟨hxdoc.trans (hdoc.trans hydoc.symm), ?_, ?_⟩
  · exact inj_on_of_nodup_map hunique (hreaches.mem hmem) (hreaches'.mem hmem') hparent
  · simp only [keyAttributes, forall_mem_cons]
    exact ⟨hxname.trans (hname ▸ hyname.symm), hcontext, hdomain, hgroups, fun _ h => nomatch h⟩

/-- **Each message on repeated fields stands for all mentions of a key**, of which there are two or
    more: fields of one element that agree in their attributes.  They are different elements, unless
    they are met from two records of which one stands in a field of the other; where no record does,
    each is an element of its own. -/
theorem repeatedFields_told {w : World} {addon : String} {files : List DataFile} {fs : Findings}
    (h : checkDataFiles w addon files = .ok fs) :
    ∃ ds, files.mapM (readDocument w) = .ok ds ∧
      let fields := (recordsIn ds).flatMap Record.countedFields
      Groups.get "xml_duplicate_fields" fs = tellings (fun x => some x.key) toldFields fields ∧
      ∀ k ∈ repeated (fields.map PlacedField.key), let same := having (fun x => some x.key) fields k
        2 ≤ same.length ∧
        (∀ x ∈ same, ∀ y ∈ same, x.doc = y.doc ∧ x.parent = y.parent ∧
          ∀ a ∈ keyAttributes, x.field.get? a = y.field.get? a) ∧
        same.Pairwise (Apart (recordsIn ds)) ∧
        ((∀ r ∈ recordsIn ds, ∀ r' ∈ recordsIn ds, ¬ r.Holds r') →
          (same.map (·.field.place)).Nodup) := by
  obtain ⟨ds, single, hds, hsingle, rfl⟩ := checkDataFiles_parts h
  -- elements are told apart by their places
  have hdistinct : ∀ d ∈ ds, ∀ root, d.dataRoot? = some root → root.Distinct := by
    intro d hd root hroot
    obtain ⟨f, -, hread⟩ := Traversal.mem_of_mapM_ok hds hd
    exact distinct_of_readDocument hread hroot
  refine ⟨ds, hds, ?_, fun k hk => ?_⟩
  · rw [Findings.get_ofList, List.filter_append, List.filter_append,
      (named_single hsingle).filter_of_not_mem (by decide),
      (named_repeatedRecords _).filter_of_not_mem (by decide), (named_repeatedFields _).filter_self,
        List.nil_append,
      List.nil_append]
    exact messages_of toldFields (fun _ => rfl) (fun _ _ => rfl) (fun _ _ _ _ => ⟨_, rfl⟩) _
  intro same
  have hkey : ∀ x ∈ same, x ∈ (recordsIn ds).flatMap Record.countedFields ∧ x.key = k := by
    intro x hx
    obtain ⟨hmem, hkey⟩ := List.mem_filter.mp hx
    exact ⟨hmem, Option.some.inj (eq_of_beq hkey)⟩
  have hapart : same.Pairwise (Apart (recordsIn ds)) :=
    ((pairwise_countedFields hdistinct).sublist List.filter_sublist).imp_of_mem fun {x y} hx hy h =>
      h (congrArg (·.index) ((hkey x hx).2.trans (hkey y hy).2.symm))
  refine ⟨?_, ?_, hapart, ?_⟩
  · rw [← List.filterMap_eq_map'] at hk
    have hcount := of_decide_eq_true (List.mem_filter.mp hk).2
    rwa [count_eq_length_having] at hcount
  · intro x hx y hy
    exact same_of_key_eq hdistinct (hkey x hx).1 (hkey y hy).1
      ((hkey x hx).2.trans (hkey y hy).2.symm)
  · -- only a record inside another one lets a field be met twice
    intro hnone
    refine List.pairwise_map.mpr (hapart.imp ?_)
    rintro x y (hne | ⟨-, r, hr, r', hr', -, -, hholds⟩)
    · exact hne
    · exact (hholds.elim (hnone r hr r' hr') (hnone r' hr' r hr)).elim

/-- A field that is given twice. -/
def givenTwice : World :=
  withRecords "<odoo><record id='a'><field name='x'/><field name='x'/></record></odoo>"

theorem repeatedFields_told_twice : ∃ fs, checkDataFiles givenTwice "m" [listedIn "data"] = .ok fs ∧
    (Groups.get "xml_duplicate_fields" fs).length = 1 ∧
    ∃ ds, [listedIn "data"].mapM (readDocument givenTwice) = .ok ds ∧
      Groups.get "xml_duplicate_fields" fs
        = tellings (fun x => some x.key) toldFields
            ((recordsIn ds).flatMap Record.countedFields) := by
  obtain ⟨fs, hfs, htold⟩ : ∃ fs, checkDataFiles givenTwice "m" [listedIn "data"] = .ok fs ∧
      (Groups.get "xml_duplicate_fields" fs).length = 1 :=
      Traversal.ok_of_toOption_map (by decide +kernel)
  obtain ⟨ds, hds, hget, -⟩ := repeatedFields_told hfs
  exact ⟨fs, hfs, htold, ds, hds, hget⟩

/-- A record with one field, which stands in a field of another record. -/
def heldRecord : World := withRecords
  "<odoo><record id='a'><field name='x'><record id='b'><field name='y'/></record></field></record></odoo>"

/-- The field of a record in a field of another is met twice: it is said to be repeated, and is one
    element. -/
theorem told_of_one_field : (∃ fs, checkDataFiles heldRecord "m" [listedIn "data"] = .ok fs ∧
      Groups.get "xml_duplicate_fields" fs = ["/records:1 Duplicate xml field \"y\" in lines 1"]) ∧
    ∃ ds, [listedIn "data"].mapM (readDocument heldRecord) = .ok ds ∧
      ((recordsIn ds).flatMap Record.countedFields).map (fun x => (x.name, x.field.place))
        = [("x", 2), ("y", 4), ("y", 4)] :=
  ⟨Traversal.ok_of_toOption_map (by decide +kernel),
  Traversal.ok_of_toOption_map (by decide +kernel)⟩

end AddonAudit.Xml
