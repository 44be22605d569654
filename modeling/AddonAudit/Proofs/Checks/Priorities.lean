/-
  AddonAudit.Proofs.Checks.Priorities — views that inherit from the same view with the same
  priority.

  The views of a document that inherit are grouped by what they inherit from and by their priority.
  Each group of two or more is told of once, with the ids of all its views in order; a view without
  an id in such a group ends the check.
-/
import AddonAudit.Proofs.Checks.Duplicates

namespace AddonAudit.Xml

open List Traversal

/-- What makes views compete: the view that they inherit from, and their priority. -/
def Heir.key (v : Heir) : String × String := (v.ref, v.priority)

/-- The views of a document that compete with a view, itself among them. -/
def rivals (d : Document) (v : Heir) : List Heir := having (fun v => some v.key) (heirs d) v.key

/-- What is said of views that compete. -/
def toldOfViews (d : Document) (key : String × String) : List Heir → String
  | first :: others => place d.file.path first.line ++ " Views (" ++
      ", ".intercalate ((first :: others).map fun v => v.id.getD "") ++
      ") inherit from \"" ++ key.1 ++ "\" with same priority " ++ key.2
  | [] => ""

/-- The finding of a group of views that compete. -/
def viewFinding? (d : Document) : (String × String) × List Heir → Option Finding
  | (key, first :: second :: others) =>
    some ⟨"xml_duplicate_view_priority", toldOfViews d key (first :: second :: others)⟩
  | _ => none

variable {d : Document} {vs : List Heir} {names : List String}

theorem heirNames_ok_iff (vs : List Heir) :
    (∃ names, heirNames vs = .ok names) ↔ ∀ v ∈ vs, v.id.isSome := by
  constructor
  · rintro ⟨names, h⟩ v hv
    obtain ⟨i, hi⟩ := getElem?_of_mem hv
    have hmem : (v, i) ∈ vs.zipIdx := mem_zipIdx_iff_getElem?.mpr hi
    obtain ⟨name, -, hname⟩ := ok_of_mem_of_mapM_ok h hmem
    cases hid : v.id with
    | none => simp [hid] at hname
    | some id => rfl
  · refine fun h => mapM_ok_of_forall _ ?_
    rintro ⟨v, i⟩ hp
    obtain ⟨id, hid⟩ := Option.isSome_iff_exists.mp (h v (fst_mem_of_mem_zipIdx hp))
    exact ⟨id, by simp [hid]⟩

theorem names_of_heirNames (h : heirNames vs = .ok names) :
    names = vs.map fun v => v.id.getD "" := by
  have hmap : names.map id = vs.zipIdx.map ((fun v => v.id.getD "") ∘ Prod.fst) := by
    refine map_of_mapM_ok h ?_
    rintro ⟨v, i⟩ - name hname
    cases hid : v.id with
    | none => simp [hid] at hname
    | some id => simpa [hid] using hname.symm
  rwa [map_id, ← map_map, zipIdx_map_fst] at hmap

theorem rivals_of_mem_of {k : String × String} {v : Heir}
    (h : (k, vs) ∈ Groups.of (fun v : Heir => some (v.ref, v.priority)) (heirs d)) (hv : v ∈ vs) :
    v ∈ heirs d ∧ rivals d v = vs := by
  obtain ⟨rfl, -⟩ := Groups.mem_of.mp h
  obtain ⟨hmem, hkey⟩ := mem_filter.mp hv
  refine ⟨hmem, ?_⟩
  rw [rivals, Heir.key, Option.some.inj (eq_of_beq hkey)]
  rfl

theorem samePriorities_ok_iff (d : Document) :
    (∃ found, samePriorities d = .ok found) ↔
      ∀ v ∈ heirs d, 2 ≤ (rivals d v).length → v.id.isSome := by
  constructor
  · rintro ⟨found, h⟩ v hv hlength
    obtain ⟨parts, hparts, -⟩ := bind_ok_iff.mp h
    have hself : v ∈ rivals d v := mem_filter.mpr ⟨hv, beq_self_eq_true _⟩
    have hgroup : (v.key, rivals d v) ∈ Groups.of (fun v : Heir => some (v.ref, v.priority))
        (heirs d) :=
      Groups.mem_of.mpr ⟨rfl, ne_nil_of_mem hself⟩
    obtain ⟨part, -, hpart⟩ := ok_of_mem_of_mapM_ok hparts hgroup
    rcases hrivals : rivals d v with _ | ⟨first, _ | ⟨second, others⟩⟩
    · simp [hrivals] at hlength
    · simp [hrivals] at hlength
    · rw [hrivals] at hpart hself
      obtain ⟨names, hnames, -⟩ := bind_ok_iff.mp hpart
      exact (heirNames_ok_iff _).mp ⟨names, hnames⟩ v hself
  · intro hids
    refine exists_bind_ok (mapM_ok_of_forall _ ?_) fun _ => ⟨_, rfl⟩
    rintro ⟨⟨ref, priority⟩, vs⟩ hmem
    dsimp only
    split
    · refine exists_bind_ok ((heirNames_ok_iff _).mpr fun v hv => ?_) fun _ => ⟨_, rfl⟩
      obtain ⟨hheir, hrivals⟩ := rivals_of_mem_of hmem hv
      exact hids v hheir (by rw [hrivals]; simp)
    · exact ⟨_, rfl⟩

/-- One message for each group of views that compete. -/
theorem messages_samePriorities {found : List Finding} (h : samePriorities d = .ok found) :
    found.map (·.message) = tellings (fun v => some v.key) (toldOfViews d) (heirs d) := by
  obtain ⟨parts, hparts, h⟩ := bind_ok_iff.mp h
  cases h
  have hpick : parts.map id = (Groups.of (fun v : Heir => some v.key) (heirs d)).map fun p =>
      (viewFinding? d p).toList := by
    refine map_of_mapM_ok hparts ?_
    rintro ⟨⟨ref, priority⟩, vs⟩ - part hpart
    rcases vs with _ | ⟨first, _ | ⟨second, others⟩⟩
    · cases hpart
      rfl
    · cases hpart
      rfl
    · obtain ⟨names, hnames, hpart⟩ := bind_ok_iff.mp hpart
      cases hpart
      rw [names_of_heirNames hnames]
      rfl
  rw [map_id] at hpick
  rw [hpick, ← flatMap_def, ← filterMap_eq_flatMap_toList]
  exact messages_of (toldOfViews d) (fun _ => rfl) (fun _ _ => rfl) (fun _ _ _ _ => ⟨_, rfl⟩) _

/-- What is said of the views of documents. -/
def toldOfDocuments (ds : List Document) : List String :=
  ds.flatMap fun d => tellings (fun v => some v.key) (toldOfViews d) (heirs d)

theorem messages_priorities {ds : List Document} {found : List (List Finding)}
    (h : ds.mapM samePriorities = .ok found) :
    found.flatten.map (·.message) = toldOfDocuments ds := by
  rw [map_flatten, toldOfDocuments, flatMap_def]
  exact congrArg flatten (map_of_mapM_ok h fun d _ part hpart => messages_samePriorities hpart)

/-- Nothing else is reported under the name of this check. -/
theorem get_checkViewFiles {w : World} {files : List DataFile} {fs : Findings}
    (h : checkViewFiles w files = .ok fs) : ∃ ds, files.mapM (readDocument w) = .ok ds ∧
      Groups.get "xml_duplicate_view_priority" fs = toldOfDocuments ds := by
  obtain ⟨ds, priorities, ids, hds, hpriorities, hids, rfl⟩ := checkViewFiles_parts h
  refine ⟨ds, hds, ?_⟩
  rw [Findings.get_ofList]
  simp only [filter_append]
  rw [(Named.flatMap named_alertsWithoutRole ds).filter_of_not_mem (by decide),
    (Named.flatMap named_oldVariablesIn ds).filter_of_not_mem (by decide),
    (Named.flatten_of_mapM (fun _ _ => named_samePriorities) hpriorities).filter_self,
    (Named.flatten_of_mapM (fun _ _ => named_hardcodedIds) hids).filter_of_not_mem (by decide),
    (Named.flatMap named_rawUses ds).filter_of_not_mem (by decide)]
  simp only [nil_append, append_nil, messages_priorities hpriorities]

/-- **Views that inherit from the same view with the same priority are told of, one message a
    group**, with the ids of all of them in order, and of nothing else.  The check comes to its end
    exactly if all views of groups of two or more have ids. -/
theorem samePriorities_told (ds : List Document) :
    ((∃ found, ds.mapM samePriorities = .ok found) ↔
      ∀ d ∈ ds, ∀ v ∈ heirs d, 2 ≤ (rivals d v).length → v.id.isSome) ∧
    (∀ found, ds.mapM samePriorities = .ok found →
      Named ["xml_duplicate_view_priority"] found.flatten ∧
      found.flatten.map (·.message) = toldOfDocuments ds) ∧
    ∀ w files fs, files.mapM (readDocument w) = .ok ds → checkViewFiles w files = .ok fs →
      Groups.get "xml_duplicate_view_priority" fs = toldOfDocuments ds := by
  refine ⟨⟨?_, fun h => ?_⟩, fun found h => ⟨?_, messages_priorities h⟩, fun w files fs hds h => ?_⟩
  · rintro ⟨found, h⟩ d hd
    obtain ⟨part, -, hpart⟩ := Traversal.ok_of_mem_of_mapM_ok h hd
    exact (samePriorities_ok_iff d).mp ⟨part, hpart⟩
  · exact Traversal.mapM_ok_of_forall ds fun d hd => (samePriorities_ok_iff d).mpr (h d hd)
  · exact Named.flatten_of_mapM (fun _ _ => named_samePriorities) h
  · obtain ⟨ds', hds', hget⟩ := get_checkViewFiles h
    cases hds.symm.trans hds'
    exact hget

/-- Two views that inherit from a third, one with the default priority and one that names it; both
    have ids. -/
def twoHeirs : World := withRecords
  ("<odoo><record id='a' model='ir.ui.view'><field name='inherit_id' ref='x'/></record>" ++
    "<record id='b' model='ir.ui.view'><field name='inherit_id' ref='x'/><field name='priority' eval='16'/></record></odoo>")

theorem samePriorities_told_twoHeirs :
    ∃ ds, [listedIn "data"].mapM (readDocument twoHeirs) = .ok ds ∧
      ∃ found, ds.mapM samePriorities = .ok found ∧
        found.flatten.map (·.message) = toldOfDocuments ds ∧
        toldOfDocuments ds
          = ["/records:1 Views (a, b) inherit from \"x\" with same priority 16"] := by
  obtain ⟨ds, hds, h⟩ : ∃ ds, [listedIn "data"].mapM (readDocument twoHeirs) = .ok ds ∧
      (ds.all fun d => (heirs d).all (·.id.isSome), toldOfDocuments ds)
        = (true, ["/records:1 Views (a, b) inherit from \"x\" with same priority 16"]) :=
    Traversal.ok_of_toOption_map (by decide +kernel)
  obtain ⟨hids, htold⟩ := Prod.mk.inj h
  obtain ⟨hiff, hmessages, -⟩ := samePriorities_told ds
  obtain ⟨found, hfound⟩ := hiff.mpr fun d hd v hv _ =>
    List.all_eq_true.mp (List.all_eq_true.mp hids d hd) v hv
  exact ⟨ds, hds, found, hfound, (hmessages found hfound).2, htold⟩

/-- Two views that inherit from a third, without ids. -/
def namelessHeirs : World := withRecords
  ("<odoo><record model='ir.ui.view'><field name='inherit_id' ref='x'/></record>" ++
    "<record model='ir.ui.view'><field name='inherit_id' ref='x'/></record></odoo>")

/-- Views without ids end the check. -/
theorem samePriorities_namelessHeirs :
    ∃ ds, [listedIn "data"].mapM (readDocument namelessHeirs) = .ok ds ∧
    (toldOfDocuments ds).length = 1 ∧ ∀ found, ds.mapM samePriorities ≠ .ok found := by
  obtain ⟨ds, hds, h⟩ : ∃ ds, [listedIn "data"].mapM (readDocument namelessHeirs) = .ok ds ∧
      ((toldOfDocuments ds).length, (ds.mapM samePriorities).toOption.isNone) = (1, true) :=
    Traversal.ok_of_toOption_map (by decide +kernel)
  obtain ⟨hlength, hfault⟩ := Prod.mk.inj h
  refine ⟨ds, hds, hlength, fun found hfound => ?_⟩
  rw [hfound] at hfault
  cases hfault

end AddonAudit.Xml
