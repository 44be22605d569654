/-
  AddonAudit.Proofs.Checks.Names — the names under which each check reports.

  Every finding carries the name of a rule.  A check reports under the names of a fixed list,
  whatever it looks at, and checks of different modes share no name.
-/
import AddonAudit.Audit.Check
import AddonAudit.Proofs.Findings
import AddonAudit.Proofs.Traversal

namespace AddonAudit

open List

open Traversal (bind_ok_iff mem_of_mapM_ok)

/-! ## §1. Findings under given names. -/

/-- All findings of a list are under given names. -/
def Named (names : List String) (found : List Finding) : Prop := ∀ f ∈ found, f.check ∈ names

namespace Named

variable {α : Type} {names : List String} {found more : List Finding}

theorem nil : Named names [] := fun _ h => by cases h

theorem singleton (check : String) (hcheck : check ∈ names) {message : String} :
    Named names [⟨check, message⟩] := by
  intro f hf
  rw [mem_singleton.mp hf]
  exact hcheck

theorem append (h : Named names found) (h' : Named names more) : Named names (found ++ more) := by
  intro f hf
  rcases mem_append.mp hf with hf | hf
  · exact h f hf
  · exact h' f hf

theorem ite {c : Prop} [Decidable c] (h : Named names found) (h' : Named names more) :
    Named names (if c then found else more) := by
  split
  · exact h
  · exact h'

theorem map (check : String) (hcheck : check ∈ names) {g : α → Finding}
    (h : ∀ x, (g x).check = check) (xs : List α) : Named names (xs.map g) := by
  intro f hf
  obtain ⟨x, -, rfl⟩ := mem_map.mp hf
  rw [h x]
  exact hcheck

theorem filterMap (check : String) (hcheck : check ∈ names) {g : α → Option Finding}
    (h : ∀ x f, g x = some f → f.check = check) (xs : List α) : Named names (xs.filterMap g) := by
  intro f hf
  obtain ⟨x, -, hx⟩ := mem_filterMap.mp hf
  rw [h x f hx]
  exact hcheck

theorem flatMap {g : α → List Finding} (h : ∀ x, Named names (g x)) (xs : List α) :
    Named names (xs.flatMap g) := by
  intro f hf
  obtain ⟨x, -, hx⟩ := mem_flatMap.mp hf
  exact h x f hx

/-- What a traversal finds is under given names if each of its steps finds such only. -/
theorem flatten_of_mapM {g : α → Except Fault (List Finding)} {xs : List α}
    {parts : List (List Finding)} (h : ∀ x part, g x = .ok part → Named names part)
    (hparts : xs.mapM g = .ok parts) : Named names parts.flatten := by
  intro f hf
  obtain ⟨part, hpart, hf⟩ := mem_flatten.mp hf
  obtain ⟨x, -, hx⟩ := mem_of_mapM_ok hparts hpart
  exact h x part hx f hf

theorem mono {names' : List String} (h : Named names found) (hsub : names ⊆ names') :
    Named names' found := fun f hf => hsub (h f hf)

variable {check : String}

/-- Grouped findings have the names that the list of them has. -/
theorem of_has_ofList (h : Named names found) (hcheck : (Findings.ofList found).Has check) :
    check ∈ names := by
  obtain ⟨f, hf, rfl⟩ := (Findings.has_ofList found check).mp hcheck
  exact h f hf

/-- Findings under other names are none of a check. -/
theorem filter_of_not_mem (h : Named names found) (hcheck : check ∉ names) :
    found.filter (·.check == check) = [] := by
  refine filter_eq_nil_iff.mpr fun f hf heq => hcheck ?_
  rw [← eq_of_beq heq]
  exact h f hf

/-- Findings under one name are all of its check. -/
theorem filter_self (h : Named [check] found) : found.filter (·.check == check) = found :=
  filter_eq_self.mpr fun f hf => beq_iff_eq.mpr (mem_singleton.mp (h f hf))

end Named

/-! ## §2. Tables. -/

namespace Csv

/-- The names under which tables are reported. -/
def names : List String := ["csv_syntax_error", "csv_duplicate_record_id"]

theorem check_of_duplicate {p : String × List Record} {f : Finding} (h : duplicate? p = some f) :
    f.check = "csv_duplicate_record_id" := by
  unfold duplicate? at h
  split at h
  · cases h
    rfl
  · cases h

theorem named_finding {w : World} {file : DataFile} {t : Table} (h : readTable w file = .ok t)
    {f : Finding} (hf : t.finding = some f) : f.check = "csv_syntax_error" := by
  unfold readTable at h
  split at h
  · cases h
    cases hf
    rfl
  · cases h
  · cases h
    dsimp only at hf
    split at hf
    · cases hf
    · obtain ⟨p, -, rfl⟩ := Option.map_eq_some_iff.mp hf
      rfl
  · dsimp only at h
    split at h
    · cases h
      cases hf
    · cases h

theorem named_findings {w : World} {files : List DataFile} {tables : List Table}
    (h : files.mapM (readTable w) = .ok tables) :
    Named ["csv_syntax_error"] (tables.filterMap (·.finding)) := by
  intro f hf
  obtain ⟨t, ht, hf⟩ := mem_filterMap.mp hf
  obtain ⟨file, -, hfile⟩ := mem_of_mapM_ok h ht
  rw [named_finding hfile hf]
  exact mem_cons_self

theorem named_checkTables {w : World} {files : List DataFile} {fs : Findings}
    (h : checkTables w files = .ok fs) {check : String} (hcheck : fs.Has check) :
    check ∈ names := by
  obtain ⟨tables, htables, hfound⟩ := bind_ok_iff.mp h
  cases hfound
  refine Named.of_has_ofList (Named.append ((named_findings htables).mono (by decide)) ?_) hcheck
  exact Named.filterMap "csv_duplicate_record_id" (by decide) (fun _ _ => check_of_duplicate) _

end Csv

/-! ## §3. Catalogs. -/

namespace Catalog

/-- The names under which single entries are reported. -/
def entryNames : List String :=
  ["po_requires_module", "po_python_parse_printf", "po_python_parse_format"]

/-- The names under which message catalogs are reported. -/
def names : List String := "po_syntax_error" :: "po_duplicate_message_definition" :: entryNames

variable {found : List Finding} {path : String}

theorem named_misfitting {e : Entry} (h : misfitting path e = .ok found) :
    Named entryNames found := by
  unfold misfitting at h
  split at h
  · cases h
    exact Named.nil
  · dsimp only at h
    split at h
    · cases h
      exact Named.singleton "po_python_parse_printf" (by decide)
    · obtain ⟨r, -, h⟩ := bind_ok_iff.mp h
      split at h
      · cases h
        exact Named.singleton "po_python_parse_format" (by decide)
      · cases h
        exact Named.nil

theorem named_entryFindings {e : Entry} (h : entryFindings path e = .ok found) :
    Named entryNames found := by
  obtain ⟨more, hmore, h⟩ := bind_ok_iff.mp h
  cases h
  refine Named.append ?_ (named_misfitting hmore)
  exact Named.ite Named.nil (Named.singleton "po_requires_module" (by decide))

theorem named_duplicates (path : String) (es : List Entry) :
    Named ["po_duplicate_message_definition"] (duplicates path es) := by
  refine Named.filterMap "po_duplicate_message_definition" mem_cons_self (fun p f h => ?_) _
  dsimp only at h
  unfold duplicate? at h
  split at h
  · cases h
    rfl
  · cases h

theorem named_catalogFindings {es : List Entry} (h : catalogFindings path es = .ok found) :
    Named names found := by
  obtain ⟨parts, hparts, h⟩ := bind_ok_iff.mp h
  cases h
  refine Named.append ?_ ((named_duplicates path _).mono (by decide))
  exact (Named.flatten_of_mapM (fun _ _ hpart => named_entryFindings hpart) hparts).mono (by decide)

theorem check_of_open {w : World} {f : Finding} (h : open? w path = .ok (.error f)) :
    f.check = "po_syntax_error" := by
  unfold open? at h
  split at h
  · cases h
  · split at h
    · cases h
      rfl
    · cases h

/-- What is found in catalogs: those that cannot be read, and file by file what the others show. -/
theorem checkCatalogs_parts {w : World} {files : List DataFile} {fs : Findings}
    (h : checkCatalogs w files = .ok fs) :
    ∃ unreadable parts, Named ["po_syntax_error"] unreadable ∧
      Forall₂ (fun f part => ∃ r, open? w f.path = .ok r ∧ (∀ g, r = .error g → part = []) ∧
        ∀ es, r = .ok es → catalogFindings f.path es = .ok part) files parts ∧
      fs = Findings.ofList (unreadable ++ parts.flatten) := by
  obtain ⟨opened, hopened, h⟩ := bind_ok_iff.mp h
  obtain ⟨parts, hparts, h⟩ := bind_ok_iff.mp h
  cases h
  refine ⟨_, parts, ?_, ?_, rfl⟩
  · intro f hf
    obtain ⟨⟨path, r⟩, hmem, hf⟩ := mem_filterMap.mp hf
    obtain ⟨file, -, hfile⟩ := mem_of_mapM_ok hopened hmem
    obtain ⟨r', hr, hpair⟩ := bind_ok_iff.mp hfile
    cases hpair
    cases r with
    | ok es => cases hf
    | error g =>
      cases hf
      rw [check_of_open hr]
      exact mem_cons_self
  · -- both passes go over the files in order
    have hsteps := Traversal.forall₂_of_mapM_ok hparts
    have hopens := Traversal.forall₂_of_mapM_ok hopened
    clear * - hsteps hopens
    induction hopens generalizing parts with
    | nil =>
      cases hsteps
      exact .nil
    | @cons f q files opened hq _ ih =>
      cases hsteps with
      | cons hpart hsteps =>
        obtain ⟨r, hr, hpair⟩ := bind_ok_iff.mp hq
        cases hpair
        refine .cons ⟨r, hr, ?_, ?_⟩ (ih _ hsteps)
        · rintro g rfl
          exact (Except.ok.inj hpart).symm
        · rintro es rfl
          exact hpart

theorem named_checkCatalogs {w : World} {files : List DataFile} {fs : Findings}
    (h : checkCatalogs w files = .ok fs) {check : String} (hcheck : fs.Has check) :
    check ∈ names := by
  obtain ⟨unreadable, parts, hunreadable, hparts, rfl⟩ := checkCatalogs_parts h
  refine Named.of_has_ofList (Named.append (hunreadable.mono (by decide)) ?_) hcheck
  intro x hx
  obtain ⟨part, hpart, hx⟩ := mem_flatten.mp hx
  obtain ⟨f, -, r, -, hnone, hsome⟩ := Traversal.exists_of_mem_right hparts hpart
  cases r with
  | ok es => exact named_catalogFindings (hsome es rfl) x hx
  | error g =>
    cases hnone g rfl
    cases hx

end Catalog

/-! ## §4. Data files. -/

namespace Xml

/-- The names under which single nodes and records are reported. -/
def nodeNames : List String :=
  ["xml_deprecated_data_node", "xml_deprecated_openerp_xml_node", "xml_deprecated_qweb_directive",
   "xml_not_valid_char_link", "xml_redundant_module_name", "xml_deprecated_tree_attribute",
   "xml_create_user_wo_reset_password", "xml_dangerous_filter_wo_user"]

/-- Those names and the one of files that cannot be read. -/
def singleNames : List String := "xml_syntax_error" :: nodeNames

/-- The names under which data files are reported. -/
def recordNames : List String := "xml_duplicate_record_id" :: "xml_duplicate_fields" :: singleNames

/-- The records of documents, each with the number of its document. -/
def recordsIn (ds : List Document) : List Record := ds.zipIdx.flatMap fun (d, i) => recordsOf d i

variable {d : Document} {addon : String} {found : List Finding}

theorem check_of_broken {f : Finding} (h : brokenFinding? d = some f) :
    f.check = "xml_syntax_error" := by
  unfold brokenFinding? at h
  split at h
  · cases h
  · cases h
    rfl

theorem named_loneDataNode (d : Document) : Named nodeNames (loneDataNode d) := by
  unfold loneDataNode
  split
  · exact Named.ite (Named.singleton "xml_deprecated_data_node" (by decide)) Named.nil
  · exact Named.nil

theorem named_oldRoot (d : Document) : Named nodeNames (oldRoot d) := by
  unfold oldRoot
  split
  · exact Named.ite (Named.singleton "xml_deprecated_openerp_xml_node" (by decide)) Named.nil
  · exact Named.nil

theorem named_oldDirectiveUses (d : Document) : Named nodeNames (oldDirectiveUses d) := by
  unfold oldDirectiveUses
  split
  · refine Named.filterMap "xml_deprecated_qweb_directive" (by decide) (fun e f h => ?_) _
    split at h
    · cases h
    · cases h
      rfl
  · exact Named.nil

theorem named_badLinks (d : Document) : Named nodeNames (badLinks d) := by
  unfold badLinks
  split
  · refine Named.flatMap (fun p => ?_) _
    refine Named.filterMap "xml_not_valid_char_link" (by decide) (fun e f h => ?_) _
    split at h
    · dsimp only at h
      split at h
      · cases h
        rfl
      · cases h
    · cases h
  · exact Named.nil

theorem named_redundantName {r : Record} (h : redundantName addon r = .ok found) :
    Named nodeNames found := by
  unfold redundantName at h
  dsimp only at h
  split at h
  · cases h
    exact Named.ite (Named.singleton "xml_redundant_module_name" (by decide)) Named.nil
  · cases h
  · cases h
    exact Named.ite (Named.singleton "xml_redundant_module_name" (by decide)) Named.nil

theorem named_oldTrees (r : Record) : Named nodeNames (oldTrees r) := by
  unfold oldTrees
  refine Named.ite Named.nil ?_
  refine Named.filterMap "xml_deprecated_tree_attribute" (by decide) (fun e f h => ?_) _
  split at h
  · cases h
  · split at h
    · cases h
      rfl
    · cases h

theorem named_carelessUser (r : Record) : Named nodeNames (carelessUser r) :=
  Named.ite (Named.singleton "xml_create_user_wo_reset_password" (by decide)) Named.nil

theorem named_dangerousFilter (r : Record) : Named nodeNames (dangerousFilter r) :=
  Named.ite (Named.singleton "xml_dangerous_filter_wo_user" (by decide)) Named.nil

theorem named_checkRecord {r : Record} (h : checkRecord addon r = .ok found) :
    Named nodeNames found := by
  obtain ⟨redundant, hredundant, h⟩ := bind_ok_iff.mp h
  cases h
  refine Named.append (Named.append (Named.append ?_ ?_) ?_) ?_
  · exact named_redundantName hredundant
  · exact named_oldTrees r
  · exact named_carelessUser r
  · exact named_dangerousFilter r

theorem named_repeatedRecords (rs : List Record) :
    Named ["xml_duplicate_record_id"] (repeatedRecords rs) := by
  refine Named.filterMap "xml_duplicate_record_id" mem_cons_self (fun p f h => ?_) _
  dsimp only at h
  split at h
  · cases h
    rfl
  · cases h

theorem named_repeatedFields (fs : List PlacedField) :
    Named ["xml_duplicate_fields"] (repeatedFields fs) := by
  refine Named.filterMap "xml_duplicate_fields" mem_cons_self (fun p f h => ?_) _
  dsimp only at h
  split at h
  · cases h
    rfl
  · cases h

/-- What single nodes of documents show. -/
def nodeFindings (ds : List Document) : List Finding :=
  ds.flatMap loneDataNode ++ ds.flatMap oldRoot ++ ds.flatMap oldDirectiveUses ++
    ds.flatMap badLinks

theorem named_nodeFindings {ds : List Document} {single : List (List Finding)}
    (hsingle : (recordsIn ds).mapM (checkRecord addon) = .ok single) :
    Named nodeNames (nodeFindings ds ++ single.flatten) := by
  refine Named.append (Named.append (Named.append (Named.append ?_ ?_) ?_) ?_) ?_
  · exact Named.flatMap named_loneDataNode ds
  · exact Named.flatMap named_oldRoot ds
  · exact Named.flatMap named_oldDirectiveUses ds
  · exact Named.flatMap named_badLinks ds
  · exact Named.flatten_of_mapM (fun _ _ hpart => named_checkRecord hpart) hsingle

theorem named_broken (ds : List Document) :
    Named ["xml_syntax_error"] (ds.filterMap brokenFinding?) :=
  .filterMap _ mem_cons_self (fun _ _ => check_of_broken) ds

theorem named_single {ds : List Document} {single : List (List Finding)}
    (hsingle : (recordsIn ds).mapM (checkRecord addon) = .ok single) :
    Named singleNames (ds.filterMap brokenFinding? ++ (nodeFindings ds ++ single.flatten)) :=
  .append ((named_broken ds).mono (by decide))
  ((named_nodeFindings hsingle).mono (subset_cons_self ..))

variable {files : List DataFile} {fs : Findings}

/-- What is found in data files: those that cannot be read, what single nodes and records show, and
    what is repeated among the records. -/
theorem checkDataFiles_parts {w : World}
    (h : checkDataFiles w addon files = .ok fs) :
    ∃ ds single, files.mapM (readDocument w) = .ok ds ∧
    (recordsIn ds).mapM (checkRecord addon) = .ok single ∧
      fs = Findings.ofList (ds.filterMap brokenFinding? ++ (nodeFindings ds ++ single.flatten) ++
        repeatedRecords (recordsIn ds) ++ repeatedFields
        ((recordsIn ds).flatMap Record.countedFields)) := by
  obtain ⟨ds, hds, h⟩ := bind_ok_iff.mp h
  obtain ⟨found, hfound, h⟩ := bind_ok_iff.mp h
  obtain ⟨records, hrecords, hparts⟩ := bind_ok_iff.mp hfound
  obtain ⟨single, hsingle, hrecords⟩ := bind_ok_iff.mp hrecords
  cases h
  cases hparts
  cases hrecords
  refine ⟨ds, single, hds, hsingle, congrArg Findings.ofList ?_⟩
  simp only [nodeFindings, recordsIn, append_assoc]

theorem named_checkDataFiles {w : World}
    (h : checkDataFiles w addon files = .ok fs) {check : String} (hcheck : fs.Has check) :
    check ∈ recordNames := by
  obtain ⟨ds, single, -, hsingle, rfl⟩ := checkDataFiles_parts h
  refine Named.of_has_ofList (Named.append (Named.append ((named_single hsingle).mono (by decide))
    ?_) ?_) hcheck
  · exact (named_repeatedRecords _).mono (by decide)
  · exact (named_repeatedFields _).mono (by decide)

/-! ## §5. Views. -/

/-- The names under which views are reported. -/
def viewNames : List String :=
  ["xml_alert_missing_role", "xml_deprecated_active_id_usage", "xml_duplicate_view_priority",
   "xml_hardcoded_id", "xml_deprecated_t_raw"]

theorem named_alertsWithoutRole (d : Document) :
    Named ["xml_alert_missing_role"] (alertsWithoutRole d) := by
  refine Named.filterMap "xml_alert_missing_role" (by decide) (fun p f h => ?_) _
  dsimp only at h
  split at h
  · cases h
    rfl
  · cases h

theorem named_oldVariablesIn (d : Document) :
    Named ["xml_deprecated_active_id_usage"] (oldVariablesIn d) := by
  refine Named.flatMap (fun attr => Named.flatMap (fun p => ?_) _) _
  exact Named.map "xml_deprecated_active_id_usage" (by decide) (fun _ => rfl) _

theorem named_hardcodedIn {attr value : String} {e : Element}
    (h : hardcodedIn d attr e value = .ok found) : Named ["xml_hardcoded_id"] found := by
  unfold hardcodedIn at h
  split at h
  · cases h
    exact Named.nil
  · obtain ⟨numbers, -, h⟩ := bind_ok_iff.mp h
    cases h
    exact Named.map "xml_hardcoded_id" (by decide) (fun _ => rfl) _

theorem named_hardcodedIds (h : hardcodedIds d = .ok found) : Named ["xml_hardcoded_id"] found := by
  obtain ⟨parts, hparts, h⟩ := bind_ok_iff.mp h
  cases h
  intro f hf
  obtain ⟨part, hpart, hf⟩ := mem_flatten.mp hf
  obtain ⟨perAttribute, hmem, hpart⟩ := mem_flatten.mp hpart
  obtain ⟨attr, -, hattr⟩ := mem_of_mapM_ok hparts hmem
  obtain ⟨⟨e, value⟩, -, hvalue⟩ := mem_of_mapM_ok hattr hpart
  exact named_hardcodedIn hvalue f hf

theorem named_rawUses (d : Document) : Named ["xml_deprecated_t_raw"] (rawUses d) :=
  Named.map "xml_deprecated_t_raw" (by decide) (fun _ => rfl) _

theorem named_samePriorities (h : samePriorities d = .ok found) :
    Named ["xml_duplicate_view_priority"] found := by
  obtain ⟨parts, hparts, h⟩ := bind_ok_iff.mp h
  cases h
  refine Named.flatten_of_mapM (fun p part hpart => ?_) hparts
  dsimp only at hpart
  split at hpart
  · obtain ⟨names, -, hpart⟩ := bind_ok_iff.mp hpart
    cases hpart
    exact Named.singleton "xml_duplicate_view_priority" (by decide)
  · cases hpart
    exact Named.nil

/-- What is found in the files of views, check by check. -/
theorem checkViewFiles_parts {w : World} (h : checkViewFiles w files = .ok fs) :
    ∃ ds priorities ids, files.mapM (readDocument w) = .ok ds ∧
      ds.mapM samePriorities = .ok priorities ∧ ds.mapM hardcodedIds = .ok ids ∧
      fs = Findings.ofList (ds.flatMap alertsWithoutRole ++ ds.flatMap oldVariablesIn ++
        priorities.flatten ++ ids.flatten ++ ds.flatMap rawUses) := by
  obtain ⟨ds, hds, h⟩ := bind_ok_iff.mp h
  obtain ⟨found, hfound, h⟩ := bind_ok_iff.mp h
  obtain ⟨priorities, hpriorities, hfound⟩ := bind_ok_iff.mp hfound
  obtain ⟨ids, hids, hparts⟩ := bind_ok_iff.mp hfound
  cases h
  cases hparts
  exact ⟨ds, priorities, ids, hds, hpriorities, hids, rfl⟩

theorem named_checkViewFiles {w : World}
    (h : checkViewFiles w files = .ok fs) {check : String} (hcheck : fs.Has check) :
    check ∈ viewNames := by
  obtain ⟨ds, priorities, ids, -, hpriorities, hids, rfl⟩ := checkViewFiles_parts h
  refine Named.of_has_ofList ?_ hcheck
  refine Named.append (Named.append (Named.append (Named.append ?_ ?_) ?_) ?_) ?_
  · exact (Named.flatMap named_alertsWithoutRole ds).mono (by decide)
  · exact (Named.flatMap named_oldVariablesIn ds).mono (by decide)
  · exact (Named.flatten_of_mapM (fun _ _ => named_samePriorities) hpriorities).mono (by decide)
  · exact (Named.flatten_of_mapM (fun _ _ => named_hardcodedIds) hids).mono (by decide)
  · exact (Named.flatMap named_rawUses ds).mono (by decide)

end Xml

/-! ## §6. Sources. -/

namespace Model

/-- The names under which declarations are reported. -/
def declarationNames : List String :=
  ["python_docstring_too_short", "python_docstring_uninformative", "python_duplicate_field_label",
   "python_field_missing_help", "python_field_missing_string", "python_inconsistent_compute_sudo",
   "python_method_missing_docstring", "python_selection_on_related"]

/-- The names under which source files are reported. -/
def names : List String := "python_syntax_error" :: declarationNames

theorem check_of_sourceFinding {p : String × Reading} {f : Finding}
    (h : sourceFinding? p = some f) : f.check = "python_syntax_error" := by
  unfold sourceFinding? at h
  split at h
  · cases h
    rfl
  · cases h

theorem named_malformed (readings : List (String × Reading)) :
    Named ["python_syntax_error"] (readings.filterMap sourceFinding?) :=
  .filterMap _ mem_cons_self (fun _ _ => check_of_sourceFinding) readings

theorem named_duplicateLabels (d : Declaration) :
    Named ["python_duplicate_field_label"] (duplicateLabels d) := by
  refine Named.filterMap "python_duplicate_field_label" (by decide) (fun p f h => ?_) _
  dsimp only at h
  split at h
  · cases h
    rfl
  · cases h

theorem named_inconsistentSudo (d : Declaration) :
    Named ["python_inconsistent_compute_sudo"] (inconsistentSudo d) := by
  refine Named.filterMap "python_inconsistent_compute_sudo" (by decide) (fun p f h => ?_) _
  dsimp only at h
  split at h
  · split at h
    · cases h
      rfl
    · cases h
  · cases h

theorem named_selectionOnRelated (d : Declaration) :
    Named ["python_selection_on_related"] (selectionOnRelated d) := by
  refine Named.filterMap "python_selection_on_related" (by decide) (fun p f h => ?_) _
  split at h
  · cases h
    rfl
  · cases h

theorem named_missingLabels (p : Policy) (d : Declaration) :
    Named ["python_field_missing_string"] (missingLabels p d) :=
  Named.ite Named.nil (Named.map "python_field_missing_string" (by decide) (fun _ => rfl) _)

theorem named_missingHelp (p : Policy) (d : Declaration) :
    Named ["python_field_missing_help"] (missingHelp p d) :=
  Named.ite Named.nil (Named.map "python_field_missing_help" (by decide) (fun _ => rfl) _)

theorem named_missingDocstrings (p : Policy) (d : Declaration) :
    Named ["python_method_missing_docstring"] (missingDocstrings p d) :=
  Named.ite Named.nil (Named.map "python_method_missing_docstring" (by decide) (fun _ => rfl) _)

/-- The names under which docstrings that say too little are reported. -/
def poorNames : List String := ["python_docstring_too_short", "python_docstring_uninformative"]

variable {p : Policy}

theorem named_docstringFindings {d : Declaration} {m : MethodInfo} {docstring : String}
    {found : List Finding} (h : docstringFindings p d m docstring = .ok found) :
    Named poorNames found := by
  unfold docstringFindings at h
  split at h
  · cases h
  · cases h
    refine Named.append (Named.ite ?_ Named.nil) (Named.ite ?_ Named.nil)
    · exact Named.singleton "python_docstring_too_short" (by decide)
    · exact Named.singleton "python_docstring_uninformative" (by decide)

theorem named_poorDocstrings {d : Declaration} {found : List Finding}
    (h : poorDocstrings p d = .ok found) : Named poorNames found := by
  unfold poorDocstrings at h
  split at h
  · cases h
    exact Named.nil
  · obtain ⟨parts, hparts, h⟩ := bind_ok_iff.mp h
    cases h
    refine Named.flatten_of_mapM (fun m part hpart => ?_) hparts
    split at hpart
    · split at hpart
      · cases hpart
        exact Named.nil
      · exact named_docstringFindings hpart
    · cases hpart
      exact Named.nil

theorem named_checkDeclarations {ds : List Declaration} {found : List Finding}
    (h : checkDeclarations p ds = .ok found) : Named declarationNames found := by
  obtain ⟨poor, hpoor, h⟩ := bind_ok_iff.mp h
  cases h
  refine Named.append (Named.append (Named.append (Named.append (Named.append (Named.append
    ?_ ?_) ?_) ?_) ?_) ?_) ?_
  · exact (Named.flatten_of_mapM (fun _ _ => named_poorDocstrings) hpoor).mono (by decide)
  · exact (Named.flatMap named_duplicateLabels _).mono (by decide)
  · exact (Named.flatMap (named_missingHelp p) _).mono (by decide)
  · exact (Named.flatMap (named_missingLabels p) _).mono (by decide)
  · exact (Named.flatMap named_inconsistentSudo _).mono (by decide)
  · exact (Named.flatMap (named_missingDocstrings p) _).mono (by decide)
  · exact (Named.flatMap named_selectionOnRelated _).mono (by decide)

theorem named_checkSources {w : World} {files : List String} {fs : Findings}
    (h : checkSources w p files = .ok fs) {check : String} (hcheck : fs.Has check) :
    check ∈ names := by
  obtain ⟨readings, -, h⟩ := bind_ok_iff.mp h
  obtain ⟨found, hfound, h⟩ := bind_ok_iff.mp h
  cases h
  exact Named.of_has_ofList (.append ((named_malformed readings).mono (by decide))
    ((named_checkDeclarations hfound).mono (by decide))) hcheck

end Model

/-! ## §7. All checks. -/

namespace Check

/-- The names under which a check reports. -/
def names : Check → List String
  | .tables => Csv.names
  | .manifest => ["manifest_syntax_error"]
  | .readme => ["missing_readme"]
  | .catalogs => Catalog.names
  | .sources => Model.names
  | .records => Xml.recordNames
  | .views => Xml.viewNames

/-- **A check reports under its own names only.** -/
theorem mem_names_of_has {k : Check} {w : World} {s : Settings} {a : Addon} {files : List DataFile}
    {fs : Findings} (h : k.findings w s a files = .ok fs) {check : String}
    (hcheck : fs.Has check) : check ∈ k.names := by
  have hnil : ¬ Findings.Has [] check := fun ⟨_, hmem, _⟩ => by cases hmem
  unfold findings at h
  split at h
  · cases h
    obtain ⟨messages, hmem, -⟩ := hcheck
    unfold manifestFindings at hmem
    split at hmem
    · cases hmem
    · cases mem_singleton.mp hmem
      exact mem_cons_self
  · cases h
    obtain ⟨messages, hmem, -⟩ := hcheck
    unfold readmeFindings at hmem
    split at hmem
    · cases hmem
    · cases mem_singleton.mp hmem
      exact mem_cons_self
  · cases h
    exact absurd hcheck hnil
  · exact Csv.named_checkTables h hcheck
  · exact Catalog.named_checkCatalogs h hcheck
  · exact Model.named_checkSources h hcheck
  · exact Xml.named_checkDataFiles h hcheck
  · exact Xml.named_checkViewFiles h hcheck

/-- **Names tell modes apart.** -/
theorem names_disjoint {k k' : Check} (hmode : k.mode ≠ k'.mode) :
    ∀ check ∈ k.names, check ∉ k'.names := by
  cases k <;> cases k' <;> first | exact absurd rfl hmode | decide

end Check

end AddonAudit
