/-
  AddonAudit.Proofs.Checks.Duplicates — what is said of keys that occur more than once.

  Four checks group what they meet by a key and tell of every group of two or more: tables by
  section and id, data files by section, id and how they are updated, catalogs by message, classes
  by label.  Groups keep the order in which their keys are met, so that nothing is lost, joined or
  told twice.  The first two write their keys as one text; it gives the parts back, since no section
  has a slash and the last mark in it is the one that was set.
-/
import AddonAudit.Proofs.Catalog.Completion
import AddonAudit.Proofs.Checks.Narrowing
import AddonAudit.Proofs.Coverage.Missing

namespace AddonAudit

open List Traversal

open Traversal (bind_ok_iff mem_of_mapM_ok)

/-! ## §1. Keys that occur more than once. -/

section Keys

variable {α κ μ : Type} [BEq κ] [LawfulBEq κ] [BEq μ] [LawfulBEq μ]

theorem Groups.map_fst_append (k : κ) (vs : List α) (g : Groups κ α) :
    (append k vs g).map Prod.fst = if k ∈ g.map Prod.fst then g.map Prod.fst else g.map Prod.fst ++
    [k] := by
  induction g with
  | nil => rfl
  | cons q g ih =>
    obtain ⟨k', vs'⟩ := q
    rw [append]
    by_cases hk : k' = k
    · subst hk
      simp
    · rw [if_neg (by simpa using hk), map_cons, map_cons, ih]
      simp only [mem_cons, Ne.symm hk, false_or]
      split <;> rfl

/-- Keys are grouped in the order in which they are first met. -/
theorem Groups.map_fst_of (key : α → Option κ) (xs : List α) :
    (of key xs).map Prod.fst = (xs.filterMap key).eraseDups := by
  induction xs using reverseRecOn with
  | nil => rfl
  | append_singleton xs x ih =>
    have hstep : of key (xs ++ [x]) = addKeyed key (of key xs) x := foldl_append ..
    rw [hstep, filterMap_append]
    cases hx : key x with
    | none => simp [addKeyed, hx, ih]
    | some k =>
      have hadd : addKeyed key (of key xs) x = append k [x] (of key xs) := by rw [addKeyed, hx]; rfl
      rw [hadd, map_fst_append, ih]
      simp only [filterMap_cons, hx, filterMap_nil, mem_eraseDups, eraseDups_concat]

/-- What has a key, in order. -/
def having (key : α → Option κ) (xs : List α) (k : κ) : List α := xs.filter fun x => key x == some k

/-- **The groups of a list**, in the order in which their keys are first met. -/
theorem Groups.of_eq (key : α → Option κ) (xs : List α) :
    of key xs = (xs.filterMap key).eraseDups.map fun k => (k, having key xs k) := by
  rw [← map_fst_of, map_map]
  refine (map_id _).symm.trans (map_congr_left ?_)
  rintro ⟨k, vs⟩ hmem
  exact congrArg (Prod.mk k) (mem_of.mp hmem).1.symm

omit [LawfulBEq κ] in
theorem count_eq_length_having (key : α → Option κ) (xs : List α) (k : κ) :
    (xs.filterMap key).count k = (having key xs k).length := by
  rw [having, count_filterMap, countP_eq_length_filter]

/-- The keys that occur twice or more, in the order in which they are first met. -/
def repeated (keys : List κ) : List κ := keys.eraseDups.filter fun k => decide (2 ≤ keys.count k)

/-- Messages that tell of repeated keys: one for each, from all that has the key. -/
def tellings (key : α → Option κ) (told : κ → List α → String) (xs : List α) : List String :=
  (repeated (xs.filterMap key)).map fun k => told k (having key xs k)

/-- **One message for each key that occurs twice or more.** -/
theorem messages_of {key : α → Option κ} (told : κ → List α → String)
    {pick : κ × List α → Option Finding} (hnil : ∀ k, pick (k, []) = none)
    (hone : ∀ k x, pick (k, [x]) = none)
    (htwo : ∀ k x y vs, ∃ check, pick (k, x :: y :: vs) = some ⟨check, told k (x :: y :: vs)⟩)
    (xs : List α) :
    ((Groups.of key xs).filterMap pick).map (·.message) = tellings key told xs := by
  unfold tellings repeated
  rw [Groups.of_eq]
  induction (xs.filterMap key).eraseDups with
  | nil => rfl
  | cons k ks ih =>
    rw [map_cons, filterMap_cons, filter_cons, count_eq_length_having]
    rcases hhaving : having key xs k with _ | ⟨x, _ | ⟨y, vs⟩⟩
    · simpa [hnil] using ih
    · simpa [hone] using ih
    · obtain ⟨check, hpick⟩ := htwo k x y vs
      rw [hpick, if_pos (by simp), map_cons, map_cons, ih, hhaving]

variable {key : α → Option κ} {f : κ → μ} {xs : List α}

/-- Keys written as texts that tell them apart can be taken for them. -/
theorem tellings_map {told : μ → List α → String}
    (hinj : ∀ k ∈ xs.filterMap key, ∀ k' ∈ xs.filterMap key, f k = f k' → k = k') :
    tellings (fun x => (key x).map f) told xs = tellings key (fun k => told (f k)) xs := by
  have hkeys : xs.filterMap (fun x => (key x).map f) = (xs.filterMap key).map f :=
    map_filterMap.symm
  have hhaving : ∀ k ∈ xs.filterMap key, having (fun x => (key x).map f) xs (f k) =
      having key xs k := by
    intro k hk
    refine filter_congr fun x hx => ?_
    rw [Bool.eq_iff_iff, beq_iff_eq, beq_iff_eq, Option.map_eq_some_iff]
    constructor
    · rintro ⟨k', hk', heq⟩
      rw [hk', hinj k' (mem_filterMap.mpr ⟨x, hx, hk'⟩) k hk heq]
    · exact fun hk' => ⟨k, hk', rfl⟩
  have hrepeated : repeated ((xs.filterMap key).map f) = (repeated (xs.filterMap key)).map f := by
    unfold repeated
    rw [eraseDups_map hinj, filter_map]
    refine congrArg _ (filter_congr fun k hk => ?_)
    rw [Function.comp, ← hkeys, count_eq_length_having, hhaving k (mem_eraseDups.mp hk),
      count_eq_length_having]
  unfold tellings
  rw [hkeys, hrepeated, map_map]
  refine map_congr_left fun k hk => ?_
  rw [Function.comp, hhaving k (mem_eraseDups.mp (mem_of_mem_filter hk))]

end Keys

/-! ## §2. Keys written as texts. -/

/-- A text before the first of a character, and the text after it, are given back. -/
theorem append_cons_inj {c : Char} {a b a' b' : List Char} (ha : c ∉ a) (ha' : c ∉ a')
    (h : a ++ c :: b = a' ++ c :: b') : a = a' ∧ b = b' := by
  rcases append_eq_append_iff.mp h with ⟨x, hx, hrest⟩ | ⟨x, hx, hrest⟩
  · cases x with
    | nil => exact ⟨by simpa using hx.symm, (cons.inj hrest).2⟩
    | cons d x => exact absurd (by rw [hx, (cons.inj hrest).1]; simp) ha'
  · cases x with
    | nil => exact ⟨by simpa using hx, (cons.inj hrest).2.symm⟩
    | cons d x => exact absurd (by rw [hx, (cons.inj hrest).1]; simp) ha

/-- The mark before the word on updates. -/
def mark : List Char := '_' :: ("noupdate".toList ++ ['_'])

/-- A text before the last mark, and the text after it, are given back. -/
theorem append_mark_inj {a b v v' : List Char} (hv : ¬ mark <:+: '_' :: v)
    (hv' : ¬ mark <:+: '_' :: v') (h : a ++ mark ++ v = b ++ mark ++ v') : a = b ∧ v = v' := by
  have hfar : ∀ {c u u' : List Char}, ¬ mark <:+: '_' :: u → mark ++ u = c ++ mark ++ u' →
      c = [] := by
    intro c u u' hu heq
    cases c with
    | nil => rfl
    | cons d c =>
      refine absurd ?_ hu
      have hrest : "noupdate".toList ++ '_' :: u = c ++ (mark ++ u') := by
        simpa [mark] using (cons.inj heq).2
      rcases append_eq_append_iff.mp hrest with ⟨x, -, hx⟩ | ⟨x, hx, hrest⟩
      · exact ⟨x, u', by rw [hx, append_assoc]⟩
      · -- the word itself has no underscore, at which the other mark could start
        cases x with
        | nil => exact ⟨[], u', by simpa using hrest⟩
        | cons d x =>
          have hd : '_' = d := (cons.inj hrest).1
          exact absurd (by rw [hx, hd]; simp : '_' ∈ "noupdate".toList) (by decide)
  rw [append_assoc, append_assoc] at h
  rcases append_eq_append_iff.mp h with ⟨c, hc, hrest⟩ | ⟨c, hc, hrest⟩
  · rw [← append_assoc] at hrest
    obtain rfl := hfar hv hrest
    exact ⟨by simpa using hc.symm, by simpa using hrest⟩
  · rw [← append_assoc] at hrest
    obtain rfl := hfar hv' hrest
    exact ⟨by simpa using hc, by simpa using hrest.symm⟩

/-! ## §3. Tables. -/

namespace Csv

/-- What tells records apart: section and id. -/
def Record.identity (r : Record) : String × String := (r.file.sectionName, r.id)

/-- How an identity is written. -/
def written (k : String × String) : String := k.1 ++ "/" ++ k.2

/-- What is said of records with the same key. -/
def told (key : String) : List Record → String
  | first :: others => first.place ++ " Duplicate CSV record id \"" ++ key ++ "\" in " ++
      ", ".intercalate (others.map Record.place)
  | [] => ""

theorem written_inj {k k' : String × String} (hk : '/' ∉ k.1.toList) (hk' : '/' ∉ k'.1.toList)
    (h : written k = written k') : k = k' := by
  have hlist := congrArg String.toList h
  simp only [written, String.toList_append, append_assoc] at hlist
  obtain ⟨h₁, h₂⟩ := append_cons_inj hk hk' hlist
  exact Prod.ext (String.toList_inj.mp h₁) (String.toList_inj.mp h₂)

theorem file_of_mem_records {w : World} {f : DataFile} {t : Table} (h : readTable w f = .ok t)
    {r : Record} (hr : r ∈ t.records) : r.file = f := by
  have hrows : ∀ rows, r ∈ recordsOf f rows → r.file = f := by
    intro rows hr
    unfold recordsOf at hr
    split at hr
    · cases hr
    · split at hr
      · cases hr
      · obtain ⟨row, -, hrow⟩ := mem_filterMap.mp hr
        split at hrow
        · split at hrow
          · cases hrow
          · cases hrow
            rfl
        · cases hrow
  unfold readTable at h
  split at h
  · cases h
    cases hr
  · cases h
  · cases h
    exact hrows _ hr
  · dsimp only at h
    split at h
    · cases h
      cases hr
    · cases h

theorem checkTables_ok_iff (w : World) (files : List DataFile) :
    (∃ fs, checkTables w files = .ok fs) ↔ ∀ f ∈ files, ∃ t, readTable w f = .ok t := by
  constructor
  · rintro ⟨fs, h⟩ f hf
    obtain ⟨tables, htables, -⟩ := bind_ok_iff.mp h
    obtain ⟨t, -, ht⟩ := ok_of_mem_of_mapM_ok htables hf
    exact ⟨t, ht⟩
  · exact fun h => exists_bind_ok (mapM_ok_of_forall files h) fun _ => ⟨_, rfl⟩

/-- The messages tell of every identity that several records of tables have. -/
def Told (w : World) (files : List DataFile) (messages : List String) : Prop :=
  ∃ tables, files.mapM (readTable w) = .ok tables ∧
    messages = tellings (fun r => some r.identity) (fun k =>
    told (written k)) (tables.flatMap (·.records))

theorem told_checkTables {w : World} {files : List DataFile} {fs : Findings}
    (h : checkTables w files = .ok fs) (hsections : ∀ f ∈ files, '/' ∉ f.sectionName.toList) :
    Told w files (Groups.get "csv_duplicate_record_id" fs) := by
  obtain ⟨tables, htables, h⟩ := bind_ok_iff.mp h
  cases h
  refine ⟨tables, htables, ?_⟩
  have hslash : ∀ k ∈ (tables.flatMap (·.records)).filterMap fun r => some r.identity,
      '/' ∉ k.1.toList := by
    intro k hk
    obtain ⟨r, hr, hkey⟩ := mem_filterMap.mp hk
    cases hkey
    obtain ⟨t, ht, hr⟩ := mem_flatMap.mp hr
    obtain ⟨f, hf, ht⟩ := mem_of_mapM_ok htables ht
    rw [Record.identity, file_of_mem_records ht hr]
    exact hsections f hf
  rw [Findings.get_ofList, filter_append, (named_findings htables).filter_of_not_mem (by decide),
    (named_duplicates _).filter_self, nil_append]
  refine (messages_of told (fun _ => rfl) (fun _ _ => rfl) (fun _ _ _ _ => ⟨_, rfl⟩) _).trans ?_
  exact tellings_map (f := written) fun k hk k' hk' => written_inj (hslash k hk) (hslash k' hk')

end Csv

/-! ## §4. Data files. -/

namespace Xml

/-- What tells records apart: section, id and the word on updates around them. -/
def Record.identity (r : Record) : String × String × String :=
  (r.doc.file.sectionName, r.id, r.parent.get "noupdate" "0")

/-- How an identity is written. -/
def written (k : String × String × String) : String := k.1 ++ "/" ++ k.2.1 ++ "_noupdate_" ++ k.2.2

/-- What is said of records with the same key. -/
def told (key : String) : List Record → String
  | first :: others => first.place ++ " " ++ ("Duplicate xml record id \"" ++ key ++ "\" in " ++
      ", ".intercalate (others.map Record.place))
  | [] => ""

/-- Words on updates that the mark before them does not run into. -/
def IsPlain (v : String) : Prop := ¬ mark <:+: '_' :: v.toList

instance : DecidablePred IsPlain := fun v =>
  inferInstanceAs (Decidable (¬ mark <:+: '_' :: v.toList))

theorem written_inj {k k' : String × String × String} (hk : '/' ∉ k.1.toList ∧ IsPlain k.2.2)
    (hk' : '/' ∉ k'.1.toList ∧ IsPlain k'.2.2) (h : written k = written k') : k = k' := by
  have hlist := congrArg String.toList h
  simp only [written, String.toList_append] at hlist
  obtain ⟨hfront, h₃⟩ := append_mark_inj hk.2 hk'.2 hlist
  rw [append_assoc, append_assoc] at hfront
  obtain ⟨h₁, h₂⟩ := append_cons_inj hk.1 hk'.1 hfront
  exact Prod.ext (String.toList_inj.mp h₁) (Prod.ext (String.toList_inj.mp h₂)
    (String.toList_inj.mp h₃))

theorem messages_repeatedRecords {rs : List Record} (h : ∀ r ∈ rs, '/' ∉ r.identity.1.toList ∧
    IsPlain r.identity.2.2) : (repeatedRecords rs).map (·.message) =
    tellings (fun r => some r.identity) (fun k => told (written k)) rs := by
  have hplain : ∀ k ∈ rs.filterMap fun r => some r.identity, '/' ∉ k.1.toList ∧ IsPlain k.2.2 := by
    intro k hk
    obtain ⟨r, hr, hkey⟩ := mem_filterMap.mp hk
    cases hkey
    exact h r hr
  refine (messages_of told (fun _ => rfl) (fun _ _ => rfl) (fun _ _ _ _ => ⟨_, rfl⟩) rs).trans ?_
  exact tellings_map (f := written) fun k hk k' hk' => written_inj (hplain k hk) (hplain k' hk')

theorem checkRecord_ok_iff (addon : String) (r : Record) :
    (∃ found, checkRecord addon r = .ok found) ↔ (Text.splitAt '.' r.id).length ≤ 2 := by
  have hredundant : (∃ found, redundantName addon r = .ok found) ↔
      (Text.splitAt '.' r.id).length ≤ 2 := by
    unfold redundantName
    dsimp only
    split
    · rename_i heq
      simp [heq]
    · rename_i front name rest hne heq
      refine iff_of_false (fun ⟨_, h⟩ => by cases h) fun hlen => hne ?_
      rw [heq, length_cons, length_cons] at hlen
      exact length_eq_zero_iff.mp (by omega)
    · rename_i hmany
      refine iff_of_true ⟨_, rfl⟩ ?_
      rcases hsplit : Text.splitAt '.' r.id with _ | ⟨a, _ | ⟨b, rest⟩⟩
      · simp
      · simp
      · exact absurd hsplit (hmany _ _ _)
  rw [← hredundant]
  unfold checkRecord
  cases redundantName addon r <;> simp [bind, Except.bind, pure, Except.pure]

variable {w : World} {addon : String} {files : List DataFile} in
theorem checkDataFiles_of_parts {ds : List Document} {single : List (List Finding)}
    (hds : files.mapM (readDocument w) = .ok ds)
    (hsingle : (recordsIn ds).mapM (checkRecord addon) = .ok single) :
    ∃ fs, checkDataFiles w addon files = .ok fs :=
  ⟨_, bind_ok_iff.mpr ⟨ds, hds, bind_ok_iff.mpr ⟨_,
  bind_ok_iff.mpr ⟨_, bind_ok_iff.mpr ⟨single, hsingle, rfl⟩, rfl⟩, rfl⟩⟩⟩

theorem checkDataFiles_ok_iff (w : World) (addon : String) (files : List DataFile) :
    (∃ fs, checkDataFiles w addon files = .ok fs) ↔ ∃ ds, files.mapM (readDocument w) = .ok ds ∧
      ∀ r ∈ recordsIn ds, (Text.splitAt '.' r.id).length ≤ 2 := by
  constructor
  · rintro ⟨fs, h⟩
    obtain ⟨ds, hds, h⟩ := bind_ok_iff.mp h
    obtain ⟨_, hfound, -⟩ := bind_ok_iff.mp h
    obtain ⟨_, hrecords, -⟩ := bind_ok_iff.mp hfound
    obtain ⟨single, hsingle, -⟩ := bind_ok_iff.mp hrecords
    refine ⟨ds, hds, fun r hr => ?_⟩
    obtain ⟨part, -, hpart⟩ := ok_of_mem_of_mapM_ok hsingle hr
    exact (checkRecord_ok_iff addon r).mp ⟨part, hpart⟩
  · rintro ⟨ds, hds, hids⟩
    obtain ⟨single, hsingle⟩ := mapM_ok_of_forall (recordsIn ds) fun r hr =>
      (checkRecord_ok_iff addon r).mpr (hids r hr)
    exact checkDataFiles_of_parts hds hsingle

theorem file_of_readDocument {w : World} {f : DataFile} {d : Document}
    (h : readDocument w f = .ok d) : d.file = f := by
  unfold readDocument at h
  split at h
  · split at h <;> cases h <;> rfl
  · cases h
    rfl
  · cases h

/-- A record stands in its document, which is the one of its number. -/
theorem mem_recordsIn {ds : List Document} {r : Record} (h : r ∈ recordsIn ds) :
    ds[r.index]? = some r.doc ∧ ∃ root, r.doc.dataRoot? = some root ∧
      ⟨r.element, some r.parent⟩ ∈ root.placedDescendants ∧ r.element.isNamed "record" := by
  obtain ⟨⟨d, i⟩, hd, hr⟩ := mem_flatMap.mp h
  dsimp only [recordsOf] at hr
  split at hr
  · rename_i root hroot
    obtain ⟨q, hq, hr⟩ := mem_filterMap.mp hr
    split at hr
    · rename_i id parent hid hparent
      split at hr
      · rename_i hnamed
        cases hr
        refine ⟨mem_zipIdx_iff_getElem?.mp hd, root, hroot, ?_, hnamed⟩
        rw [← hparent]
        exact hq
      · cases hr
    · cases hr
  · cases hr

/-- The messages tell of every identity that several records have. -/
def Told (w : World) (files : List DataFile) (messages : List String) : Prop :=
  ∃ ds, files.mapM (readDocument w) = .ok ds ∧
    messages = tellings (fun r => some r.identity) (fun k => told (written k)) (recordsIn ds)

theorem told_checkDataFiles {w : World} {addon : String} {files : List DataFile} {fs : Findings}
    (h : checkDataFiles w addon files = .ok fs)
    (hsections : ∀ f ∈ files, '/' ∉ f.sectionName.toList)
    (hupdates : ∀ ds, files.mapM (readDocument w) = .ok ds →
    ∀ r ∈ recordsIn ds, IsPlain r.identity.2.2) :
    Told w files (Groups.get "xml_duplicate_record_id" fs) := by
  obtain ⟨ds, single, hds, hsingle, rfl⟩ := checkDataFiles_parts h
  refine ⟨ds, hds, ?_⟩
  rw [Findings.get_ofList, filter_append, filter_append,
    (named_single hsingle).filter_of_not_mem (by decide), (named_repeatedRecords _).filter_self,
    (named_repeatedFields _).filter_of_not_mem (by decide), nil_append,
    append_nil]
  refine messages_repeatedRecords fun r hr => ⟨?_, hupdates ds hds r hr⟩
  obtain ⟨f, hf, hd⟩ := mem_of_mapM_ok hds (mem_of_getElem? (mem_recordsIn hr).1)
  rw [Record.identity, file_of_readDocument hd]
  exact hsections f hf

end Xml

/-! ## §5. Catalogs. -/

namespace Catalog

/-- What is said of entries with the same message. -/
def told (path : String) : List Entry → String
  | first :: others =>
    place path first.messageLine ++ " Duplicate PO message \"" ++ shortMessage first.id ++
      "\" in lines " ++ ", ".intercalate (others.map fun e => toString e.messageLine)
  | [] => ""

theorem messages_duplicates (path : String) (es : List Entry) :
    (duplicates path es).map (·.message) = tellings (fun e => some e.id) (fun _ => told path) es :=
  messages_of (fun _ => told path) (fun _ => rfl) (fun _ _ => rfl) (fun _ _ _ _ => ⟨_, rfl⟩) es

/-- The entries in use of a file. -/
def entriesIn (w : World) (f : DataFile) : List Entry :=
  match open? w f.path with
  | .ok (.ok es) => es.filter (!·.obsolete)
  | _ => []

/-- Catalogs tell of every message that several entries in use have, file by file. -/
theorem get_checkCatalogs {w : World} {files : List DataFile} {fs : Findings}
    (h : checkCatalogs w files = .ok fs) : Groups.get "po_duplicate_message_definition" fs
      = files.flatMap fun f => tellings (fun e => some e.id) (fun _ => told f.path)
      (entriesIn w f) := by
  obtain ⟨unreadable, parts, hunreadable, hparts, rfl⟩ := checkCatalogs_parts h
  rw [Findings.get_ofList, filter_append, hunreadable.filter_of_not_mem (by decide), nil_append]
  clear h
  induction hparts with
  | nil => rfl
  | @cons f part files parts hpart _ ih =>
    obtain ⟨r, hr, hnone, hsome⟩ := hpart
    rw [flatten_cons, filter_append, map_append, ih, flatMap_cons]
    congr 1
    unfold entriesIn
    rw [hr]
    cases r with
    | error g =>
      cases hnone g rfl
      rfl
    | ok es =>
      obtain ⟨entries, hentries, hfound⟩ := bind_ok_iff.mp (hsome es rfl)
      cases hfound
      have hnamed := Named.flatten_of_mapM (fun _ _ h => named_entryFindings h) hentries
      rw [filter_append, hnamed.filter_of_not_mem (by decide),
        (named_duplicates f.path _).filter_self, nil_append]
      exact messages_duplicates ..

end Catalog

/-! ## §6. Labels. -/

namespace Model

/-- What is said of fields with the same label. -/
def told (d : Declaration) (label : String) : List FieldInfo → String
  | first :: others => d.file ++ ":" ++ toString first.line ++ " " ++ ("Fields (" ++
      fieldNames (first :: others) ++ ") have the same label: \"" ++ label ++ "\"")
  | [] => ""

theorem messages_duplicateLabels (d : Declaration) :
    (duplicateLabels d).map (·.message) = tellings (fun f => filled? f.label) (told d) d.fields :=
  messages_of (told d) (fun _ => rfl) (fun _ _ => rfl) (fun _ _ _ _ => ⟨_, rfl⟩) d.fields

/-- The messages tell of every label that several fields of a class have, class by class. -/
def Told (w : World) (files : List String) (messages : List String) : Prop :=
  ∃ readings, readSources w files = .ok readings ∧ messages
    = (declarations readings).flatMap fun d => tellings (fun f => filled? f.label) (told d) d.fields

theorem told_checkSources {w : World} {p : Policy} {files : List String} {fs : Findings}
    (h : checkSources w p files = .ok fs) :
    Told w files (Groups.get "python_duplicate_field_label" fs) := by
  obtain ⟨readings, hread, h⟩ := bind_ok_iff.mp h
  obtain ⟨all, hall, h⟩ := bind_ok_iff.mp h
  obtain ⟨poor, hpoor, hparts⟩ := bind_ok_iff.mp hall
  cases h
  cases hparts
  refine ⟨readings, hread, ?_⟩
  rw [Findings.get_ofList]
  simp only [filter_append]
  rw [(named_malformed _).filter_of_not_mem (by decide),
    (Named.flatten_of_mapM (fun _ _ => named_poorDocstrings) hpoor).filter_of_not_mem (by decide),
    (Named.flatMap named_duplicateLabels _).filter_self,
    (Named.flatMap (named_missingHelp p) _).filter_of_not_mem (by decide),
    (Named.flatMap (named_missingLabels p) _).filter_of_not_mem (by decide),
    (Named.flatMap named_inconsistentSudo _).filter_of_not_mem (by decide),
    (Named.flatMap (named_missingDocstrings p) _).filter_of_not_mem (by decide),
    (Named.flatMap named_selectionOnRelated _).filter_of_not_mem (by decide)]
  simp only [nil_append, append_nil, map_flatMap, messages_duplicateLabels]

end Model

/-! ## §7. All four checks. -/

/-- **Every key that occurs twice or more is told of once**, in the order in which keys are first
    met, with what has it first and then all else that has it, in order; no other key is told of.
    Each of the four checks comes to its end under the conditions stated.  For tables and data
    files, whose keys are put together from parts, no section may have a slash, and for data files
    the words on updates have to be plain. -/
theorem duplicates_told (w : World) (addon : String) (p : Model.Policy) (files : List DataFile)
    (sources : List String) :
    (((∃ fs, Csv.checkTables w files = .ok fs) ↔ ∀ f ∈ files, ∃ t, Csv.readTable w f = .ok t) ∧
      ((∀ f ∈ files, '/' ∉ f.sectionName.toList) → ∀ fs, Csv.checkTables w files = .ok fs →
        Csv.Told w files (Groups.get "csv_duplicate_record_id" fs))) ∧
    (((∃ fs, Xml.checkDataFiles w addon files = .ok fs) ↔
        ∃ ds, files.mapM (Xml.readDocument w) = .ok ds ∧
          ∀ r ∈ Xml.recordsIn ds, (Text.splitAt '.' r.id).length ≤ 2) ∧
      ((∀ f ∈ files, '/' ∉ f.sectionName.toList) →
        (∀ ds, files.mapM (Xml.readDocument w) = .ok ds →
          ∀ r ∈ Xml.recordsIn ds, Xml.IsPlain (r.parent.get "noupdate" "0")) →
        ∀ fs, Xml.checkDataFiles w addon files = .ok fs →
          Xml.Told w files (Groups.get "xml_duplicate_record_id" fs))) ∧
    (((∃ fs, Catalog.checkCatalogs w files = .ok fs) ↔
        ∀ f ∈ files, ∃ r, Catalog.open? w f.path = .ok r ∧ ∀ es, r = .ok es → Catalog.Sound es) ∧
      ∀ fs, Catalog.checkCatalogs w files = .ok fs →
        Groups.get "po_duplicate_message_definition" fs = files.flatMap fun f =>
          tellings (fun e => some e.id) (fun _ => Catalog.told f.path) (Catalog.entriesIn w f)) ∧
    (((∃ readings, Model.readSources w sources = .ok readings) →
        (∀ n, (natLess? n p.minDocstring).isSome = true) →
        ∃ fs, Model.checkSources w p sources = .ok fs) ∧
      ∀ fs, Model.checkSources w p sources = .ok fs →
        Model.Told w sources (Groups.get "python_duplicate_field_label" fs)) := by
  refine ⟨⟨Csv.checkTables_ok_iff w files, ?_⟩, ⟨Xml.checkDataFiles_ok_iff w addon files, ?_⟩,
    ⟨Catalog.checkCatalogs_ok_iff w files, fun fs h => Catalog.get_checkCatalogs h⟩,
    ⟨?_, fun fs h => Model.told_checkSources h⟩⟩
  · intro hsections fs h
    exact Csv.told_checkTables h hsections
  · intro hsections hupdates fs h
    exact Xml.told_checkDataFiles h hsections hupdates
  · rintro ⟨readings, hread⟩ hmin
    exact Coverage.checkSources_ok hread hmin

/-- A file of records, listed in a section. -/
def listedIn (sectionName : String) : DataFile := ⟨"/records", "records", sectionName⟩

/-- A world with nothing but that file. -/
def withRecords (text : String) : World where
  root := .folder [("records", .file text.toUTF8)]

/-- Two records of one id, which the same word on updates stands around. -/
def twice : World := withRecords "<odoo noupdate='1'><record id='a'/><record id='a'/></odoo>"

theorem duplicates_told_twice : ∃ fs, Xml.checkDataFiles twice "m" [listedIn "data"] = .ok fs ∧
    Xml.Told twice [listedIn "data"] (Groups.get "xml_duplicate_record_id" fs) ∧
    (Groups.get "xml_duplicate_record_id" fs).length = 1 := by
  obtain ⟨ds, hds, hplain⟩ : ∃ ds, [listedIn "data"].mapM (Xml.readDocument twice) = .ok ds ∧
      (Xml.recordsIn ds).all (fun r => decide (Xml.IsPlain (r.parent.get "noupdate" "0"))) = true :=
    Traversal.ok_of_toOption_map (by decide +kernel)
  obtain ⟨fs, hfs, htold⟩ : ∃ fs, Xml.checkDataFiles twice "m" [listedIn "data"] = .ok fs ∧
      (Groups.get "xml_duplicate_record_id" fs).length = 1 :=
      Traversal.ok_of_toOption_map (by decide +kernel)
  obtain ⟨-, ⟨-, hrecords⟩, -⟩ := duplicates_told twice "m" .standard [listedIn "data"] []
  refine ⟨fs, hfs, hrecords (by decide) (fun ds' hds' r hr => ?_) fs hfs, htold⟩
  cases hds.symm.trans hds'
  exact of_decide_eq_true (List.all_eq_true.mp hplain r hr)

/-- Two records with words on updates of which one starts like the mark. -/
def likeMark : World := withRecords
  ("<odoo><data noupdate='noupdate_1'><record id='a'/></data>" ++
    "<data noupdate='1'><record id='a_noupdate'/></data></odoo>")

/-- Two ids, of which one ends like the other. -/
def slashed : World := withRecords "id\nc\nb/c\n"

/-- A word on updates that starts like the mark is taken for the end of an id, and an id for the end
    of a section with a slash: of what differs it is said that it is the same. -/
theorem told_of_different :
    (∃ ds, [listedIn "data"].mapM (Xml.readDocument likeMark) = .ok ds ∧
      (Xml.recordsIn ds).map (·.identity)
        = [("data", "a", "noupdate_1"), ("data", "a_noupdate", "1")]) ∧
    (∃ fs, Xml.checkDataFiles likeMark "m" [listedIn "data"] = .ok fs ∧
      (Groups.get "xml_duplicate_record_id" fs).length = 1) ∧
    (∃ tables, [listedIn "a", listedIn "a/b"].mapM (Csv.readTable slashed) = .ok tables ∧
      (tables.flatMap (·.records)).map (·.identity)
        = [("a", "c"), ("a", "b/c"), ("a/b", "c"), ("a/b", "b/c")]) ∧
    ∃ fs, Csv.checkTables slashed [listedIn "a", listedIn "a/b"] = .ok fs ∧
      (Groups.get "csv_duplicate_record_id" fs).length = 1 := by
  refine ⟨?_, ?_, ?_, ?_⟩ <;> exact Traversal.ok_of_toOption_map (by decide +kernel)

end AddonAudit
