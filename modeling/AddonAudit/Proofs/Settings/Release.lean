/-
  AddonAudit.Proofs.Settings.Release — the release version of settings that left it open.

  Settings leave the release version open if every entry for it is the bare word `auto`.  A
  supported version has as many letters as that word, so that after it is written over some of these
  words the document is the same but for them.  But a bare version is the scalar of a real number,
  and a number sets no release version: it is a fault of the settings.
-/
import AddonAudit.Proofs.Settings.Entries
import AddonAudit.Proofs.Workspace.Files
import AddonAudit.Proofs.Yaml.Nodes

namespace AddonAudit

open List

open Traversal (bind_ok_iff exists_of_mem_left exists_of_mem_right)

/-! ## §1. Versions in place of words. -/

namespace Yaml

variable {ws : Words} {a b : List Char}

theorem Reworded.eq_of_not_mem_left {c : Char} (hc : c ∈ ws.old) (h : Reworded ws a b)
    (ha : c ∉ a) : b = a := by
  induction h with
  | nil => rfl
  | cons d _ ih => rw [ih fun hmem => ha (mem_cons_of_mem d hmem)]
  | word _ _ => exact absurd (mem_append_left _ hc) ha

theorem Reworded.eq_of_not_mem_right {c : Char} (hc : c ∈ ws.new) (h : Reworded ws a b)
    (hb : c ∉ b) : a = b := by
  induction h with
  | nil => rfl
  | cons d _ ih => rw [ih fun hmem => hb (mem_cons_of_mem d hmem)]
  | word _ _ => exact absurd (mem_append_left _ hc) hb

theorem Reworded.eq_of_length_lt (h : Reworded ws a b) (ha : a.length < ws.old.length) : b = a := by
  induction h with
  | nil => rfl
  | cons d _ ih => rw [ih (by simp only [length_cons] at ha; omega)]
  | word _ _ =>
    rw [length_append] at ha
    omega

/-- **A word stays or becomes the new one.** -/
theorem Reworded.word_or (h : Reworded ws a b) (ha : a = ws.old) : b = ws.old ∨ b = ws.new := by
  cases h with
  | nil => exact .inl ha
  | cons c hr =>
    left
    rw [hr.eq_of_length_lt (by simp [← ha]), ha]
  | word hr =>
    right
    rw [append_right_eq_self.mp ha] at hr
    rw [hr.eq_of_length_lt, append_nil]
    obtain ⟨c, cs, hold, -⟩ := ws.old_head
    simp [hold]

/-- A supported version in place of the word that leaves the version open. -/
def overAuto (v : String) (hv : v ∈ Release.supported) : Words where
  old := "auto".toList
  new := v.toList
  length := by revert v; decide
  old_letters := List.all_eq_true.mp (by decide)
  new_letters := List.all_eq_true.mp (by revert v; decide)
  old_head := ⟨'a', ['u', 't', 'o'], by decide, by decide⟩
  new_head := by
    simp only [Release.supported, List.mem_cons, List.not_mem_nil, or_false] at hv
    rcases hv with rfl | rfl | rfl
    · exact ⟨'1', ['7', '.', '0'], by decide, by decide⟩
    · exact ⟨'1', ['8', '.', '0'], by decide, by decide⟩
    · exact ⟨'1', ['9', '.', '0'], by decide, by decide⟩

theorem formOf_supported {v : String} (hv : v ∈ Release.supported) : formOf v = .real := by
  simp only [Release.supported, mem_cons, not_mem_nil, or_false] at hv
  rcases hv with rfl | rfl | rfl <;> decide

/-! ## §2. Documents that leave the version open. -/

/-- Whether a node is the key of the release version, however it is written. -/
def isReleaseKey : Node → Bool
  | .scalar _ text => text == "odoo_version"
  | _ => false

/-- Whether a node is a bare scalar with a text. -/
def isBare (text : String) : Node → Bool
  | .scalar .byForm t => t == text
  | _ => false

/-- Whether a document leaves the release version open: it is a mapping that has an entry for the
    version, and all its entries for it are the bare word `auto`. -/
def leavesOpen : Node → Bool
  | .mapping _ es =>
    es.any (fun e => isBare "odoo_version" e.1) && es.all fun e => !isReleaseKey e.1 ||
      isBare "auto" e.2
  | _ => false

theorem isBare_iff {text : String} {n : Node} : isBare text n ↔ n = .scalar .byForm text := by
  cases n with
  | scalar kind t => cases kind <;> simp [isBare]
  | sequence tag items => simp [isBare]
  | mapping tag es => simp [isBare]

theorem leavesOpen_iff {n : Node} : leavesOpen n ↔ ∃ tag es, n = .mapping tag es ∧
    (∃ v, (.scalar .byForm "odoo_version", v) ∈ es) ∧
      ∀ kind v, (.scalar kind "odoo_version", v) ∈ es → v = .scalar .byForm "auto" := by
  cases n with
  | scalar kind t => simp [leavesOpen]
  | sequence tag items => simp [leavesOpen]
  | mapping tag es =>
    rw [leavesOpen, Bool.and_eq_true, any_eq_true, all_eq_true]
    constructor
    · rintro ⟨⟨⟨k, v⟩, hmem, hkey⟩, hall⟩
      refine ⟨tag, es, rfl, ⟨v, ?_⟩, fun kind v hv => ?_⟩
      · rwa [← isBare_iff.mp hkey]
      · have hv := hall _ hv
        simpa [isReleaseKey, isBare_iff] using hv
    · rintro ⟨tag', es', heq, ⟨v, hv⟩, hall⟩
      cases heq
      refine ⟨⟨_, hv, isBare_iff.mpr rfl⟩, fun e he => ?_⟩
      obtain ⟨k, v'⟩ := e
      cases k with
      | scalar kind t =>
        by_cases ht : t = "odoo_version"
        · subst ht
          simp [isBare_iff.mpr (hall kind v' he)]
        · simp [isReleaseKey, ht]
      | sequence tag items => simp [isReleaseKey]
      | mapping tag es => simp [isReleaseKey]

/-- Each entry of one list stands for one of the other. -/
theorem Entries.pairs {es es' : List (Node × Node)} (h : Entries ws es es') :
    Forall₂ (fun e e' => e.1.Reworded ws e'.1 ∧ e.2.Reworded ws e'.2) es es' := by
  have hkeys := forall₂_map_left_iff.mp (forall₂_map_right_iff.mp h.1)
  have hvalues := forall₂_map_left_iff.mp (forall₂_map_right_iff.mp h.2)
  exact hkeys.mp (fun _ _ hk hv => ⟨hk, hv⟩) hvalues

/-- What is read for the release version where it was left open: a text that leaves it open, or a
    number. -/
def Unset (d : Datum) : Prop := d = .text "auto" ∨ ∃ x, d = .float x

section Version

variable {v : String}

theorem mem_supported (hv : v ∈ Release.supported) : '.' ∈ v.toList := by
  simp only [Release.supported, mem_cons, not_mem_nil, or_false] at hv
  rcases hv with rfl | rfl | rfl <;> decide

/-- The key of the release version is the same before and after a version is written. -/
theorem releaseKey_reworded (hv : v ∈ Release.supported) {kind kind' : Kind} {t t' : String}
    (h : (Node.scalar kind t).Reworded (overAuto v hv) (.scalar kind' t')) :
    kind' = kind ∧ (t = "odoo_version" ↔ t' = "odoo_version") := by
  cases h with
  | scalar _ hr =>
    refine ⟨rfl, fun ht => ?_, fun ht => ?_⟩
    · subst ht
      exact String.toList_inj.mp (hr.eq_of_not_mem_left (show 'a' ∈ "auto".toList by decide)
        (by decide))
    · subst ht
      exact String.toList_inj.mp (hr.eq_of_not_mem_right (mem_supported hv) (by decide))

/-- A bare word that leaves the version open is read as such, or as a number once a version stands
    in its place. -/
theorem valueOf_auto_reworded (hv : v ∈ Release.supported) {n : Node}
    (h : (Node.scalar .byForm "auto").Reworded (overAuto v hv) n) (fuel : Nat) :
    Yields Unset (valueOf fuel n) := by
  intro d hd
  cases h with
  | @scalar _ _ t hr =>
    have hform : formValue t = .ok d := scalarValue_of_valueOf hd
    rcases hr.word_or rfl with ht | ht
    · rw [String.toList_inj.mp ht] at hform
      have hauto : formOf "auto" = .text := by decide
      rw [formValue, hauto] at hform
      cases hform
      exact .inl rfl
    · rw [String.toList_inj.mp ht, formValue, formOf_supported hv] at hform
      exact .inr (realOf_float v d (checked_eq_ok hform))

/-- **What a table holds for the release version that was left open.** -/
theorem holds_of_leavesOpen (hv : v ∈ Release.supported) {doc doc' : Node} (hopen : leavesOpen doc)
    (h : doc.Reworded (overAuto v hv) doc') {fuel : Nat} {tbl : List (Datum × Datum)}
    (hd : valueOf fuel doc' = .ok (.table tbl)) : Holds "odoo_version" Unset tbl := by
  obtain ⟨tag, es, rfl, ⟨value, hown⟩, hall⟩ := leavesOpen_iff.mp hopen
  cases h with
  | @mapping _ _ es' hkeys hvalues =>
    have hpairs := Entries.pairs ⟨hkeys, hvalues⟩
    refine holds_of_valueOf (by decide) (by decide) hd ?_ ?_
    · intro kind value' hmem
      obtain ⟨⟨k, value⟩, hmem, hk, hvalue⟩ := exists_of_mem_right hpairs hmem
      cases k with
      | scalar kind' t =>
        obtain ⟨rfl, ht⟩ := releaseKey_reworded hv hk
        rw [ht.mpr rfl] at hmem
        rw [show value = _ from hall _ _ hmem] at hvalue
        exact valueOf_auto_reworded hv hvalue
      | sequence tag items => cases hk
      | mapping tag es => cases hk
    · obtain ⟨⟨k', value'⟩, hmem, hk, -⟩ := exists_of_mem_left hpairs hown
      cases k' with
      | scalar kind t =>
        obtain ⟨rfl, ht⟩ := releaseKey_reworded hv hk
        exact ⟨value', by rwa [ht.mp rfl] at hmem⟩
      | sequence tag items => cases hk
      | mapping tag es => cases hk

end Version

end Yaml

/-! ## §3. The version that is set. -/

theorem releaseOf_unset {d : Datum} (hd : Yaml.Unset d) {r : Option String}
    (h : releaseOf d = .ok r) : r = none := by
  unfold releaseOf at h
  rcases hd with rfl | ⟨x, rfl⟩
  · rw [if_neg (by simp [Datum.same])] at h
    cases h
    rfl
  · split at h
    · -- a number is no version
      cases h
    · cases h
      rfl

/-- What the settings of a table take from its entries. -/
theorem of_ofEntries {es : List (Datum × Datum)} {s : Settings}
    (h : Settings.ofEntries es = .ok s) :
    releaseOf ((Datum.lookupText "odoo_version" es).getD (.text "auto")) = .ok s.release ∧
      severitiesOf ((Datum.lookupText "severity" es).getD (.table [])) = .ok s.severities := by
  have htaken := Settings.taken_of_ofEntries h
  exact ⟨htaken.release, htaken.severities⟩

theorem release_of_empty {s : Settings} (h : Settings.ofDatum (.table []) = .ok s) :
    s.release = none :=
  releaseOf_unset (.inl rfl) (of_ofEntries h).1

/-- **A document that left the release version open sets none**, also after a version is written
    over the words that left it open. -/
theorem release_of_reworded {v : String} (hv : v ∈ Release.supported) {doc doc' : Yaml.Node}
    (hopen : Yaml.leavesOpen doc) (h : doc.Reworded (Yaml.overAuto v hv) doc') {fuel : Nat}
    {d : Datum} (hd : Yaml.valueOf fuel doc' = .ok d) {s : Settings}
    (hs : Settings.ofDatum d = .ok s) :
    s.release = none := by
  cases d with
  | table tbl =>
    obtain ⟨value, hvalue, hunset⟩ := Yaml.holds_of_leavesOpen hv hopen h hd
    have hrelease := (of_ofEntries hs).1
    rw [hvalue] at hrelease
    exact releaseOf_unset hunset hrelease
  | _ => cases hs

/-! ## §4. Settings files. -/

/-- The document of a file is that of its text. -/
theorem load_of_readDocument {w : World} {p : String} {d : Datum}
    (h : readDocument w p = .ok (some d)) : ∃ text, w.readText p = .ok text ∧
    Yaml.load text = .ok d := by
  unfold readDocument at h
  split at h
  · split at h
    · cases h
    · cases h
  · cases h
  · rename_i cs hpieces
    refine ⟨_, World.readText_of_readPieces hpieces, ?_⟩
    split at h
    · rename_i d' hload
      cases h
      exact hload
    · cases h
    · cases h

/-- **Settings that left the release version open set none**, also after a version is written into
    their file. -/
theorem release_of_load {v : String} (hv : v ∈ Release.supported) {text text' : String}
    {doc : Yaml.Node} (hdoc : Yaml.read text.toList = .ok (some doc)) (hopen : Yaml.leavesOpen doc)
    (hrewritten : Yaml.Rewritten (Yaml.overAuto v hv) .loose text.toList text'.toList) {w : World}
    {p : String} (hp : p ≠ "") (hread : w.readText (Path.tidy p) = .ok text') {s : Settings}
    (hs : Settings.load w (some p) = .ok s) : s.release = none := by
  unfold Settings.load settingsDocument at hs
  rw [settingsPaths, if_neg (by simpa using hp)] at hs
  obtain ⟨d, hd, hs⟩ := bind_ok_iff.mp hs
  obtain ⟨first, hfirst, hd⟩ := bind_ok_iff.mp hd
  cases first with
  | none =>
    cases hd
    exact release_of_empty hs
  | some d' =>
    have hdocument : readDocument w (Path.tidy p) = .ok (some d') := by
      unfold firstDocument at hfirst
      obtain ⟨o, ho, hfirst⟩ := bind_ok_iff.mp hfirst
      cases o with
      | none => cases hfirst
      | some d'' =>
        cases hfirst
        exact ho
    obtain ⟨text'', htext, hload⟩ := load_of_readDocument hdocument
    rw [hread] at htext
    cases htext
    cases hd
    split at hs
    · -- the document is that of a rewritten text
      unfold Yaml.load at hload
      obtain ⟨o, ho, hload⟩ := bind_ok_iff.mp hload
      cases Yaml.read_rewritten hrewritten hdoc ho with
      | some hreworded => exact release_of_reworded hv hopen hreworded hload hs
    · exact release_of_empty hs

end AddonAudit
