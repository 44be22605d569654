/-
  AddonAudit.Proofs.Addon.Release — the release that an addon is for, where a version is set.

  A version is set by the settings or, if they leave it open, by the environment.  A configuration
  with such a version answers it for every folder.  An addon asks the configuration last: the
  version that its manifest names comes first, so that the version which is set is that of the addon
  only if the manifest names no other.  A manifest whose version is no text stops the addon from
  being loaded, although the version is set.
-/
import AddonAudit.Proofs.Addon.Containment
import AddonAudit.Proofs.Settings.Release

namespace AddonAudit

open Except Datum

open Traversal (bind_ok_iff map_ok_iff)

/-! ## §1. Versions that are set. -/

namespace Settings

variable {w : World} {es : List (Datum × Datum)} {r : String}

/-- What entries of settings, or else the environment, set as the version. -/
inductive Sets (w : World) (es : List (Datum × Datum)) : String → Prop
  | settings {text r : String} (entry : Datum.lookupText "odoo_version" es = some (.text text))
      (given : text ≠ "") (closed : text ≠ "auto") (canonical : Release.normalize text = .ok r) :
      Sets w es r
  | environment {text r : String}
      (left : ∀ d, Datum.lookupText "odoo_version" es = some d → d.truthy = false ∨
      d = .text "auto")
      (entry : w.setting? "SOLT_ODOO_VERSION" = some text) (given : text ≠ "")
      (canonical : Release.normalize text = .ok r) : Sets w es r

theorem releaseOf_text {text : String} (hgiven : text ≠ "") (hclosed : text ≠ "auto")
    (hr : Release.normalize text = .ok r) : releaseOf (.text text) = .ok (some r) := by
  have htruthy : (Datum.text text).truthy := by simp [Datum.truthy, hgiven]
  have hopen : (Datum.text text).same (.text "auto") = false := by
    rw [Bool.eq_false_iff, ne_eq, Datum.same_text_iff, Datum.text.injEq]
    exact hclosed
  unfold releaseOf
  rw [htruthy, hopen, Release.normalizeDatum, hr]
  rfl

theorem releaseOf_open {d : Datum} (h : d.truthy = false ∨ d = .text "auto") :
    releaseOf d = .ok none := by
  unfold releaseOf
  rcases h with h | rfl
  · rw [h]
    rfl
  · rw [same_text_iff.mpr rfl, Bool.not_true, Bool.and_false]
    rfl

/-- **The settings come first, then the environment.** -/
theorem releaseSet_of_sets {s : Settings} (hs : Settings.ofDatum (.table es) = .ok s)
    (h : Sets w es r) : s.releaseSet w = .ok (some r) := by
  have hrelease := (of_ofEntries hs).1
  unfold releaseSet
  cases h with
  | settings entry given closed canonical =>
    rw [entry, Option.getD_some, releaseOf_text given closed canonical] at hrelease
    rw [← ok.inj hrelease]
  | environment left entry given canonical =>
    -- the entry leaves the version open, as no entry does
    have hopen : releaseOf ((lookupText "odoo_version" es).getD (.text "auto")) = .ok none := by
      cases hd : lookupText "odoo_version" es with
      | none => exact releaseOf_open (.inr rfl)
      | some d => exact releaseOf_open (left d hd)
    rw [hopen] at hrelease
    rw [← ok.inj hrelease, entry]
    dsimp only
    rw [if_neg (by simpa using given), canonical]
    rfl

end Settings

/-- A configuration answers the version that is set for every folder, and remembers nothing. -/
theorem Config.release_of_releaseSet {w : World} {c : Config} {r : String}
    (h : c.settings.releaseSet w = .ok (some r)) (folder : String) :
    c.release w folder = .ok (r, c) := by
  unfold Config.release
  rw [h]
  rfl

/-! ## §2. Versions in manifests. -/

namespace Release

variable {manifest : Datum} {v : String}

/-- The two parts of a version that can be used: it is supported by name, or it is a later one. -/
def Usable (major minor : String) : Prop :=
  major ++ "." ++ minor ∈ supported ∨
    ∃ n, Decimal.readWhole major = .ok n ∧ (firstMajor : Int) ≤ n ∧ minor = "0"

/-- The version that a manifest names: the first two parts of its entry. -/
inductive NamedBy : Datum → String → Prop
  | parts {es : List (Datum × Datum)} {text major minor : String} {more : List String}
      (entry : Datum.lookupText "version" es = some (.text text))
      (split : Text.splitAt '.' text = major :: minor :: more) (usable : Usable major minor) :
      NamedBy (.table es) (major ++ "." ++ minor)

/-- A manifest that cannot be asked for a version: it is no table, or its entry is not empty and no
    text. -/
inductive Unaskable : Datum → Prop
  | shape {d : Datum} (shape : ∀ es, d ≠ .table es) : Unaskable d
  | entry {es : List (Datum × Datum)} {d : Datum} (entry : Datum.lookupText "version" es = some d)
      (given : d.truthy = true) (noText : ∀ text, d ≠ .text text) : Unaskable (.table es)

theorem ofManifestText_some_iff {text : String} : ofManifestText text = some v ↔
    ∃ major minor more, Text.splitAt '.' text = major :: minor :: more ∧ Usable major minor ∧
      v = major ++ "." ++ minor := by
  unfold ofManifestText
  rcases hsplit : Text.splitAt '.' text with _ | ⟨major, _ | ⟨minor, more⟩⟩
  · simp
  · simp
  · dsimp only
    have hparts : (∃ a b m, major :: minor :: more = a :: b :: m ∧ Usable a b ∧ v = a ++ "." ++ b) ↔
        Usable major minor ∧ v = major ++ "." ++ minor := by
      constructor
      · rintro ⟨a, b, m, heq, h⟩
        cases heq
        exact h
      · exact fun h => ⟨major, minor, more, rfl, h⟩
    rw [hparts]
    unfold Usable
    by_cases hmem : major ++ "." ++ minor ∈ supported
    · rw [if_pos (List.contains_iff_mem.mpr hmem)]
      simp [hmem, eq_comm]
    · rw [if_neg (fun h => hmem (List.contains_iff_mem.mp h))]
      cases hread : Decimal.readWhole major with
      | error f => simp [hmem]
      | ok n =>
        simp only [hmem, false_or, ok.injEq, exists_eq_left', Bool.and_eq_true, decide_eq_true_eq,
          beq_iff_eq, Option.ite_none_right_eq_some, Option.some.injEq, eq_comm (a := v)]

theorem ofManifestEntry_empty {d : Datum} (h : d.truthy = false) :
    ofManifestEntry (some d) = .ok none := by
  unfold ofManifestEntry
  dsimp only
  rw [h]
  rfl

/-- An empty text is an empty entry, and names nothing when it is split either. -/
theorem ofManifestEntry_text (text : String) :
    ofManifestEntry (some (.text text)) = .ok (ofManifestText text) := by
  by_cases htext : text = ""
  · subst htext
    rfl
  · rw [ofManifestEntry, if_neg (by simp [truthy, htext])]

theorem ofManifestEntry_noText {d : Datum} (h : d.truthy) (hd : ∀ text, d ≠ .text text) :
    ∃ f, ofManifestEntry (some d) = .error f := by
  unfold ofManifestEntry
  dsimp only
  rw [h]
  cases d with
  | text text => exact absurd rfl (hd text)
  | _ => exact ⟨_, rfl⟩

/-- An entry is empty, a text or a fault. -/
theorem ofManifestEntry_cases (d : Datum) :
    d.truthy = false ∨ (∃ text, d = .text text) ∨ d.truthy ∧ ∀ text, d ≠ .text text := by
  by_cases htruthy : d.truthy
  · by_cases htext : ∃ text, d = .text text
    · exact .inr (.inl htext)
    · exact .inr (.inr ⟨htruthy, fun text heq => htext ⟨text, heq⟩⟩)
  · exact .inl (Bool.eq_false_iff.mpr htruthy)

/-- **What a manifest names.** -/
theorem named_some_iff : Addon.named manifest none = .ok (some v) ↔ NamedBy manifest v := by
  constructor
  · intro h
    cases manifest with
    | table es =>
      change ofManifestEntry (lookupText "version" es) = _ at h
      cases hentry : lookupText "version" es with
      | none =>
        rw [hentry] at h
        cases h
      | some d =>
        rw [hentry] at h
        -- only a text names a version; what is no text is a fault
        rcases ofManifestEntry_cases d with hempty | ⟨text, rfl⟩ | ⟨hgiven, hnoText⟩
        · rw [ofManifestEntry_empty hempty] at h
          cases h
        · rw [ofManifestEntry_text] at h
          obtain ⟨major, minor, more, hsplit, husable, rfl⟩ := ofManifestText_some_iff.mp (ok.inj h)
          exact .parts hentry hsplit husable
        · obtain ⟨f, hf⟩ := ofManifestEntry_noText hgiven hnoText
          rw [hf] at h
          cases h
    | _ => cases h
  · intro h
    cases h with
    | @parts es text major minor more entry split usable =>
      change ofManifestEntry (lookupText "version" es) = _
      rw [entry, ofManifestEntry_text, ofManifestText_some_iff.mpr ⟨major, minor, more, split,
        usable, rfl⟩]

/-- A manifest answers unless it cannot be asked. -/
theorem named_error_iff : (∃ f, Addon.named manifest none = .error f) ↔ Unaskable manifest := by
  constructor
  · rintro ⟨f, h⟩
    cases manifest with
    | table es =>
      change ofManifestEntry (lookupText "version" es) = _ at h
      cases hentry : lookupText "version" es with
      | none =>
        rw [hentry] at h
        cases h
      | some d =>
        rw [hentry] at h
        -- only a value that is given and no text cannot be asked
        rcases ofManifestEntry_cases d with hempty | ⟨text, rfl⟩ | ⟨hgiven, hnoText⟩
        · rw [ofManifestEntry_empty hempty] at h
          cases h
        · rw [ofManifestEntry_text] at h
          cases h
        · exact .entry hentry hgiven hnoText
    | _ => exact .shape fun es heq => by cases heq
  · intro h
    cases h with
    | shape shape =>
      cases manifest with
      | table es => exact absurd rfl (shape es)
      | _ => exact ⟨_, rfl⟩
    | @entry es d entry given noText =>
      change ∃ f, ofManifestEntry (lookupText "version" es) = .error f
      rw [entry]
      exact ofManifestEntry_noText given noText

end Release

/-! ## §3. Addons where a version is set. -/

namespace Addon

variable {w : World} {c c' : Config} {path r : String} {a : Addon}

/-- The manifest of the addon at a path. -/
def manifestAt (w : World) (path : String) :
    Datum := (Manifest.read w (Manifest.locate w path)).manifest

/-- What loading an addon takes apart from its version. -/
structure Loadable (w : World) (c : Config) (path : String) : Prop where
  installable : ∃ b, Manifest.isInstallable (manifestAt w path) = .ok b
  files : ∃ fs, filesOf w c.settings (Path.dirname (Manifest.locate w path))
    (manifestAt w path) = .ok fs
  changes : c.settings.changedOnly = true → ∃ ch, c.known w = .ok ch

/-- Only a manifest without a version leaves room for the one that is set. -/
theorem releaseOf_of_releaseSet (hset : c.settings.releaseSet w = .ok (some r)) (folder : String)
    (manifest : Datum) : releaseOf c w folder manifest none = (named manifest none).map fun own =>
    (own.getD r, c) := by
  rw [releaseOf_eq]
  cases named manifest none with
  | error f => rfl
  | ok own =>
    cases own with
    | some v => rfl
    | none => exact Config.release_of_releaseSet hset folder

theorem release_of_built (hset : c.settings.releaseSet w = .ok (some r))
    (h : built w c path none = .ok a) : Loadable w c path ∧ a.manifest = manifestAt w path ∧
      ∃ own, named a.manifest none = .ok own ∧ a.release = own.getD r := by
  obtain ⟨installable, hinstallable, h⟩ := bind_ok_iff.mp h
  obtain ⟨files, hfiles, h⟩ := bind_ok_iff.mp h
  obtain ⟨release, hrelease, h⟩ := bind_ok_iff.mp h
  rw [releaseOf_of_releaseSet hset] at hrelease
  obtain ⟨found, hfound, rfl⟩ := map_ok_iff.mp hrelease
  obtain ⟨own, hown, rfl⟩ := map_ok_iff.mp hfound
  by_cases hchanged : c.settings.changedOnly
  · rw [if_pos hchanged] at h
    obtain ⟨known, hknown, rfl⟩ := map_ok_iff.mp h
    exact ⟨⟨⟨_, hinstallable⟩, ⟨_, hfiles⟩, fun _ => ⟨known, hknown⟩⟩, rfl, own, hown, rfl⟩
  · rw [if_neg hchanged] at h
    obtain rfl := ok.inj h
    exact ⟨⟨⟨_, hinstallable⟩, ⟨_, hfiles⟩, fun hchanged' => absurd hchanged' hchanged⟩, rfl, own,
      hown, rfl⟩

theorem built_of_loadable (hset : c.settings.releaseSet w = .ok (some r)) (h : Loadable w c path)
    {own : Option String} (hown : named (manifestAt w path) none = .ok own) :
    ∃ a, built w c path none = .ok a := by
  obtain ⟨installable, hinstallable⟩ := h.installable
  obtain ⟨files, hfiles⟩ := h.files
  have hrelease : (releaseOf c w (Path.dirname (Manifest.locate w path))
    (manifestAt w path) none).map Prod.fst
      = .ok (own.getD r) := by
    rw [releaseOf_of_releaseSet hset, hown]
    rfl
  unfold manifestAt at hinstallable hfiles hrelease
  unfold built
  simp only [hinstallable, hfiles, hrelease, bind, Except.bind]
  by_cases hchanged : c.settings.changedOnly
  · obtain ⟨known, hknown⟩ := h.changes hchanged
    rw [if_pos hchanged, hknown]
    exact ⟨_, rfl⟩
  · rw [if_neg hchanged]
    exact ⟨_, rfl⟩

/-- A version that is set does not decide whether an addon can be loaded. -/
theorem load_iff_of_releaseSet (hset : c.settings.releaseSet w = .ok (some r)) :
    (∃ a c', (Addon.load c path none).verdict w = .ok (a, c')) ↔
      Loadable w c path ∧ ¬ Release.Unaskable (manifestAt w path) := by
  obtain ⟨after, hverdict, -⟩ := leads_load w c path none
  rw [hverdict, ← Release.named_error_iff]
  constructor
  · rintro ⟨a, c', h⟩
    obtain ⟨a', hbuilt, -⟩ := map_ok_iff.mp h
    obtain ⟨hload, hmanifest, own, hown, -⟩ := release_of_built hset hbuilt
    rw [hmanifest] at hown
    refine ⟨hload, ?_⟩
    rintro ⟨f, hf⟩
    rw [hown] at hf
    cases hf
  · rintro ⟨hload, hnamed⟩
    cases hown : named (manifestAt w path) none with
    | error f => exact absurd ⟨f, hown⟩ hnamed
    | ok own =>
      obtain ⟨a, hbuilt⟩ := built_of_loadable hset hload hown
      exact ⟨a, after, map_ok_iff.mpr ⟨a, hbuilt, rfl⟩⟩

/-- **The version that the manifest names comes before the one that is set.**  The configuration
    answers the version that is set for every folder.  An addon has it exactly if its manifest names
    no other, and cannot be loaded at all if its manifest cannot be asked. -/
theorem release_of_load_sets {es : List (Datum × Datum)}
    (hs : Settings.ofDatum (.table es) = .ok c.settings) (hset : Settings.Sets w es r)
    (path : String) :
    (∀ folder, c.release w folder = .ok (r, c)) ∧
    ((∃ a c', (Addon.load c path none).verdict w = .ok (a, c')) ↔
      Loadable w c path ∧ ¬ Release.Unaskable (manifestAt w path)) ∧
    ∀ a c', (Addon.load c path none).verdict w = .ok (a, c') →
      (∀ v, a.release = v ↔
        Release.NamedBy a.manifest v ∨ (∀ own, ¬ Release.NamedBy a.manifest own) ∧ v = r) ∧
      ((c.release w a.folder).map Prod.fst = .ok a.release ↔
        ∀ own, Release.NamedBy a.manifest own → own = r) := by
  have hreleaseSet := Settings.releaseSet_of_sets hs hset
  have hrelease := Config.release_of_releaseSet hreleaseSet
  refine ⟨hrelease, load_iff_of_releaseSet hreleaseSet, fun a c' h => ?_⟩
  obtain ⟨after, hverdict, -⟩ := leads_load w c path none
  rw [hverdict] at h
  obtain ⟨a', hbuilt, heq⟩ := map_ok_iff.mp h
  obtain ⟨rfl, -⟩ := Prod.mk.inj heq
  obtain ⟨-, -, own, hown, hver⟩ := release_of_built hreleaseSet hbuilt
  -- the manifest names at most one version, which is the one that was asked for
  have hnamed : ∀ v, Release.NamedBy a'.manifest v ↔ own = some v := by
    intro v
    rw [← Release.named_some_iff, hown, Except.ok.injEq]
  rw [hrelease, hver]
  simp only [hnamed]
  cases own with
  | some v => simp [Except.map, eq_comm]
  | none => simp [Except.map, eq_comm]

/-- An addon whose manifest names a version, one whose manifest names none, and a version that the
    environment sets. -/
def namedAndUnnamed : World where
  root := .folder [
    ("m", .folder [
      ("__init__.py", .file ⟨#[]⟩),
      ("__manifest__.py", .file "\x7b'version': '17.0.1.0.0'\x7d".toUTF8)]),
    ("n", .folder [
      ("__init__.py", .file ⟨#[]⟩),
      ("__manifest__.py", .file "\x7b'name': 'N'\x7d".toUTF8)])]
  env := [("SOLT_ODOO_VERSION", "19.0")]

/-- Settings that leave the version open. -/
def leftOpen : List (Datum × Datum) := [(.text "validation_scope", .text "full")]

/-- Settings that set the version. -/
def setTo18 : List (Datum × Datum) := (.text "odoo_version", .text "18.0") :: leftOpen

theorem sets_setTo18 : Settings.Sets namedAndUnnamed setTo18 "18.0" := by
  have hentry : lookupText "odoo_version" setTo18 = some (.text "18.0") := by
    simp [setTo18, lookupText, lookup, same_text_iff]
  have hcanonical : Release.normalize "18.0" = .ok "18.0" := rfl
  exact .settings hentry (by decide) (by decide) hcanonical

theorem sets_leftOpen : Settings.Sets namedAndUnnamed leftOpen "19.0" := by
  have hleft : lookupText "odoo_version" leftOpen = none := by
    simp [leftOpen, lookupText, lookup, same_text_iff]
  have hcanonical : Release.normalize "19.0" = .ok "19.0" := rfl
  refine .environment (fun d hd => ?_) rfl (by decide) hcanonical
  rw [hleft] at hd
  cases hd

theorem loads_setTo18 : ∃ s m n, Settings.ofDatum (.table setTo18) = .ok s ∧
    (Addon.load { settings := s } "m" none).verdict namedAndUnnamed = .ok m ∧
    (Addon.load { settings := s } "n" none).verdict namedAndUnnamed = .ok n ∧
    m.1.release = "17.0" ∧ n.1.release = "18.0" := by
  obtain ⟨⟨s, m, n⟩, h, hreleases⟩ :
      ∃ x, ((Settings.ofDatum (.table setTo18)).bind fun s =>
          ((Addon.load { settings := s } "m" none).verdict namedAndUnnamed).bind fun m =>
            ((Addon.load { settings := s } "n" none).verdict namedAndUnnamed).map fun n =>
              (s, m, n))
          = .ok x ∧ (x.2.1.1.release, x.2.2.1.release) = ("17.0", "18.0") :=
    Traversal.ok_of_toOption_map (by decide +kernel)
  obtain ⟨s', hs, h⟩ := bind_ok_iff.mp h
  obtain ⟨m', hm, h⟩ := bind_ok_iff.mp h
  obtain ⟨n', hn, heq⟩ := map_ok_iff.mp h
  cases heq
  exact ⟨s, m, n, hs, hm, hn, Prod.mk.inj hreleases⟩

theorem loads_leftOpen : ∃ s m, Settings.ofDatum (.table leftOpen) = .ok s ∧
    (Addon.load { settings := s } "m" none).verdict namedAndUnnamed = .ok m ∧
    m.1.release = "17.0" := by
  obtain ⟨⟨s, m⟩, h, hrelease⟩ :
      ∃ x, ((Settings.ofDatum (.table leftOpen)).bind fun s =>
          ((Addon.load { settings := s } "m" none).verdict namedAndUnnamed).map fun m => (s, m))
          = .ok x ∧ x.2.1.release = "17.0" :=
    Traversal.ok_of_toOption_map (by decide +kernel)
  obtain ⟨s', hs, h⟩ := bind_ok_iff.mp h
  obtain ⟨m', hm, heq⟩ := map_ok_iff.mp h
  cases heq
  exact ⟨s, m, hs, hm, hrelease⟩

/-- The addon whose manifest names none has the version that is set, the other its own. -/
theorem release_of_load_sets_setTo18 :
    ∃ s, Settings.ofDatum (.table setTo18) = .ok s ∧ Settings.Sets namedAndUnnamed setTo18 "18.0" ∧
      (∃ a c', (Addon.load { settings := s } "m" none).verdict namedAndUnnamed = .ok (a, c') ∧
        a.release = "17.0" ∧ Release.NamedBy a.manifest "17.0") ∧
      ∃ a c', (Addon.load { settings := s } "n" none).verdict namedAndUnnamed = .ok (a, c') ∧
        a.release = "18.0" ∧ ∀ own, Release.NamedBy a.manifest own → own = "18.0" := by
  obtain ⟨s, m, n, hs, hm, hn, hrelease, hrelease'⟩ := loads_setTo18
  obtain ⟨-, -, hnamed⟩ := release_of_load_sets (c := { settings := s }) hs sets_setTo18 "m"
  obtain ⟨hanswer, -, hunnamed⟩ := release_of_load_sets (c := { settings := s }) hs sets_setTo18 "n"
  refine ⟨s, hs, sets_setTo18, ⟨m.1, m.2, hm, hrelease, ?_⟩, n.1, n.2, hn, hrelease', ?_⟩
  · rcases ((hnamed m.1 m.2 hm).1 "17.0").mp hrelease with hown | ⟨-, heq⟩
    · exact hown
    · exact absurd heq (by decide)
  · refine (hunnamed n.1 n.2 hn).2.mp ?_
    rw [hanswer, hrelease']
    rfl

/-- **A manifest against the settings and the environment**: each of them sets a version, which the
    configuration answers, but the addon has the one of its manifest. -/
theorem load_ignores_version_set :
    (∃ s a c', Settings.ofDatum (.table setTo18) = .ok s ∧
      (Addon.load { settings := s } "m" none).verdict namedAndUnnamed = .ok (a, c') ∧
      Config.release { settings := s } namedAndUnnamed a.folder = .ok ("18.0", { settings := s }) ∧
      a.release = "17.0") ∧
    ∃ s a c', Settings.ofDatum (.table leftOpen) = .ok s ∧
      (Addon.load { settings := s } "m" none).verdict namedAndUnnamed = .ok (a, c') ∧
      Config.release { settings := s } namedAndUnnamed a.folder = .ok ("19.0", { settings := s }) ∧
      a.release = "17.0" := by
  constructor
  · obtain ⟨s, m, -, hs, hm, -, hrelease, -⟩ := loads_setTo18
    have hset := Settings.releaseSet_of_sets hs sets_setTo18
    exact ⟨s, m.1, m.2, hs, hm, Config.release_of_releaseSet hset _, hrelease⟩
  · obtain ⟨s, m, hs, hm, hrelease⟩ := loads_leftOpen
    have hset := Settings.releaseSet_of_sets hs sets_leftOpen
    exact ⟨s, m.1, m.2, hs, hm, Config.release_of_releaseSet hset _, hrelease⟩

end Addon

end AddonAudit
