/-
  AddonAudit.Proofs.Setup.Release — the release version of a repository that was set up.

  A repository that is set up gets a copy of the template of its settings, in which the scope and
  the release version are set.  All other copies have other names, so that they keep both the
  template and the copy.

  The release version is written into the settings as a bare scalar, which is read as a number.  So
  the settings of a repository that was set up for a version do not set that version: if they can be
  read at all, they leave it open.
-/
import AddonAudit.Proofs.Setup.Copying
import AddonAudit.Proofs.Setup.Settings

namespace AddonAudit.Setup

open Session AddonAudit.Path

variable {r : Request}

/-! ## §1. The settings of a repository. -/

section Repository

variable {w w' : World} {path : String} {quiet : Bool} {b : ByteArray}

theorem relative_settingsFile : Relative settingsFile ∧ name settingsFile = settingsFile := by
  decide

/-- The settings are copied once, from and to a name that no other copy has. -/
theorem copies_eq (localHooks : Bool) : ∃ before after,
    copies localHooks = before ++ (settingsFile, settingsFile) :: after ∧ ∀ file ∈ before ++ after,
      (Relative file.1 ∧ name file.1 ≠ settingsFile) ∧ Relative file.2 ∧
      name file.2 ≠ settingsFile := by
  cases localHooks with
  | false =>
    exact ⟨[(".pylintrc", ".pylintrc"), ("pyproject.toml", "pyproject.toml")], _, rfl, by decide⟩
  | true =>
    exact ⟨[(".pylintrc", ".pylintrc"), ("pyproject.toml", "pyproject.toml")], _, rfl, by decide⟩

/-- The settings of a folder are at a place of their name. -/
theorem named_settings (hcwd : isAbsolute w.cwd) (folder : String) :
    Named settingsFile (w.placeOf (child folder settingsFile)) := by
  obtain ⟨hrelative, hname⟩ := relative_settingsFile
  obtain ⟨ns, hns⟩ := hrelative.last
  rw [World.placeOf_eq hcwd, components_join_child _ _ hrelative.1, settle_append hrelative.2.1,
    hns, hname, ← List.append_assoc, Named, List.getLast?_concat]

/-- **What all copies leave in place of the settings**: the copies before that of the template keep
    the template, and those after it keep its copy. -/
theorem settings_of_copies {target : String} {copied : List Bool} (hcwd : isAbsolute w.cwd)
    (htarget : isAbsolute target) (hrun : r.dryRun = false)
    (hb : w.find (child r.templates settingsFile) = .ok (.file b))
    (hcopies : (copies r.localHooks).mapM (r.copy target) w = .ok copied w')
    (hall : copied.all id) :
    w'.find (child target settingsFile) = .ok (.file b) ∨
      ∃ ms, w'.find (child target settingsFile) = .ok (.folder ms) := by
  obtain ⟨before, after, heq, hothers⟩ := copies_eq r.localHooks
  have hkeeps {files : List (String × String)} (hsub : files ⊆ before ++ after) :
      Moves (World.Keeps (Named settingsFile)) (files.mapM (r.copy target)) :=
    .mapM fun file hfile => keeps_copy_of_names htarget (hothers file (hsub hfile)).1
    (hothers file (hsub hfile)).2
  rw [heq, List.mapM_append, List.mapM_cons] at hcopies
  obtain ⟨first, w₁, hfirst, hcopies⟩ := bind_eq_ok_iff.mp hcopies
  obtain ⟨rest, w₄, hrest, hdone⟩ := bind_eq_ok_iff.mp hcopies
  obtain ⟨made, w₂, hmade, hlasts⟩ := bind_eq_ok_iff.mp hrest
  obtain ⟨last, w₃, hlast, hdone'⟩ := bind_eq_ok_iff.mp hlasts
  obtain ⟨rfl, rfl⟩ := EStateM.Result.ok.inj hdone'
  obtain ⟨rfl, rfl⟩ := EStateM.Result.ok.inj hdone
  obtain ⟨-, rfl, -⟩ : first.all id ∧ made = true ∧ last.all id := by simpa using hall
  have hkeeps₁ := (hkeeps (List.subset_append_left _ _)).of_ok hfirst
  have hcwd₁ := hkeeps₁.isAbsolute hcwd
  have hb₁ := hkeeps₁.find_file hcwd hb (named_settings hcwd _)
  have hkeeps₂ : w₁.Keeps (fun _ => False) w₂ := (keeps_copy htarget id id).of_ok hmade
  have hcwd₂ := hkeeps₂.isAbsolute hcwd₁
  have hkeeps₃ := (hkeeps (List.subset_append_right _ _)).of_ok hlast
  rcases find_of_copy hmade hcwd₁ htarget hrun relative_settingsFile.1 hb₁ with hfile | ⟨ms, hms⟩
  · exact .inl (hkeeps₃.find_file hcwd₂ hfile (named_settings hcwd₂ _))
  · exact .inr (hkeeps₃.find_folder hcwd₂ hms)

/-- Setting up copies the templates, edits the settings, and keeps their name before and after. -/
theorem parts_of_setUp (hcwd : isAbsolute w.cwd) (h : r.setUp path quiet w = .ok true w') :
    ∃ w₁ w₂ w₃ copied, w.Keeps (Named settingsFile) w₁ ∧
      (copies r.localHooks).mapM (r.copy (child w.cwd path)) w₁ = .ok copied w₂ ∧ copied.all id ∧
      (if w₂.holds (child (child w.cwd path) settingsFile) && !r.replacements.isEmpty
        then discard (editFile (child (child w.cwd path) settingsFile) r.replacements r.dryRun)
        else pure ()) w₂ = .ok () w₃ ∧ w₃.Keeps (Named settingsFile) w' := by
  have htarget : isAbsolute (child w.cwd path) := isAbsolute_child hcwd
  unfold Request.setUp at h
  obtain ⟨_, _, hget, h⟩ := bind_eq_ok_iff.mp h
  cases hget
  obtain ⟨_, _, hget, h⟩ := bind_eq_ok_iff.mp h
  cases hget
  split at h
  · cases h
  rw [guarded_eq] at h
  obtain ⟨_, w₀, htitle, h⟩ := bind_eq_ok_iff.mp h
  obtain ⟨_, w₁, hremove, h⟩ := bind_eq_ok_iff.mp h
  obtain ⟨copied, w₂, hcopied, h⟩ := bind_eq_ok_iff.mp h
  obtain ⟨_, _, hget, h⟩ := bind_eq_ok_iff.mp h
  cases hget
  rw [guarded_eq] at h
  obtain ⟨_, w₃, hedit, h⟩ := bind_eq_ok_iff.mp h
  obtain ⟨_, w₄, hhooks, h⟩ := bind_eq_ok_iff.mp h
  rw [guarded_eq] at h
  obtain ⟨_, w₅, hsummary, h⟩ := bind_eq_ok_iff.mp h
  obtain ⟨hall, rfl⟩ := EStateM.Result.ok.inj h
  -- all steps but the copies and the edit keep the settings file
  have htitled : w.Keeps (Named settingsFile) w₀ :=
    (Moves.ite (keeps_printTitle _ _) (.pure _)).of_ok htitle
  have hremoved := (keeps_removeOldFiles htarget (n := settingsFile) (by decide) r.dryRun).of_ok
    hremove
  have hinstalled : w₃.Keeps (Named settingsFile) w₄ :=
    (keeps_installHooks _ _).discard.of_ok hhooks
  have htold : w₄.Keeps (Named settingsFile) w₅ :=
    (Moves.ite (keeps_printLine _) (.pure _)).of_ok hsummary
  exact ⟨w₁, w₂, w₃, copied, Trans.trans htitled hremoved, hcopied, hall, hedit,
    Trans.trans hinstalled htold⟩

/-- **The settings of a repository hold the template with the values set.** -/
theorem readText_of_setUp {template : String} (hcwd : isAbsolute w.cwd)
    (hrun : r.dryRun = false) (hreplace : r.replacements ≠ [])
    (htemplate : w.readText (child r.templates settingsFile) = .ok template)
    (hclean : '\r' ∉ (replaceParts template r.replacements).1.toList)
    (h : r.setUp path quiet w = .ok true w') :
    w'.readText (child (child w.cwd path) settingsFile)
      = .ok (replaceParts template r.replacements).1 := by
  obtain ⟨w₁, w₂, w₃, copied, hbefore, hcopies, hall, hedit, hafter⟩ := parts_of_setUp hcwd h
  have htarget : isAbsolute (child w.cwd path) := isAbsolute_child hcwd
  obtain ⟨b, hb⟩ := World.find_of_readText htemplate
  have hcwd₁ := hbefore.isAbsolute hcwd
  have hb₁ := hbefore.find_file hcwd hb (named_settings hcwd _)
  have hcwd₂ : isAbsolute w₂.cwd := by
    have hkeeps : w₁.Keeps (fun _ => False) w₂ :=
      (Moves.mapM fun file _ => keeps_copy htarget id id).of_ok hcopies
    exact hkeeps.isAbsolute hcwd₁
  have hedits : w₂.holds (child (child w.cwd path) settingsFile) →
      ∃ found, editFile (child (child w.cwd path) settingsFile) r.replacements false w₂ = .ok found
      w₃ := by
    intro hholds
    rw [hrun, if_pos (by simpa [hholds] using hreplace)] at hedit
    exact of_discard hedit
  -- what was copied is edited, so it is not a folder
  rcases settings_of_copies hcwd₁ htarget hrun hb₁ hcopies hall with hb₂ | ⟨ms, hms⟩
  · obtain ⟨found, hfound⟩ := hedits (World.holds_of_find hb₂)
    have htext₂ : w₂.readText (child (child w.cwd path) settingsFile) = .ok template := by
      rw [readText_of_file hb₂, ← readText_of_file hb, htemplate]
    obtain ⟨hcwd₃, b', hb₃, htext₃⟩ := find_of_editFile hcwd₂ hb₂ htext₂ hclean hfound
    rw [← hcwd₃] at hcwd₂
    rw [← htext₃, readText_of_file hb₃, readText_of_file
      (hafter.find_file hcwd₂ hb₃ (named_settings hcwd₂ _))]
  · obtain ⟨found, hfound⟩ := hedits (World.holds_of_find hms)
    rw [editFile_of_folder hms] at hfound
    cases hfound

end Repository

/-- **The settings of a repository that was set up** hold the template with the scope and the
    version set. -/
theorem readText_withRelease_of_setUp {w w' : World} {path template : String} {quiet : Bool}
    (hcwd : isAbsolute w.cwd) (hscope : r.scope = "changed" ∨ r.scope = "full")
    (hrelease : r.release ∈ Release.supported) (hrun : r.dryRun = false)
    (htemplate : w.readText (child r.templates settingsFile) = .ok template)
    (h : r.setUp path quiet w = .ok true w') :
    w'.readText (child (child w.cwd path) settingsFile)
      = .ok (r.withRelease (r.withScope template)) := by
  have hne : r.release ≠ "auto" := by
    rintro heq
    rw [heq] at hrelease
    revert hrelease
    decide
  have hreplace : r.replacements ≠ [] := by
    unfold Request.replacements
    simp [hne]
  have hclean := unified_replaceParts hscope (.inr hrelease) (World.unified_of_readText htemplate)
  rw [readText_of_setUp hcwd hrun hreplace htemplate hclean h, replaceParts_replacements,
    if_neg hne]

/-! ## §2. The version that they set. -/

/-- **Settings with a version written into them do not set it**, wherever a text that left the
    version open is read from. -/
theorem release_of_withRelease {w : World} {p text : String} {doc : Yaml.Node} (hp : isAbsolute p)
    (htidy : tidy p = p) (hrelease : r.release ∈ Release.supported)
    (hdoc : Yaml.read text.toList = .ok (some doc)) (hopen : Yaml.leavesOpen doc)
    (hread : w.readText p = .ok (r.withRelease text)) {s : Settings}
    (hs : Settings.load w (some p) = .ok s) : s.release = none := by
  rw [← htidy] at hread
  exact release_of_load hrelease hdoc hopen (rewritten_withRelease hrelease text)
    (ne_empty_of_isAbsolute hp) hread hs

/-- **The settings of a repository that was set up for a version do not set it.**  Let a template
    leave the release version open, with its scope set as asked for.  If the repository gets all its
    files, its settings hold the template with the scope and the version set; but settings that can
    be read from them set no version. -/
theorem setUp_release_unset {w w' : World} {path template : String} {quiet : Bool} {doc : Yaml.Node}
    (hcwd : Path.isAbsolute w.cwd = true) (hscope : r.scope = "changed" ∨ r.scope = "full")
    (hrelease : r.release ∈ Release.supported) (hrun : r.dryRun = false)
    (htemplate : w.readText (Path.child r.templates settingsFile) = .ok template)
    (hdoc : Yaml.read (r.withScope template).toList = .ok (some doc))
    (hopen : Yaml.leavesOpen doc = true)
    (h : r.setUp path quiet w = .ok true w') :
    w'.readText (Path.child (Path.child w.cwd path) settingsFile)
        = .ok (r.withRelease (r.withScope template)) ∧
      ∀ s, Settings.load w' (some (Path.child (Path.child w.cwd path) settingsFile)) = .ok s →
        s.release = none := by
  have htarget := Path.isAbsolute_child (b := path) hcwd
  have hread := readText_withRelease_of_setUp hcwd hscope hrelease hrun htemplate h
  refine ⟨hread, fun s hs => ?_⟩
  exact release_of_withRelease (Path.isAbsolute_child htarget) (Path.tidy_child htarget) hrelease
    hdoc hopen hread hs

/-- All templates, the settings among them, and an empty repository. -/
def withTemplates : World where
  root := .folder [
    ("r", .folder []),
    ("t", .folder [
      (".pre-commit-config.yaml", .file ⟨#[]⟩),
      (".pylintrc", .file ⟨#[]⟩),
      (".solt-hooks.yaml", .file "validation_scope: changed\nodoo_version: auto\n".toUTF8),
      ("github-workflows", .folder [("solt-validate.yml", .file ⟨#[]⟩)]),
      ("pyproject.toml", .file ⟨#[]⟩)])]

/-- A request for the whole repository and a version. -/
def forVersion : Request := { templates := "/t", scope := "full", release := "18.0" }

theorem setUp_withTemplates : ∃ w', forVersion.setUp "r" true withTemplates = .ok true w' := by
  obtain ⟨b, hb, rfl⟩ : ∃ b, (forVersion.setUp "r" true).verdict withTemplates = .ok b ∧ b :=
    Traversal.ok_of_toOption_map (by decide +kernel)
  exact ok_of_verdict hb

theorem readText_withTemplates : withTemplates.readText (child forVersion.templates settingsFile)
    = .ok "validation_scope: changed\nodoo_version: auto\n" := by
  obtain ⟨text, htext, rfl⟩ : ∃ text, withTemplates.readText
    (child forVersion.templates settingsFile)
      = .ok text ∧ text = "validation_scope: changed\nodoo_version: auto\n" :=
    Traversal.ok_of_toOption_map (by decide +kernel)
  exact htext

theorem leavesOpen_withTemplates : ∃ doc, Yaml.read
    (forVersion.withScope "validation_scope: changed\nodoo_version: auto\n").toList
      = .ok (some doc) ∧
      Yaml.leavesOpen doc := by
  obtain ⟨o, ho, hopen⟩ : ∃ o, Yaml.read
      (forVersion.withScope "validation_scope: changed\nodoo_version: auto\n").toList = .ok o ∧
        o.map Yaml.leavesOpen = some true := Traversal.ok_of_toOption_map (by decide +kernel)
  obtain ⟨doc, rfl, hdoc⟩ := Option.map_eq_some_iff.mp hopen
  exact ⟨doc, ho, hdoc⟩

/-- The template with the version written into it, and no settings that set it. -/
theorem setUp_release_unset_forVersion :
    ∃ w', forVersion.setUp "r" true withTemplates = .ok true w' ∧
      w'.readText (Path.child (Path.child "/" "r") settingsFile)
        = .ok "validation_scope: full\nodoo_version: 18.0\n" ∧
      ∀ s, Settings.load w' (some (Path.child (Path.child "/" "r") settingsFile)) = .ok s →
        s.release = none := by
  obtain ⟨w', hw'⟩ := setUp_withTemplates
  obtain ⟨doc, hdoc, hopen⟩ := leavesOpen_withTemplates
  obtain ⟨hread, hsettings⟩ := setUp_release_unset (by decide) (.inr rfl) (by decide) rfl
    readText_withTemplates hdoc hopen hw'
  refine ⟨w', hw', hread.trans (congrArg Except.ok ?_), hsettings⟩
  decide

/-- **A repository that was set up for a version, without settings that have it.** -/
theorem setUp_without_version : ∃ w', forVersion.setUp "r" true withTemplates = .ok true w' ∧
      ¬ ∃ s, Settings.load w' (some (Path.child (Path.child "/" "r") settingsFile)) = .ok s ∧
        s.scope = .text "full" ∧ s.release = some "18.0" := by
  obtain ⟨w', hw'⟩ := setUp_withTemplates
  obtain ⟨doc, hdoc, hopen⟩ := leavesOpen_withTemplates
  have hcwd : Path.isAbsolute withTemplates.cwd = true := by decide
  have htarget := Path.isAbsolute_child (b := "r") hcwd
  have hread := readText_withRelease_of_setUp hcwd (.inr rfl) (by decide) rfl readText_withTemplates
    hw'
  refine ⟨w', hw', ?_⟩
  rintro ⟨s, hs, -, hrelease⟩
  have hnone := release_of_withRelease (Path.isAbsolute_child htarget) (Path.tidy_child htarget)
    (by decide) hdoc hopen hread hs
  rw [hnone] at hrelease
  cases hrelease

end AddonAudit.Setup
