/-
  AddonAudit.Proofs.Audit.Checks — what loading and checking an addon gives, as functions of the
  world.

  A check prints, asks for changed files and remembers the answer.  None of this shows in what it
  finds: for every session on the way from a path to a report there is a plain function of world,
  settings and scope, and the session leads to its value whatever the configuration remembers.
-/
import AddonAudit.Audit.Run
import AddonAudit.Proofs.Config

namespace AddonAudit

open Session (Settles)
open Config (Alike Gives Leads)

variable {w : World} {c c' : Config}

/-! ## §1. The files in the scope. -/

namespace Addon

/-- The files of an extension that lie in the scope of a configuration. -/
def within (w : World) (c : Config) (a : Addon) (extension : String) :
    Except Fault (List DataFile) :=
  match Groups.get extension a.files with
  | [] => .ok []
  | files => c.kept w (·.path) files

/-- The files of some extensions that lie in the scope of a configuration. -/
def allWithin (w : World) (c : Config) (a : Addon) : List String → Except Fault (List DataFile)
  | [] => .ok []
  | e :: es =>
    (a.within w c e).bind fun files => (a.allWithin w c es).bind fun more => .ok (files ++ more)

theorem within_eq (h : Alike w c c') (a : Addon) (extension : String) :
    a.within w c' extension = a.within w c extension := by
  unfold within
  split
  · rfl
  · exact h.kept_eq _ _

theorem allWithin_eq (h : Alike w c c') (a : Addon) (extensions : List String) :
    a.allWithin w c' extensions = a.allWithin w c extensions := by
  induction extensions with
  | nil => rfl
  | cons e es ih =>
    unfold allWithin
    rw [within_eq h, ih]

theorem gives_filesInScope (w : World) (c : Config) (a : Addon) (extension : String) :
    Gives w c (a.filesInScope c extension) (a.within w c extension) := by
  unfold filesInScope within
  cases Groups.get extension a.files with
  | nil => exact Gives.pure w c _
  | cons f fs => exact c.gives_inScope w _ _

theorem gives_allInScope (w : World) (a : Addon) (extensions : List String) :
    ∀ c : Config, Gives w c (a.allInScope c extensions) (a.allWithin w c extensions) := by
  induction extensions with
  | nil => exact fun c => Gives.pure w c _
  | cons e es ih =>
    intro c
    unfold allInScope allWithin
    refine Gives.next (a.gives_filesInScope w c e) (fun _ _ => rfl) fun files c' hlike => ?_
    rw [← allWithin_eq hlike]
    exact Gives.next (ih c') (fun _ _ => rfl) fun more c'' _ => Gives.pure w c'' _

end Addon

/-! ## §2. Checks. -/

namespace Check

/-- What a check finds under a configuration: nothing where it does not apply or run. -/
def found (w : World) (c : Config) (mode : Option String) (a : Addon) (k : Check) :
    Except Fault Findings :=
  if (k.refusal? a).isSome || !k.runsIn mode then .ok []
  else (a.allWithin w c k.extensions).bind (k.findings w c.settings a)

theorem found_eq (h : Alike w c c') (mode : Option String) (a : Addon) (k : Check) :
    k.found w c' mode a = k.found w c mode a := by
  unfold found
  rw [Addon.allWithin_eq h, h.settings]

/-- **Running a check adds what it finds**, whether or not it says that it does not apply. -/
theorem gives_run (w : World) (m : Manner) (c : Config) (a : Addon) (r : Report) (k : Check) :
    Gives w c (Check.run m c a r k) ((k.found w c m.mode a).map r.addAll) := by
  unfold Check.run found
  cases hrefusal : k.refusal? a with
  | some line =>
    simp only [Option.isSome_some, Bool.true_or, if_true]
    refine ⟨c, ?_, fun _ => Alike.refl w c⟩
    cases m.verbose with
    | true => exact Settles.bind_ok (.printLine _) (.pure _)
    | false => exact .pure _
  | none =>
    simp only [Option.isSome_none, Bool.false_or]
    split
    · exact Gives.pure w c _
    · have hmap : Except.map r.addAll ((a.allWithin w c k.extensions).bind
        (k.findings w c.settings a))
          = (a.allWithin w c k.extensions).bind fun files =>
              (k.findings w c.settings a files).map r.addAll := by
        cases a.allWithin w c k.extensions <;> rfl
      rw [hmap]
      refine Gives.next (a.gives_allInScope w k.extensions c) (fun _ _ => rfl) fun files c' hlike =>
        ?_
      rw [← hlike.settings]
      refine ⟨c', .get_bind (.pure _) fun l => ?_, fun _ => Alike.refl w c'⟩
      rw [Check.findings_relog]

end Check

namespace Report

/-- Adding findings in two steps is adding them in one. -/
theorem addAll_append (r : Report) (fs gs : Findings) :
    r.addAll (fs ++ gs) = (r.addAll fs).addAll gs := by
  unfold addAll
  rw [List.foldl_append]

end Report

namespace Audit

/-- **Running checks adds what each of them finds**, in order. -/
theorem leads_runChecks (w : World) (m : Check.Manner) (a : Addon) (ks : List Check) :
    ∀ (c : Config) (r : Report), Leads True w c (runChecks m a c r ks)
      ((ks.mapM (Check.found w c m.mode a)).map fun fs => r.addAll fs.flatten) := by
  induction ks with
  | nil => exact fun c r => Leads.pure w c _
  | cons k ks ih =>
    intro c r
    have hsteps : ((k :: ks).mapM (Check.found w c m.mode a)).map (fun fs => r.addAll fs.flatten)
        = ((k.found w c m.mode a).map r.addAll).bind fun r' =>
            (ks.mapM (Check.found w c m.mode a)).map fun fs => r'.addAll fs.flatten := by
      rw [List.mapM_cons]
      cases k.found w c m.mode a with
      | error f => rfl
      | ok found =>
        cases ks.mapM (Check.found w c m.mode a) with
        | error f => rfl
        | ok more =>
          show Except.ok (r.addAll (found :: more).flatten) = Except.ok _
          rw [List.flatten_cons, Report.addAll_append]
    rw [hsteps]
    unfold runChecks
    refine Gives.bind (Check.gives_run w m c a r k) (fun _ _ => rfl) fun r' c' hlike => ?_
    have hfound : Check.found w c' m.mode a = Check.found w c m.mode a :=
      funext fun k => Check.found_eq hlike m.mode a k
    rw [← hfound]
    exact ih c' r'

end Audit

/-! ## §3. Addons. -/

namespace Addon

/-- The addon at a path under a configuration; with a scope it has to be known what changed. -/
def built (w : World) (c : Config) (path : String) (release : Option String) :
    Except Fault Addon := do
  let manifestPath := Manifest.locate w path
  let folder := Path.dirname manifestPath
  let reading := Manifest.read w manifestPath
  let isInstallable ← Manifest.isInstallable reading.manifest
  let files ← filesOf w c.settings folder reading.manifest
  let release ← (releaseOf c w folder reading.manifest release).map Prod.fst
  let addon : Addon := {
    manifestPath, folder, isInstallable, files, release
    name := Path.basename folder
    manifest := reading.manifest
    problem := reading.problem }
  if c.settings.changedOnly then (c.known w).map fun _ => addon else return addon

/-- What an addon at a path is made of. -/
structure FromPath (w : World) (s : Settings) (path : String) (a : Addon) : Prop where
  folder : a.folder = Path.dirname (Manifest.locate w path)
  name : a.name = Path.basename a.folder
  manifest : a.manifest = (Manifest.read w (Manifest.locate w path)).manifest
  files : filesOf w s a.folder a.manifest = .ok a.files

theorem fromPath_of_built {path : String} {release : Option String} {a : Addon}
    (h : built w c path release = .ok a) : FromPath w c.settings path a := by
  obtain ⟨installable, -, h⟩ := Traversal.bind_ok_iff.mp h
  obtain ⟨files, hfiles, h⟩ := Traversal.bind_ok_iff.mp h
  obtain ⟨own, -, h⟩ := Traversal.bind_ok_iff.mp h
  by_cases hchanged : c.settings.changedOnly
  · rw [if_pos hchanged] at h
    obtain ⟨known, -, rfl⟩ := Traversal.map_ok_iff.mp h
    constructor
    all_goals dsimp only
    exact hfiles
  · rw [if_neg hchanged] at h
    obtain rfl := Except.ok.inj h
    constructor
    all_goals dsimp only
    exact hfiles

/-- The version that is given or that a manifest names. -/
def named (manifest : Datum) (given : Option String) : Except Fault (Option String) :=
  match given.filter (· != "") with
  | some v => (Release.normalize v).map some
  | none => (Release.manifestEntry "version" manifest).bind Release.ofManifestEntry

/-- Only an addon without a version of its own asks the configuration. -/
theorem releaseOf_eq (w : World) (c : Config) (folder : String) (manifest : Datum)
    (given : Option String) :
    releaseOf c w folder manifest given = (named manifest given).bind fun own =>
      match own with
      | some v => .ok (v, c)
      | none => c.release w folder := by
  unfold releaseOf named
  cases given.filter (· != "") with
  | some v =>
    dsimp only
    cases Release.normalize v <;> rfl
  | none =>
    dsimp only
    cases Release.manifestEntry "version" manifest with
    | error f => rfl
    | ok entry =>
      show (Release.ofManifestEntry entry >>= _) = (Release.ofManifestEntry entry).bind _
      cases Release.ofManifestEntry entry with
      | error f => rfl
      | ok own => cases own <;> rfl

/-- The version of an addon does not depend on what is remembered. -/
theorem releaseOf_fst (h : Alike w c c') (folder : String) (manifest : Datum)
    (given : Option String) :
    (releaseOf c' w folder manifest given).map Prod.fst =
    (releaseOf c w folder manifest given).map Prod.fst := by
  rw [releaseOf_eq, releaseOf_eq]
  cases named manifest given with
  | error f => rfl
  | ok own =>
    cases own with
    | some v => rfl
    | none => exact h.release folder

/-- Looking for the version of an addon changes no answer. -/
theorem alike_releaseOf {folder v : String} {manifest : Datum} {given : Option String}
    (h : releaseOf c w folder manifest given = .ok (v, c')) : Alike w c c' := by
  rw [releaseOf_eq] at h
  cases hown : named manifest given with
  | error f =>
    rw [hown] at h
    cases h
  | ok own =>
    rw [hown] at h
    cases own with
    | some v =>
      cases h
      exact Alike.refl w c
    | none => exact Config.alike_release h

theorem built_eq (h : Alike w c c') (path : String) (release : Option String) :
    built w c' path release = built w c path release := by
  unfold built
  simp only [h.settings, releaseOf_fst h, h.known_map]

/-- **Loading an addon gives the addon at its path**, whatever the configuration remembers. -/
theorem leads_load (w : World) (c : Config) (path : String) (release : Option String) :
    Leads True w c (Addon.load c path release) (built w c path release) := by
  unfold Addon.load built
  refine Leads.get_bind ?_ fun l => by
    simp only [Manifest.locate_relog, Manifest.read_relog, filesOf_relog, releaseOf_relog]
  refine Leads.ofExcept_bind fun isInstallable _ => ?_
  refine Leads.ofExcept_bind fun files _ => ?_
  cases hfound : releaseOf c w (Path.dirname (Manifest.locate w path))
      (Manifest.read w (Manifest.locate w path)).manifest release with
  | error f => exact Leads.of_error (.throw f)
  | ok found =>
    obtain ⟨v, c'⟩ := found
    have hlike := alike_releaseOf hfound
    refine Leads.of_alike hlike ?_
    show Leads True w c' (if c'.settings.changedOnly then _ else _)
      (if c.settings.changedOnly then _ else _)
    rw [hlike.settings]
    split
    · rw [← hlike.known_map]
      exact Gives.bind (c'.gives_watch w) (fun _ _ => rfl) fun ch c'' _ => Leads.pure w c'' _
    · exact Leads.pure w c' _

end Addon

end AddonAudit
