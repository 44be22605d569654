/-
  AddonAudit.Proofs.Log — the log is written and never read.

  What is read of settings and addons is read from the file tree.  So it is the same in every world
  with that tree, whatever commands can be run in it and whatever was printed before.  With the log
  alone changed, versions that are looked for and what the checks find stay the same too.
-/
import AddonAudit.Audit.Check
import AddonAudit.Proofs.Session

namespace AddonAudit

open Release Addon Manifest

/-! ## §1. Worlds in another dress. -/

namespace World

/-- A world with other processes and another log. -/
def dress (w : World) (ps : List (String × Option ProcessResult)) (l : Log) : World :=
  { w with processes := ps, log := l }

variable (w : World) (ps : List (String × Option ProcessResult)) (l : Log)

@[simp] theorem cwd_dress : (w.dress ps l).cwd = w.cwd := rfl

@[simp] theorem resolve_dress (p : String) : (w.dress ps l).resolve p = w.resolve p := rfl

@[simp] theorem find_dress (p : String) : (w.dress ps l).find p = w.find p := rfl

@[simp] theorem isFile_dress (p : String) : (w.dress ps l).isFile p = w.isFile p := rfl

@[simp] theorem isFolder_dress (p : String) : (w.dress ps l).isFolder p = w.isFolder p := rfl

@[simp] theorem readText_dress (p : String) : (w.dress ps l).readText p = w.readText p := rfl

@[simp] theorem readPieces_dress (e : Text.Encoding) (p : String) :
    (w.dress ps l).readPieces e p = w.readPieces e p := rfl

theorem put_dress (p : String) (e : Entry) : (w.dress ps l).put p e = (w.put p e).dress ps l := by
  unfold put
  rw [resolve_dress]
  unfold dress
  dsimp only

end World

/-! ## §2. Settings and addons. -/

variable (w : World) (ps : List (String × Option ProcessResult)) (l : Log)

theorem firstDocument_dress (paths : List String) :
    firstDocument (w.dress ps l) paths = firstDocument w paths := by
  induction paths with
  | nil => rfl
  | cons p paths ih =>
    have hread : readDocument (w.dress ps l) p = readDocument w p := by
      unfold readDocument
      rw [World.readPieces_dress]
    simp only [firstDocument, hread, ih]

theorem Settings.load_dress (given : Option String) :
    Settings.load (w.dress ps l) given = Settings.load w given := by
  unfold Settings.load settingsDocument
  rw [firstDocument_dress]
  rfl

theorem Manifest.locate_dress (path : String) :
    locate (w.dress ps l) path = locate w path := rfl

theorem Manifest.read_dress (path : String) : read (w.dress ps l) path = read w path := by
  unfold Manifest.read Manifest.counts
  rw [World.readText_dress, World.isFile_dress, World.isFile_dress]

theorem Addon.dataFile?_dress (s : Settings) (folder sectionName : String) :
    dataFile? (w.dress ps l) s folder sectionName = dataFile? w s folder sectionName := by
  funext item
  unfold dataFile?
  simp only [World.resolve_dress]

theorem Glob.expand_dress (depth : Nat) (foldersOnly : Bool) (pattern : String) :
    Glob.expand (w.dress ps l) foldersOnly depth pattern =
    Glob.expand w foldersOnly depth pattern := by
  have hnames : ∀ folder component foldersOnly,
    Glob.namesIn (w.dress ps l) folder component foldersOnly
      = Glob.namesIn w folder component foldersOnly := fun _ _ _ => rfl
  induction depth generalizing foldersOnly pattern with
  | zero => rfl
  | succ depth ih =>
    simp only [Glob.expand, ih, hnames]
    rfl

/-- **The files of an addon are those of the tree**, whatever commands can be run. -/
theorem Addon.filesOf_dress (s : Settings) (folder : String) (manifest : Datum) :
    filesOf (w.dress ps l) s folder manifest = filesOf w s folder manifest := by
  have hdata : dataFiles (w.dress ps l) s folder manifest = dataFiles w s folder manifest := by
    unfold dataFiles
    simp only [dataFile?_dress]
  have hcatalogs : catalogFiles (w.dress ps l) s folder = catalogFiles w s folder := by
    unfold catalogFiles Glob.paths
    simp only [World.resolve_dress, Glob.expand_dress]
  have hsources : sourceFiles (w.dress ps l) s folder = sourceFiles w s folder := by
    have hpaths : sourcePaths (w.dress ps l) folder = sourcePaths w folder := rfl
    unfold sourceFiles
    simp only [World.resolve_dress, World.cwd_dress, hpaths]
  unfold filesOf
  rw [hdata, hcatalogs, hsources]

theorem Addon.readings_dress (a : Addon) : a.readings (w.dress ps l) = a.readings w := rfl

/-! ## §3. Another log. -/

@[simp] theorem World.readText_relog (p : String) : (w.relog l).readText p = w.readText p := rfl

theorem Settings.load_relog (given : Option String) :
    Settings.load (w.relog l) given = Settings.load w given :=
  Settings.load_dress w w.processes l given

theorem Manifest.locate_relog (path : String) :
    locate (w.relog l) path = locate w path := rfl

theorem Manifest.read_relog (path : String) : read (w.relog l) path = read w path :=
  read_dress w w.processes l path

theorem Addon.filesOf_relog (s : Settings) (folder : String) (manifest : Datum) :
    filesOf (w.relog l) s folder manifest = filesOf w s folder manifest :=
  filesOf_dress w w.processes l s folder manifest

theorem Addon.readings_relog (a : Addon) : a.readings (w.relog l) = a.readings w := rfl

theorem Release.ofManifestFile_relog (p : String) :
    ofManifestFile (w.relog l) p = ofManifestFile w p := by
  unfold ofManifestFile
  rw [World.readText_relog]

theorem Release.firstNamed_relog (ps : List String) :
    firstNamed (w.relog l) ps = firstNamed w ps := by
  induction ps with
  | nil => rfl
  | cons p ps ih => simp only [firstNamed, ofManifestFile_relog, ih]

theorem Release.manifestsAt_relog (folder : String) :
    manifestsAt (w.relog l) folder = manifestsAt w folder := rfl

theorem Release.searchUp_relog (levels : Nat) (folder : String) :
    searchUp (w.relog l) levels folder = searchUp w levels folder := by
  induction levels generalizing folder with
  | zero => rfl
  | succ levels ih =>
    simp only [searchUp, manifestsAt_relog, firstNamed_relog, ih]

theorem Release.detect_relog (path : String) : detect (w.relog l) path = detect w path := by
  unfold detect
  rw [searchUp_relog]
  rfl

theorem Config.release_relog (c : Config) (path : String) :
    c.release (w.relog l) path = c.release w path := by
  unfold Config.release
  rw [detect_relog, detect_relog]
  rfl

theorem Addon.releaseOf_relog (c : Config) (folder : String) (manifest : Datum)
    (given : Option String) :
    Addon.releaseOf c (w.relog l) folder manifest given =
    Addon.releaseOf c w folder manifest given := by
  unfold Addon.releaseOf
  rw [Config.release_relog]

theorem Check.findings_relog (c : Check) (s : Settings) (a : Addon) (files : List DataFile) :
    c.findings (w.relog l) s a files = c.findings w s a files := by
  cases c <;> cases files <;> rfl

end AddonAudit
