/-
  AddonAudit.Addon.Files — the files of an addon that are looked at.

  They are the data files that the manifest names, the message catalogs in its translation folders
  and the source files below its folder, each unless the settings leave its path out.
-/
import AddonAudit.Addon.DataFile
import AddonAudit.Findings
import AddonAudit.Release.Detection
import AddonAudit.Settings
import AddonAudit.Workspace.Glob

namespace AddonAudit.Addon

/-- The sections of a manifest that name data files. -/
def dataSections : List String := ["data", "demo", "demo_xml", "init_xml", "test", "update_xml"]

/-- Folders whose source files do not count. -/
def skippedFolders : List String := ["__pycache__", ".git", "node_modules", "static", "lib"]

/-- The patterns of message catalogs inside an addon. -/
def catalogPatterns : List String := ["i18n*/*.po", "i18n*/*.pot"]

/-- An extension and a file that has it. -/
abbrev Named := String × DataFile

/-- The extension of a path in small letters. -/
def extensionOf (path : String) : String := Text.lower (Path.splitSuffix path).2

/-- A path in a manifest; it has to be a text without null characters. -/
def pathText : Datum → Except Fault String
  | .text s => if s.toList.contains '\x00' then .error .nullPath else .ok s
  | .bytes _ => .error .mixedPath
  | d => .error (.notPath d.shortKind)

/-- The file that an item of a section names; none if its path is left out. -/
def dataFile? (w : World) (s : Settings) (folder sectionName : String) (item : Datum) :
    Except Fault (Option Named) := do
  let path ← pathText item
  if ← s.excludes? path then return none
  let short := Path.normalize path
  return some (extensionOf path, ⟨w.resolve (Path.join folder short), short, sectionName⟩)

/-- What a section of the manifest lists. -/
def sectionItems (manifest : Datum) (sectionName : String) : Except Fault (List Datum) := do
  match ← Release.manifestEntry sectionName manifest with
  | some d => if d.truthy then d.parts else return []
  | none => return []

/-- The files that the sections of the manifest name. -/
def dataFiles (w : World) (s : Settings) (folder : String) (manifest : Datum) :
    Except Fault (List Named) := do
  let found ← dataSections.mapM fun sectionName => do
    (← sectionItems manifest sectionName).mapM (dataFile? w s folder sectionName)
  return found.flatten.filterMap id

/-- The catalogs of an addon that are not left out. -/
def catalogFiles (w : World) (s : Settings) (folder : String) : Except Fault (List Named) := do
  let paths := catalogPatterns.flatMap fun p => Glob.paths w (Path.join folder p)
  let kept ← paths.filterM fun p => do return !(← s.excludes? p)
  return kept.map fun p => (extensionOf p, ⟨w.resolve p, Path.normalize p, "default"⟩)

/-- The paths of the source files below a folder. -/
def sourcePaths (w : World) (folder : String) : List String :=
  match w.find folder with
  | .error _ => []
  | .ok e =>
    (e.walk (fun n => !skippedFolders.contains n) folder).flatMap fun v =>
      (v.files.filter (Text.endsWith · ".py")).map (Path.join v.path)

/-- The source files of an addon that are not left out. -/
def sourceFiles (w : World) (s : Settings) (folder : String) : Except Fault (List Named) := do
  let short (p : String) : String := Path.relative w.cwd p folder
  let kept ← (sourcePaths w folder).filterM fun p => do return !(← s.excludes? (short p))
  return kept.map fun p => (".py", ⟨w.resolve p, short p, "python"⟩)

/-- All files of an addon, by their extension. -/
def filesOf (w : World) (s : Settings) (folder : String) (manifest : Datum) :
    Except Fault (Groups String DataFile) := do
  let data ← dataFiles w s folder manifest
  let catalogs ← catalogFiles w s folder
  let sources ← sourceFiles w s folder
  return (data ++ catalogs ++ sources).foldl (fun groups (ext, f) => Groups.add ext f groups) []

end AddonAudit.Addon
