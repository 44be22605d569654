/-
  AddonAudit.Addon.Basic — an addon: its manifest, its files and the release that it is for.
-/
import AddonAudit.Addon.Files
import AddonAudit.Addon.Manifest
import AddonAudit.Config

namespace AddonAudit

/-- An addon as it was loaded: its manifest, its files and its version. -/
structure Addon where
  manifestPath : String
  folder : String
  name : String
  manifest : Datum
  /-- What is wrong with the manifest, if anything. -/
  problem : String
  isInstallable : Bool
  /-- The files that are looked at, by extension. -/
  files : Groups String DataFile
  release : String

namespace Addon

/-- The release that an addon is for: a given one, the one in its manifest, or the one of the
    configuration. -/
def releaseOf (config : Config) (w : World) (folder : String) (manifest : Datum)
    (given : Option String) : Except Fault (String × Config) := do
  match given.filter (· != "") with
  | some v => return (← Release.normalize v, config)
  | none =>
    match ← Release.ofManifestEntry (← Release.manifestEntry "version" manifest) with
    | some v => return (v, config)
    | none => config.release w folder

/-- The addon at a path, with the configuration after it was looked at. -/
def load (config : Config) (path : String) (release : Option String) :
    Session (Addon × Config) := do
  let w ← get
  let manifestPath := Manifest.locate w path
  let folder := Path.dirname manifestPath
  let reading := Manifest.read w manifestPath
  let isInstallable ← Session.ofExcept (Manifest.isInstallable reading.manifest)
  let files ← Session.ofExcept (filesOf w config.settings folder reading.manifest)
  let (release, config) ← Session.ofExcept (releaseOf config w folder reading.manifest release)
  let addon : Addon := {
    manifestPath, folder, isInstallable, files, release
    name := Path.basename folder
    manifest := reading.manifest
    problem := reading.problem }
  if config.settings.changedOnly then
    match ← config.watch with
    | (.ok _, config) => return (addon, config)
    | (.error f, _) => throw f
  else return (addon, config)

/-- The files with an extension that lie in the scope of the configuration. -/
def filesInScope (a : Addon) (config : Config) (extension : String) :
    Session (Config.Outcome (List DataFile)) := do
  match Groups.get extension a.files with
  | [] => return (.ok [], config)
  | files => config.inScope (·.path) files

/-- The files of some extensions that lie in the scope. -/
def allInScope (a : Addon) (config : Config) :
    List String → Session (Config.Outcome (List DataFile))
  | [] => return (.ok [], config)
  | e :: es => do
    match ← a.filesInScope config e with
    | (.error f, config) => return (.error f, config)
    | (.ok files, config) =>
      match ← a.allInScope config es with
      | (.ok more, config) => return (.ok (files ++ more), config)
      | (.error f, config) => return (.error f, config)

/-- Whether any file lies in the scope; without a scope all addons count. -/
def hasChanged (a : Addon) (config : Config) : Session (Config.Outcome Bool) := do
  if !config.settings.changedOnly then return (.ok true, config)
  match ← a.allInScope config (a.files.map (·.1)) with
  | (.ok files, config) => return (.ok !files.isEmpty, config)
  | (.error f, config) => return (.error f, config)

end Addon

end AddonAudit
