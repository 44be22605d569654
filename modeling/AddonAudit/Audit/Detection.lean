/-
  AddonAudit.Audit.Detection — the addons to which paths belong.

  A file belongs to the nearest folder above it that has a manifest.
-/
import AddonAudit.Addon.Manifest
import AddonAudit.Changes

namespace AddonAudit.Detection

/-- How many folders are tried from a path upwards. -/
def searchDepth : Nat := 10

/-- Whether one of the names of a manifest is in a folder. -/
def hasManifest (w : World) (folder : String) : Bool :=
  Manifest.names.any fun n => w.holds (Path.child folder n)

/-- The nearest folder with a manifest, at most `levels` of them being tried. -/
def searchUp (w : World) : (levels : Nat) → (folder : String) → Option String
  | 0, _ => none
  | levels + 1, folder =>
    if hasManifest w folder then some folder
    else if Path.parent folder == folder then none
    else searchUp w levels (Path.parent folder)

/-- The addon that a path belongs to. -/
def addonOf? (w : World) (path : String) : Option String :=
  let start := w.resolve path
  searchUp w searchDepth (if w.isFile start then Path.parent start else start)

/-- Whether a path leads to the folder of an addon. -/
def isAddonFolder (w : World) (path : String) : Bool :=
  w.isFolder (Path.tidy path) && hasManifest w path

/-- The addons that paths lead to: those given by their folders, or else those to which files
    belong. -/
def addonsOf (w : World) (paths : List String) : List String :=
  let paths := paths.filter (· != "")
  let given := (paths.filter (isAddonFolder w)).map w.resolve
  if given.isEmpty then Text.sortedSet ((paths.filter fun p => !isAddonFolder w p).filterMap
    (addonOf? w))
  else given

/-- Extensions by which a path is taken for a file. -/
def fileExtensions : List String :=
  [".py", ".xml", ".csv", ".po", ".pot", ".yml", ".yaml", ".json", ".md", ".rst", ".txt"]

/-- The extension of a path in small letters. -/
def extensionOf (path : String) : String := Text.lower (Path.suffix path)

/-- Whether one of some paths stands for a file. -/
def areFiles (w : World) (paths : List String) : Bool :=
  paths.any fun p => fileExtensions.contains (extensionOf p) || w.isFile (Path.tidy p)

/-- The paths of staged files; none if they cannot be told. -/
def stagedPaths : Session (List String) := do
  match ← Session.attempt (runIfAble stagedCommand) with
  | .ok (some r) => return (outputLines r.out).map Text.strip |>.filter (· != "")
  | .ok none => return []
  | .error f => if f.isNoProgram then return [] else throw f
where
  outputLines (out : String) : List String := Text.splitAt '\n' (Text.strip out)

/-- Extensions of files that say which addons are staged. -/
def relevantExtensions : List String := [".py", ".xml", ".csv", ".po", ".pot"]

/-- Whether a staged file says that its addon is to be looked at. -/
def isRelevant (path : String) : Bool :=
  relevantExtensions.contains (extensionOf path) || Text.contains path "__manifest__" ||
    Text.contains path "__openerp__"

/-- The addons of the staged files; none if there is nothing relevant. -/
def stagedAddons : Session (Option (List String)) := do
  let relevant := (← stagedPaths).filter isRelevant
  if relevant.isEmpty then return none
  return some (addonsOf (← get) relevant)

end AddonAudit.Detection
