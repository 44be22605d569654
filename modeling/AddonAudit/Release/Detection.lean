/-
  AddonAudit.Release.Detection — the release version that the manifests around a folder name.

  The search starts at a folder and goes up.  At each level the folder's own manifest counts first,
  then that of the first folder inside it that has one.
-/
import AddonAudit.Release.Version
import AddonAudit.Source.Value
import AddonAudit.Workspace.World

namespace AddonAudit.Release

/-- The names that a manifest may have, the usual one first. -/
def manifestNames : List String := ["__manifest__.py", "__openerp__.py"]

/-- How many levels a search goes up, the first included. -/
def searchDepth : Nat := 5

def manifestEntry (key : String) : Datum → Except Fault (Option Datum)
  | .table es => .ok (Datum.lookupText key es)
  | d => .error (.noOperation d.kind "get")

/-- A manifest that cannot be read or has an unusable value names no version. -/
def namesNone (f : Fault) : Bool := f.isAccess || f.isBadValue || f.isMalformedSource

def ofManifestFile (w : World) (path : String) : Except Fault (Option String) :=
  let named : Except Fault (Option String) := do
    let manifest ← Source.readLiteral (← w.readText path)
    ofManifestEntry (← manifestEntry "version" manifest)
  match named with
  | .ok v => .ok v
  | .error f => if namesNone f then .ok none else .error f

def manifestsInside (w : World) (folder name : String) : List String :=
  ((w.list folder).filter fun n => w.isFolder (Path.child folder n)).filterMap fun n =>
    let path := Path.child (Path.child folder n) name
    if w.holds path then some path else none

/-- The manifests that count at one level, in the order in which they are asked. -/
def manifestsAt (w : World) (folder : String) : List String :=
  ((manifestNames.map (Path.child folder)).filter w.holds) ++
    manifestNames.filterMap fun name => (manifestsInside w folder name).head?

/-- The first version that manifests name. -/
def firstNamed (w : World) : List String → Except Fault (Option String)
  | [] => .ok none
  | path :: rest => do
    match ← ofManifestFile w path with
    | some v => return some v
    | none => firstNamed w rest

/-- The version found from a folder on upwards, with at most `levels` levels. -/
def searchUp (w : World) : (levels : Nat) → (folder : String) → Except Fault String
  | 0, _ => .ok fallback
  | levels + 1, folder => do
    match ← firstNamed w (manifestsAt w folder) with
    | some v => return v
    | none =>
      if Path.parent folder == folder then return fallback
      else searchUp w levels (Path.parent folder)

/-- The version found from a path on upwards, or from the current folder if the path is empty. -/
def detect (w : World) (path : String) : Except Fault String :=
  searchUp w searchDepth (if path == "" then w.cwd else Path.tidy path)

end AddonAudit.Release
