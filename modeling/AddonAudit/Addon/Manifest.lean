/-
  AddonAudit.Addon.Manifest — the manifest of an addon.

  A manifest counts only in a folder that is a package.  One that cannot be read leaves an empty
  table and the text of what is wrong.
-/
import AddonAudit.Release.Detection

namespace AddonAudit.Manifest

/-- The names that the manifest of an addon may have, the oldest first. -/
def names : List String := ["__openerp__.py", "__manifest__.py"]

/-- The name of the file that makes a folder a package. -/
def packageFile : String := "__init__.py"

/-- The path of the manifest in a folder, or the path itself if there is none. -/
def locate (w : World) (path : String) : String :=
  ((names.map (Path.join path)).find? w.isFile).getD path

/-- What reading a manifest gave. -/
structure Reading where
  manifest : Datum
  problem : String

/-- Whether a path leads to the manifest of a package. -/
def counts (w : World) (path : String) : Bool :=
  names.contains (Path.basename path) && w.isFile path &&
    w.isFile (Path.join (Path.dirname path) packageFile)

/-- What a manifest holds, and why it holds nothing. -/
def read (w : World) (path : String) : Reading :=
  if !counts w path then ⟨.table [], ""⟩
  else match (do Source.readLiteral (← w.readText path) : Except Fault Datum) with
    | .ok d => ⟨d, ""⟩
    | .error f => ⟨.table [], "Manifest " ++ path ++ " with error " ++ f.message⟩

/-- Whether a manifest lets its addon be installed. -/
def isInstallable (manifest : Datum) : Except Fault Bool := do
  if !manifest.truthy then return false
  return ((← Release.manifestEntry "installable" manifest).getD (.bool true)).truthy

end AddonAudit.Manifest
