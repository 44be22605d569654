/-
  AddonAudit.Addon.DataFile — the files of an addon that checks look at.
-/

namespace AddonAudit

/-- A file with the section of the manifest that names it. -/
structure DataFile where
  path : String
  /-- The path inside the addon. -/
  short : String
  sectionName : String

/-- A place in a file, as messages show it. -/
def place (path : String) (line : Nat) : String := path ++ ":" ++ toString line

end AddonAudit
