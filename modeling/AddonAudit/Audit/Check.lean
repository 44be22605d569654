/-
  AddonAudit.Audit.Check — the checks on an addon.

  A check belongs to a mode, looks at the files of some extensions and finds what a pure function of
  world, addon and files says.
-/
import AddonAudit.Addon.Basic
import AddonAudit.Catalog.Checks
import AddonAudit.Csv.Checks
import AddonAudit.Model.Checks
import AddonAudit.Report.Basic
import AddonAudit.Xml.ViewChecks

namespace AddonAudit

/-! ## §1. Checks -/

/-- A check on an addon. -/
inductive Check where
  | tables
  | manifest
  /-- The file that describes the addon. -/
  | readme
  | catalogs
  | sources
  | records
  | views
  deriving DecidableEq

namespace Check

/-- All checks in the order in which they run. -/
def all : List Check := [.tables, .manifest, .readme, .catalogs, .sources, .records, .views]

/-- The name under which a check is told of. -/
def title : Check → String
  | .tables => "check_csv"
  | .manifest => "check_manifest"
  | .readme => "check_missing_readme"
  | .catalogs => "check_po"
  | .sources => "check_python"
  | .records => "check_xml"
  | .views => "check_xml_advanced"

/-- The mode that a check belongs to. -/
def mode : Check → String
  | .tables => "csv"
  | .manifest => "manifest"
  | .readme => "manifest"
  | .catalogs => "po"
  | .sources => "python"
  | .records => "xml"
  | .views => "xml"

/-- Whether a check runs in a mode; without a mode all of them do. -/
def runsIn (c : Check) (mode : Option String) : Bool :=
  match mode with
  | none => true
  | some m => c.mode == m

/-- The extensions of the files that a check looks at. -/
def extensions : Check → List String
  | .tables => [".csv"]
  | .manifest => []
  | .readme => []
  | .catalogs => [".po", ".pot"]
  | .sources => [".py"]
  | .records => [".xml"]
  | .views => [".xml"]

/-- Whether a check makes sense for an addon that cannot be installed. -/
def needsInstallable (c : Check) : Bool := c != .manifest

/-! ## §2. What a check finds -/

/-- The names of files that describe an addon. -/
def readmeNames : List String := ["README.md", "README.txt", "README.rst"]

def readmeTemplate : String :=
  "https://github.com/soltein-net/solt-pre-commit/blob/main/docs/README_TEMPLATE.rst"

/-- A manifest without entries could not be loaded. -/
def manifestFindings (a : Addon) : Findings :=
  if a.manifest.truthy then []
  else [("manifest_syntax_error", [a.manifestPath ++ " could not be loaded " ++ a.problem])]

/-- An addon without a file that describes it. -/
def readmeFindings (w : World) (a : Addon) : Findings :=
  if readmeNames.any fun n => w.isFile (Path.join a.folder n) then []
  else [("missing_readme", [a.folder ++ " missing README. Template: " ++ readmeTemplate])]

/-- What a check finds in the files of an addon; checks on files find nothing without any.  Every
    check reads its files anew: what one check keeps beside a file is replaced by the next one
    before it is looked at. -/
def findings (c : Check) (w : World) (s : Settings) (a : Addon) (files : List DataFile) :
    Except Fault Findings :=
  match c, files with
  | .manifest, _ => .ok (manifestFindings a)
  | .readme, _ => .ok (readmeFindings w a)
  | _, [] => .ok []
  | .tables, _ => Csv.checkTables w files
  | .catalogs, _ => Catalog.checkCatalogs w files
  | .sources, _ => Model.checkSources w (Model.Policy.ofSettings s) (files.map (·.path))
  | .records, _ => Xml.checkDataFiles w a.name files
  | .views, _ => Xml.checkViewFiles w files

/-! ## §3. Running a check -/

/-- Why a check does not apply to an addon. -/
def refusal? (c : Check) (a : Addon) : Option String :=
  let start := "Skipped check '" ++ c.title ++ "' for '" ++ a.manifestPath ++ "'"
  if !c.needsInstallable then none
  else if a.problem != "" then some (start ++ " with error: '" ++ a.problem ++ "'")
  else if !a.isInstallable then some (start ++ " is not installable")
  else none

/-- How checks are run. -/
structure Manner where
  verbose : Bool := true
  mode : Option String := none

/-- Runs a check on an addon and adds what it finds to a report. -/
def run (m : Manner) (config : Config) (a : Addon) (r : Report) (c : Check) :
    Session (Config.Outcome Report) := do
  match c.refusal? a with
  | some line =>
    if m.verbose then Session.printLine line
    return (.ok r, config)
  | none =>
    if !c.runsIn m.mode then return (.ok r, config)
    match ← a.allInScope config c.extensions with
    | (.error f, config) => return (.error f, config)
    | (.ok files, config) =>
      return ((c.findings (← get) config.settings a files).map r.addAll, config)

end Check

/-! ## §4. What the sources declare -/

/-- What reading the source files of an addon gives, in order; a file may come twice.  The files are
    read anew, whatever the checks kept of them. -/
def Addon.readings (w : World) (a : Addon) : Except Fault (List (String × Model.Reading)) :=
  Model.readSources w ((Groups.get ".py" a.files).map (·.path))

end AddonAudit
