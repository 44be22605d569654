/-
  AddonAudit.Setup.Repository — setting up repositories, one or many.
-/
import AddonAudit.Command
import AddonAudit.Setup.Hooks

namespace AddonAudit.Setup

/-! ## §1. One repository -/

/-- How repositories are set up. -/
structure Request where
  templates : String
  scope : String := "changed"
  release : String := "auto"
  dryRun : Bool := false
  /-- Hooks that lie in the repository itself. -/
  localHooks : Bool := false
  /-- Files that are there may be overwritten. -/
  force : Bool := true

/-- The folder with the templates, which lies beside the folder `scripts` or in the tool's own
    folder. -/
def templatesFolder (toolFolder : String) : String :=
  Path.child (if Path.name toolFolder == "scripts" then Path.parent toolFolder else toolFolder)
    "templates"

/-- What is replaced in the settings of the hooks. -/
def Request.replacements (r : Request) : List (String × String) :=
  (if r.scope == "changed" then [] else [("validation_scope: changed", "validation_scope: " ++
    r.scope)]) ++ (if r.release == "auto" then [] else [("odoo_version: auto", "odoo_version: " ++
    r.release)])

def Request.copy (r : Request) (target : String) (file : String × String) : Session Bool := do
  let source := Path.child r.templates file.1
  if (← get).holds source then copyFile source (Path.child target file.2) r.dryRun r.force
  else
    tell .failed ("Source not found: " ++ source)
    return false

/-- Sets up a repository; says whether all files were copied. -/
def Request.setUp (r : Request) (path : String) (quiet : Bool) : Session Bool := do
  let target := Path.child (← get).cwd path
  if !(← get).holds target then
    tell .failed ("Target path does not exist: " ++ target)
    return false
  if !quiet then
    printTitle ("🚀 " ++ dryRunText r.dryRun ++ "Setting up: " ++ Path.name target) []
  removeOldFiles target r.dryRun
  let copied ← (copies r.localHooks).mapM (r.copy target)
  let settings := Path.child target settingsFile
  if (← get).holds settings && !r.replacements.isEmpty then
    discard (editFile settings r.replacements r.dryRun)
  discard (installHooks target r.dryRun)
  if !quiet then
    Session.printLine ("\n  Summary: " ++ toString (copied.count true) ++ " copied, " ++
      toString (copied.count false) ++ " failed")
  return copied.all id

/-! ## §2. The version in one repository -/

/-- The version that hooks are set to unless another one is given. -/
def currentVersion : String := "v1.0.1"

/-- Sets the version of the hooks in a repository; says whether that changes any file. -/
def pinRepository (path version : String) (dryRun quiet : Bool) : Session Bool := do
  let target := Path.child (← get).cwd path
  if !(← get).holds target then
    tell .failed ("Target not found: " ++ target)
    return false
  let inHooks ← pinFile (Path.child target hooksFile) version dryRun
  let inWorkflow ← pinFile (Path.child target workflowFile) version dryRun
  let changed := inHooks || inWorkflow
  if !changed && !quiet then tell .skipped "No version references found to update"
  return changed

/-! ## §3. Many repositories -/

/-- What is told about work on many repositories. -/
structure Batch where
  /-- The title, which depends on how many there are. -/
  title : Nat → String
  details : List String := []
  /-- What stands before the name of each repository. -/
  caption : String := ""
  onSuccess : Option (Icon × String) := none
  onFailure : Option (Icon × String) := none
  successWord : String := "Completed"
  /-- What is told at the end about failures. -/
  failureLine : Nat → String := fun n => "❌ Failed: " ++ toString n ++ " repositories"

/-- The repositories that a list names: its lines without blanks around them, but no comments. -/
def listed (text : String) : List String :=
  ((Text.linesOf text).filter fun l => Text.strip l != "" && !Text.startsWith l "#").map Text.strip

def Batch.step (b : Batch) (work : String → Session Bool) (path : String) : Session Bool := do
  Session.printLine ("\n📂 " ++ b.caption ++ Path.name path)
  let ok ← work path
  if let some (icon, text) := if ok then b.onSuccess else b.onFailure then tell icon text
  return ok

/-- Works on all repositories that a file names. -/
def Batch.run (b : Batch) (file : String) (work : String → Session Bool) : Session Exit := do
  let file := Path.tidy file
  if !(← get).holds file then
    Session.printLine ("❌ Repos file not found: " ++ file)
    return some 1
  let paths := listed (← Session.readText file)
  printTitle ("🔄 " ++ b.title paths.length) b.details
  let results ← paths.mapM (b.step work)
  let failures := results.count false
  Session.printLine ("\n" ++ titleRule)
  Session.printLine ("✅ " ++ b.successWord ++ ": " ++ toString (results.count true) ++ "/" ++
    toString paths.length ++ " repositories")
  if 0 < failures then Session.printLine (b.failureLine failures)
  Session.printLine (titleRule ++ "\n")
  return none

/-- The end of a title that counts repositories. -/
def inRepositories (n : Nat) : String := " in " ++ toString n ++ " repositories"

/-- What is told about installing hooks again. -/
def reinstallBatch (dryRun : Bool) : Batch where
  title n := dryRunText dryRun ++ "Reinstalling hooks" ++ inRepositories n
  onSuccess := some (.done, "Done")

/-- What is told about looking for newer hooks. -/
def updateBatch (dryRun : Bool) : Batch where
  title n := dryRunText dryRun ++ "Running autoupdate" ++ inRepositories n

/-- What is told about setting versions. -/
def pinBatch (version : String) (dryRun : Bool) : Batch where
  title n := dryRunText dryRun ++ "Updating version to " ++ version ++ inRepositories n
  onSuccess := some (.done, "Updated to " ++ version)
  onFailure := some (.skipped, "No changes needed")
  successWord := "Updated"
  failureLine n := "⏭️  Skipped: " ++ toString n ++ " repositories (already up to date)"

/-- What is told about setting up. -/
def Request.batch (r : Request) : Batch where
  title n := dryRunText r.dryRun ++ "Batch setup for " ++ toString n ++ " repositories"
  details := [
    "  Scope:        " ++ r.scope,
    "  Odoo Version: " ++ r.release,
    "  Mode:         " ++ (if r.localHooks then "local (monorepo)" else "remote (GitHub)"),
    "  Templates:    " ++ r.templates]
  caption := "Processing: "
  onSuccess := some (.done, "Done")
  onFailure := some (.failed, "Failed")

end AddonAudit.Setup
