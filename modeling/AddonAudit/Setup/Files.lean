/-
  AddonAudit.Setup.Files — the files that a repository gets.

  Every step is told in a line with an icon.  A dry run tells the steps and takes none.
-/
import AddonAudit.Setup.Pin
import AddonAudit.Workspace.World

namespace AddonAudit.Setup

/-! ## §1. Telling steps -/

/-- The icons of steps. -/
inductive Icon where
  | done
  | renewed
  | planned
  | edited
  | removed
  | skipped
  | unchanged
  | cleaning
  | warning
  | failed

def Icon.symbol : Icon → String
  | .done => "✅"
  | .renewed => "🔄"
  | .planned => "📄"
  | .edited => "✏️ "
  | .removed => "🗑️ "
  | .skipped => "⏭️ "
  | .unchanged => "✓ "
  | .cleaning => "🧹"
  | .warning => "⚠️ "
  | .failed => "❌"

def tell (icon : Icon) (text : String) : Session Unit :=
  Session.printLine ("  " ++ icon.symbol ++ " " ++ text)

/-- Prints a heading between thin lines. -/
def printHeading (text : String) : Session Unit := do
  Session.printLine ("\n" ++ Text.times "─" 60)
  Session.printLine ("  " ++ text)
  Session.printLine (Text.times "─" 60)

def titleRule : String := Text.times "=" 60

/-- Prints a title with details between thick lines. -/
def printTitle (title : String) (details : List String) : Session Unit := do
  Session.printLine ("\n" ++ titleRule)
  Session.printLine title
  Session.printLine titleRule
  if !details.isEmpty then
    details.forM Session.printLine
    Session.printLine titleRule

/-- What the title of a dry run starts with. -/
def dryRunText (dryRun : Bool) : String := if dryRun then "DRY RUN - " else ""

/-! ## §2. Copying and editing -/

/-- Copies a file and makes the folders above it; says whether it is there afterwards. -/
def copyFile (source target : String) (dryRun force : Bool) : Session Bool := do
  let w ← get
  if !w.holds source then
    tell .warning ("Source not found: " ++ source)
    return false
  let there := w.holds target
  if there && !force then
    tell .skipped ("Skipped (exists): " ++ Path.name target)
    return false
  if dryRun then
    tell .planned ("Would " ++ (if there then "overwrite" else "create") ++ ": " ++ target)
    return true
  match ← Session.attempt (do
      Session.ensureFolder (Path.parent target)
      Session.copyFile source target) with
  | .ok _ =>
    if there then tell .renewed ("Updated: " ++ target) else tell .done ("Created: " ++ target)
    return true
  | .error f =>
    tell .failed ("Error copying " ++ Path.name source ++ ": " ++ f.message)
    return false

/-- A text after replacements one after another, and whether any part was found. -/
def replaceParts (text : String) (replacements : List (String × String)) : String × Bool :=
  replacements.foldl (fun (text, found) (part, by_) =>
    if Text.contains text part then (Text.replace text part by_, true)
    else (text, found)) (text, false)

/-- Replaces parts of a file; says whether any part was found. -/
def editFile (path : String) (replacements : List (String × String)) (dryRun : Bool) :
    Session Bool := do
  if !(← get).holds path then return false
  let (text, found) := replaceParts (← Session.readText path) replacements
  if found && !dryRun then
    Session.writeText path text
    tell .edited ("Updated: " ++ Path.name path)
  return found

/-! ## §3. What a repository gets -/

def settingsFile : String := ".solt-hooks.yaml"

def hooksFile : String := ".pre-commit-config.yaml"

def workflowFile : String := ".github/workflows/solt-validate.yml"

/-- Files that a repository no longer needs. -/
def oldFiles : List String := ["ruff.toml"]

def copies (localHooks : Bool) : List (String × String) := [
  (".pylintrc", ".pylintrc"),
  ("pyproject.toml", "pyproject.toml"),
  (settingsFile, settingsFile),
  (if localHooks then ".pre-commit-config-local.yaml" else ".pre-commit-config.yaml", hooksFile),
  ("github-workflows/solt-validate.yml", workflowFile)]

/-- Removes files that are no longer needed. -/
def removeOldFiles (target : String) (dryRun : Bool) : Session Unit :=
  oldFiles.forM fun file => do
    let path := Path.child target file
    if (← get).holds path then
      if dryRun then tell .removed ("Would remove: " ++ file)
      else
        Session.removeFile path
        tell .removed ("Removed: " ++ file)

/-! ## §4. Pinned versions -/

/-- Sets the versions that a file pins; says whether that changes it. -/
def pinFile (path version : String) (dryRun : Bool) : Session Bool := do
  if !(← get).holds path then return false
  let text ← Session.readText path
  let pinned ← Session.ofExcept (pinVersion version text)
  if pinned == text then return false
  if dryRun then tell .planned ("Would update version to " ++ version ++ " in " ++ Path.name path)
  else
    Session.writeText path pinned
    tell .edited ("Version updated to " ++ version ++ " in " ++ Path.name path)
  return true

end AddonAudit.Setup
