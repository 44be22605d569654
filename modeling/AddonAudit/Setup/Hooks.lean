/-
  AddonAudit.Setup.Hooks — running the program that manages hooks.
-/
import AddonAudit.Setup.Files

namespace AddonAudit.Setup

/-- The program that manages hooks. -/
def manager : String := "pre-commit"

def sourceAddress : String := "https://github.com/soltein-net/solt-pre-commit"

/-- Runs the manager in a folder; `failure` tells what a failed run was to do, in what icon and
    whether the run's own error text is shown. -/
def manage (arguments : List String) (folder : Option String) (icon : Icon) (failure : String)
    (ownText : Bool) (success : ProcessResult → Session Unit) : Session Bool := do
  let argv := manager :: arguments
  match ← Session.attempt (Session.run argv folder) with
  | .ok r =>
    if r.code == 0 then
      success r
      return true
    let text := if ownText && r.err != "" then r.err else (Fault.commandFailed argv r.code).message
    tell icon (failure ++ ": " ++ text)
    return false
  | .error (.noProgram _) =>
    tell .warning "pre-commit not found. Install with: pip install pre-commit"
    return false
  | .error f => throw f

def installHooks (target : String) (dryRun : Bool) : Session Bool := do
  if dryRun then
    tell .planned "Would run: pre-commit install"
    return true
  manage ["install"] (some target) .warning "Failed to install hooks" false fun _ =>
    tell .done "Pre-commit hooks installed"

/-- Empties the manager's cache. -/
def cleanCache (dryRun : Bool) : Session Bool := do
  if dryRun then
    tell .planned "Would run: pre-commit clean"
    return true
  tell .cleaning "Cleaning pre-commit cache..."
  manage ["clean"] none .failed "Failed to clean cache" false fun r => do
    tell .done "Pre-commit cache cleaned"
    let text := Text.strip r.out
    if text != "" then Session.printLine ("      " ++ text)

/-- Has the manager look for newer hooks. -/
def updateHooks (target address : String) (dryRun : Bool) : Session Bool := do
  if dryRun then
    tell .planned ("Would run: pre-commit autoupdate --repo " ++ address)
    return true
  manage ["autoupdate", "--repo", address] (some target) .failed "Autoupdate failed" true
    fun r => do
    let text := Text.strip r.out
    let lower := Text.lower text
    if Text.contains lower "updating" then tell .done ((Text.splitAt '\n' text).headD "")
    else if Text.contains lower "already up to date" then tell .unchanged "Already up to date"
    else tell .done "Autoupdate completed"

/-- The absolute path of a repository that exists and has hooks. -/
def withHooks? (path : String) : Session (Option String) := do
  let w ← get
  let target := Path.child w.cwd path
  if !w.holds target then
    tell .failed ("Target not found: " ++ target)
    return none
  if !w.holds (Path.child target hooksFile) then
    tell .skipped ("No .pre-commit-config.yaml in " ++ Path.name target)
    return none
  return some target

/-- Installs the hooks of a repository again. -/
def reinstallHooks (path : String) (dryRun quiet : Bool) : Session Bool := do
  match ← withHooks? path with
  | none => return false
  | some target =>
    if dryRun then
      if !quiet then
        tell .planned ("Would run: pre-commit install --install-hooks in " ++ Path.name target)
      return true
    manage ["install", "--install-hooks"] (some target) .failed "Failed to reinstall hooks" true
      fun _ => do
      if !quiet then tell .done ("Hooks reinstalled in " ++ Path.name target)

/-- Has the manager look for newer hooks of a repository. -/
def updateRepositoryHooks (path : String) (dryRun : Bool) : Session Bool := do
  match ← withHooks? path with
  | none => return false
  | some target => updateHooks target sourceAddress dryRun

end AddonAudit.Setup
