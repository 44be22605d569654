/-
  AddonAudit.Setup.Command — the command that sets up repositories.
-/
import AddonAudit.Setup.Repository

namespace AddonAudit.Setup

def usage : Options.Usage where
  program := "setup-repo.py"
  parameters := [
    { key := "path", arity := .optional },
    { key := "batch", names := ["--batch"] },
    { key := "scope", names := ["--scope"], choices := some ["changed", "full"] },
    { key := "release", names := ["--odoo-version"], choices := some ["auto", "17.0", "18.0", "19.0"] },
    { key := "dry_run", names := ["--dry-run"], arity := .flag },
    { key := "local", names := ["--local"], arity := .flag },
    { key := "no_force", names := ["--no-force"], arity := .flag },
    { key := "pin", names := ["--update-only"], arity := .flag },
    { key := "version", names := ["--version"] },
    { key := "clean", names := ["--clean"], arity := .flag },
    { key := "reinstall", names := ["--reinstall-hooks"], arity := .flag },
    { key := "update", names := ["--autoupdate"], arity := .flag }]

/-- Works on the repositories of a list, or else on a single one. -/
def onOneOrMany (values : Options.Values) (mode : String) (batch : Batch)
    (quietly loudly : String → Session Bool) : Session Exit := do
  match (values.text? "batch").filter (· != ""), (values.text? "path").filter (· != "") with
  | some file, _ => batch.run file quietly
  | none, some path =>
    discard (loudly path)
    return none
  | none, none => usage.refuse (mode ++ " requires a path or --batch")

/-- How the arguments want repositories to be set up. -/
def requestOf (toolFolder : String) (values : Options.Values) : Request where
  templates := templatesFolder toolFolder
  scope := (values.text? "scope").getD "changed"
  release := (values.text? "release").getD "auto"
  dryRun := values.isSet "dry_run"
  localHooks := values.isSet "local"
  force := !values.isSet "no_force"

/-- Sets up the repositories of a list, or a single one, but not both. -/
def setUpOneOrMany (r : Request) (values : Options.Values) : Session Exit := do
  match (values.text? "batch").filter (· != ""), (values.text? "path").filter (· != "") with
  | some _, some _ => usage.refuse "Cannot use both --batch and a single path"
  | none, none => usage.refuse "Either provide a path or use --batch"
  | some file, none => r.batch.run file (r.setUp · true)
  | none, some path =>
    discard (r.setUp path false)
    return none

/-- Sets up repositories, or looks after those that are. -/
def command (toolFolder : String) (arguments : List String) : Session Exit :=
  usage.run arguments fun values => do
    let dryRun := values.isSet "dry_run"
    if values.isSet "clean" then
      discard (cleanCache dryRun)
      return none
    if values.isSet "reinstall" then
      return ← onOneOrMany values "--reinstall-hooks" (reinstallBatch dryRun)
        (reinstallHooks · dryRun true) (reinstallHooks · dryRun false)
    if values.isSet "update" then
      return ← onOneOrMany values "--autoupdate" (updateBatch dryRun)
        (updateRepositoryHooks · dryRun) (updateRepositoryHooks · dryRun)
    if values.isSet "pin" then
      let version := (values.text? "version").getD currentVersion
      return ← onOneOrMany values "--update-only" (pinBatch version dryRun)
        (pinRepository · version dryRun true) (pinRepository · version dryRun false)
    setUpOneOrMany (requestOf toolFolder values) values

end AddonAudit.Setup
