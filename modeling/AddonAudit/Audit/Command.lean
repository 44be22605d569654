/-
  AddonAudit.Audit.Command — the command that audits addons.

  Paths may be folders of addons or files; without paths the staged files tell the addons, or else
  the current folder is taken.
-/
import AddonAudit.Audit.Detection
import AddonAudit.Audit.Run
import AddonAudit.Command

namespace AddonAudit.Audit

/-- The options of the command. -/
def usage : Options.Usage where
  program := "solt-check-odoo"
  parameters := [
    { key := "paths", arity := .any },
    { key := "xml", names := ["--check-xml-only"], arity := .flag },
    { key := "csv", names := ["--check-csv-only"], arity := .flag },
    { key := "po", names := ["--check-po-only"], arity := .flag },
    { key := "python", names := ["--check-python-only"], arity := .flag },
    { key := "config", names := ["--config"] },
    { key := "show_info", names := ["--show-info"], arity := .flag },
    { key := "scope", names := ["--scope"], choices := some ["changed", "full"] },
    { key := "odoo_version", names := ["--odoo-version"], choices := some (Release.supported ++ ["auto"]) },
    { key := "quiet", names := ["-q", "--quiet"], arity := .flag },
    { key := "no_limit", names := ["--no-limit"], arity := .flag },
    { key := "max_messages", names := ["--max-messages"], isWhole := true },
    { key := "json_report", names := ["--json-report"] },
    { key := "show_all_modules", names := ["--show-all-modules"], arity := .flag }]

/-- What the lines of the command start with. -/
def lineStart : String := "[solt-check-odoo] "

/-- The request that arguments make, without its paths. -/
def requestOf (values : Options.Values) : Request where
  manner := {
    verbose := !values.isSet "quiet"
    mode := ["xml", "csv", "po", "python"].find? values.isSet }
  config := values.text? "config"
  showInfo := values.isSet "show_info"
  scope := values.text? "scope"
  reportPath := values.text? "json_report"
  showAll := values.isSet "show_all_modules"
  release := (values.text? "odoo_version").filter (· != "auto")
  limit := if values.isSet "no_limit" then none else values.whole? "max_messages"

/-- Names the addons that were detected. -/
def announce (verbose : Bool) (addons : List String) (source : String) : Session Unit := do
  if verbose then
    Session.printLine (lineStart ++ "Detected " ++ toString addons.length ++ " module(s) from " ++
      source)
    addons.forM fun a => Session.printLine ("  -> " ++ Path.name a)

/-- The addons of paths; none if the paths are files that belong to none. -/
def addonsOfPaths (verbose : Bool) (paths : List String) : Session (Option (List String)) := do
  let w ← get
  if !Detection.areFiles w paths then return some paths
  match Detection.addonsOf w paths with
  | [] =>
    if verbose then Session.printLine (lineStart ++ "No Odoo modules detected from provided files")
    return none
  | addons =>
    announce verbose addons (toString paths.length ++ " file(s)")
    return some addons

/-- The addons of the staged files, or the current folder. -/
def addonsStaged (verbose : Bool) : Session (List String) := do
  match ← Detection.stagedAddons with
  | some (a :: as) =>
    if verbose then
      let count := (← Detection.stagedPaths).length
      announce verbose (a :: as) (toString count ++ " staged file(s)")
    return a :: as
  | _ => return ["."]

/-- Audits the addons that the arguments name. -/
def command (arguments : List String) : Session Exit :=
  usage.run arguments fun values => do
    let q := requestOf values
    let paths := (values.texts? "paths").getD []
    let addons ← if paths.isEmpty then do pure (some (← addonsStaged q.manner.verbose))
      else addonsOfPaths q.manner.verbose paths
    match addons with
    | none => return some 0
    | some addons =>
      if q.manner.verbose then
        if let some v := q.release then Session.printLine (lineStart ++ "Using Odoo version: " ++ v)
      return some (← run { q with paths := addons }).exitCode

end AddonAudit.Audit
