/-
  AddonAudit.Coverage.Command — a coverage report of addons without an audit.

  Only source files in the scope are read, and only those of addons that can be installed.
-/
import AddonAudit.Audit.Check
import AddonAudit.Coverage.Summary

namespace AddonAudit.Coverage

/-- An addon's metrics with what checks on its sources count, and the configuration afterwards. -/
def measureAddon (config : Config) (path : String) : Session (AddonMetrics × Report × Config) := do
  let (a, config) ← Addon.load config path none
  let report : Report := { settings := config.settings }
  let measured (ds : List Model.Declaration) : AddonMetrics :=
    ofDeclarations standardPolicy a.name a.folder ds
  if (Check.sources.refusal? a).isSome then return (measured [], report, config)
  match ← a.allInScope config Check.sources.extensions with
  | (.error f, _) => throw f
  | (.ok files, config) =>
    let w ← get
    let found ← Session.ofExcept (Check.sources.findings w config.settings a files)
    let readings ← Session.ofExcept (Model.readSources w (files.map (·.path)))
    return (measured (Model.declarations readings), report.addAll found, config)

def measureAll (config : Config) : List String → Session (List (AddonMetrics × Report))
  | [] => return []
  | path :: rest => do
    let (m, r, config) ← measureAddon config path
    return (m, r) :: (← measureAll config rest)

/-- Writes the coverage of addons to a file. -/
def report (paths : List String) (output : String) (configPath : Option String) :
    Session Summary := do
  let config ← Config.load configPath
  let measured ← measureAll config paths
  let total (s : Severity) : Nat := (measured.map (·.2.count s)).foldr (· + ·) 0
  let summary : Summary := {
    addons := measured.map (·.1)
    issues := { errors := total .error, warnings := total .warning, info := total .info } }
  summary.save output
  return summary

end AddonAudit.Coverage
