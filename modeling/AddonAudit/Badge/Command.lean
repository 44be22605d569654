/-
  AddonAudit.Badge.Command — the command that makes badges from a coverage report.
-/
import AddonAudit.Badge.Basic
import AddonAudit.Command
import AddonAudit.Json

namespace AddonAudit.Badge

/-- Replaces the badges in a file, and says whether it did. -/
def updateFile (path badges : String) : Session Bool := do
  let path := Path.tidy path
  if !(← get).holds path then
    Session.printLine ("README not found: " ++ path)
    return false
  match replaced? (← Session.readText path) badges with
  | none =>
    Session.printLine "Badge markers not found in README"
    Session.printLine "Add the following markers to your README:"
    Session.printLine startMark
    Session.printLine endMark
    return false
  | some text =>
    Session.writeText path text
    Session.printLine ("✅ Updated badges in " ++ path)
    return true

def usage : Options.Usage where
  program := "generate-badges.py"
  parameters := [
    { key := "report_file" },
    { key := "readme", names := ["--readme"] },
    { key := "format", names := ["--format"], choices := some ["markdown", "html"] },
    { key := "output", names := ["--output"] }]

/-- Makes badges from a coverage report. -/
def command (arguments : List String) : Session Exit :=
  usage.run arguments fun values => do
    let path := Path.tidy ((values.text? "report_file").getD "")
    if !(← get).holds path then
      Session.warnLine ("Error: Report file not found: " ++ path)
      return some 1
    let report ← Session.ofExcept (Json.read (← Session.readText path))
    let badges ← Session.ofExcept
      (if values.text? "format" == some "html" then html report else markdown report)
    match (values.text? "output").filter (· != "") with
    | some output =>
      Session.writeText (Path.tidy output) badges
      Session.printLine ("✅ Badges written to " ++ output)
    | none => Session.printLine badges
    if let some readme := (values.text? "readme").filter (· != "") then
      discard (updateFile readme badges)
    return none

end AddonAudit.Badge
