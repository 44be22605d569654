/-
  AddonAudit.Commands — all commands by name.
-/
import AddonAudit.Audit.Command
import AddonAudit.Badge.Command
import AddonAudit.Benchmark.Command
import AddonAudit.Branch.Command
import AddonAudit.Readme.Command
import AddonAudit.Setup.Command

namespace AddonAudit

/-- The folder of the set-up command, next to which its templates are, as seen from the current
    folder. -/
def setupFolder : String := "scripts"

def commands : List (String × (List String → Session Exit)) := [
  ("check", Audit.command),
  ("branch", Branch.command),
  ("badges", Badge.command),
  ("readme", Readme.command),
  ("setup", Setup.command setupFolder),
  ("measure", fun _ => Benchmark.command)]

/-- Runs the command that stands first on a command line. -/
def runCommand : List String → Session Exit
  | name :: arguments =>
    match commands.find? (·.1 == name) with
    | some (_, command) => command arguments
    | none => refuse
  | [] => refuse
where
  refuse : Session Exit := do
    Session.warnLine ("commands: " ++ ", ".intercalate (commands.map (·.1)))
    return some usageExit

/-- What a command line leaves behind: the exit code and the world.  A fault is told on the error
    channel. -/
def runCommandLine (arguments : List String) (w : World) : Int × World :=
  match runCommand arguments w with
  | .ok exit w => (exit.getD 0, w)
  | .error f w =>
    (1, { w with log := { w.log with err := w.log.err ++ f.title ++ ": " ++ f.message ++ "\n" } })

end AddonAudit
