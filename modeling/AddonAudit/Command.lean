/-
  AddonAudit.Command — what all commands share.

  A command reads its arguments, works in a session and ends with an exit code, or with none if it
  runs to its end.
-/
import AddonAudit.Options
import AddonAudit.Workspace.World

namespace AddonAudit

/-- The exit code of a command; none if it runs to its end. -/
abbrev Exit := Option Int

/-- Exit code of a command that was called in a wrong way. -/
def usageExit : Int := 2

/-- Says that a command was called in a wrong way. -/
def Options.Usage.refuse (u : Options.Usage) (message : String) : Session Exit := do
  Session.warnLine (u.program ++ ": error: " ++ message)
  return some usageExit

/-- Runs the body of a command on its arguments. -/
def Options.Usage.run (u : Options.Usage) (arguments : List String)
    (body : Options.Values → Session Exit) : Session Exit :=
  match u.read arguments with
  | .ok values => body values
  | .error .help => return some 0
  | .error (.problem p) => u.refuse p.message
  | .error (.fault f) => throw f

end AddonAudit
