/-
  AddonAudit.Branch.Command — the command that checks a branch name.
-/
import AddonAudit.Branch.Verdict
import AddonAudit.Command

namespace AddonAudit.Branch

/-- The options of the command. -/
def usage : Options.Usage where
  program := "solt-check-branch"
  parameters := [
    { key := "branch", arity := .optional },
    { key := "ticket_prefixes", names := ["--ticket-prefixes"], arity := .several },
    { key := "config", names := ["--config"] },
    { key := "strict", names := ["--strict"], arity := .flag },
    { key := "no_strict", names := ["--no-strict"], arity := .flag },
    { key := "quiet", names := ["-q", "--quiet"], arity := .flag },
    { key := "show_version", names := ["--show-version"], arity := .flag }]

/-- The branch to check: the one given or the current one; an empty name is none. -/
def chosen (given : Option String) : Session (Option String) := do
  match given with
  | some "" => go
  | some name => return some name
  | none => go
where
  go : Session (Option String) := do return (← current).filter (· != "")

/-- Prints the version in a name. -/
def showVersion (name : String) : Session Exit := do
  match versionOf name with
  | some v => Session.printLine ("Detected Odoo version: " ++ v)
  | none => Session.printLine "No Odoo version detected in branch name"
  return some 0

/-- Checks a branch name. -/
def command (arguments : List String) : Session Exit :=
  usage.run arguments fun values => do
    let strict := if values.isSet "strict" then some true
      else if values.isSet "no_strict" then some false
      else none
    let tickets := match values.texts? "ticket_prefixes" with
      | some ts => .list (textData ts)
      | none => .null
    let policy ← Session.ofExcept (Policy.load (← get) tickets (values.text? "config") strict)
    match ← chosen (values.text? "branch") with
    | none =>
      Session.warnLine "Error: Could not determine branch name"
      return some 1
    | some name =>
      if values.isSet "show_version" then showVersion name
      else
        let v ← Session.ofExcept (policy.judge name)
        if v.valid then
          if !values.isSet "quiet" then Session.printLine ("[OK] " ++ v.message)
          return some 0
        else
          Session.warnLine v.message
          return some 1

end AddonAudit.Branch
