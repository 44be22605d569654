/-
  AddonAudit.Readme.Command — the command that writes the description of a new repository.
-/
import AddonAudit.Command
import AddonAudit.Readme.Template

namespace AddonAudit.Readme

def usage : Options.Usage where
  program := "generate-readme.py"
  parameters := [
    { key := "repo" }, { key := "version" }, { key := "description" },
    { key := "org", names := ["--org"] },
    { key := "gist_id", names := ["--gist-id"] },
    { key := "gist_owner", names := ["--gist-owner"] },
    { key := "output", names := ["--output"] },
    { key := "dry_run", names := ["--dry-run"], arity := .flag }]

/-- What arguments say about a repository. -/
def ofValues (values : Options.Values) : Readme where
  repository := (values.text? "repo").getD ""
  version := (values.text? "version").getD ""
  description := (values.text? "description").getD ""
  organization := (values.text? "org").getD "soltein-net"
  gistOwner := (values.text? "gist_owner").getD "SolteinCorp"
  gistId := (values.text? "gist_id").getD "147d543a086f6735d1ffa02172766e86"

/-- Writes or prints the description of a new repository. -/
def command (arguments : List String) : Session Exit :=
  usage.run arguments fun values => do
    let t := ofValues values
    if values.isSet "dry_run" then
      Session.print t.text
      return none
    let path := Path.tidy ((values.text? "output").getD "README.md")
    Session.writeText path t.text
    Session.printLine ("Generated: " ++ path)
    Session.printLine ("  Repo:    " ++ t.organization ++ "/" ++ t.repository)
    Session.printLine ("  Version: " ++ t.version)
    Session.printLine "  Badges:  docstrings + validation status"
    return none

end AddonAudit.Readme
