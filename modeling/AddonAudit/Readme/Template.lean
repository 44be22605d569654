/-
  AddonAudit.Readme.Template — the text that describes a new repository.
-/
import AddonAudit.Text.Basic

namespace AddonAudit

/-- What is known about a repository. -/
structure Readme where
  repository : String
  version : String
  description : String
  organization : String
  gistOwner : String
  gistId : String

namespace Readme

/-- The Python versions that releases need. -/
def pythonVersions : List (String × String) :=
  [("17.0", "3.10"), ("18.0", "3.10"), ("19.0", "3.12")]

/-- The Python version that the repository needs. -/
def pythonVersion (t : Readme) : String := (pythonVersions.lookup t.version).getD "3.12"

/-- What stands above the sections. -/
def headerText (t : Readme) : String :=
  "[![Docstring Coverage](https://img.shields.io/endpoint?url=https://gist.githubusercontent.com/" ++ t.gistOwner ++ "/" ++ t.gistId ++ "/raw/" ++ t.repository ++ "-" ++ t.version ++ "-docstrings.json)](https://github.com/" ++ t.organization ++ "/" ++ t.repository ++ "/actions/workflows/solt-validate.yml)
[![Validation Status](https://github.com/" ++ t.organization ++ "/" ++ t.repository ++ "/actions/workflows/solt-validate.yml/badge.svg?branch=" ++ t.version ++ ")](https://github.com/" ++ t.organization ++ "/" ++ t.repository ++ "/actions/workflows/solt-validate.yml)

<!-- /!\\ do not modify above this line -->
# " ++ t.repository ++ "
" ++ t.description ++ "

"

def modulesText : String :=
  "## Modules

| Module | Description |
|--------|-------------|
| `module_name` | Brief description of the module |

"

def requirementsText (t : Readme) : String :=
  "## Requirements

- Odoo " ++ t.version ++ "
- Python " ++ t.pythonVersion ++ "+
- Dependencies: `base`

"

def installationText (t : Readme) : String :=
  "## Installation

1. Clone this repository into your Odoo addons path:
   ```bash
   git clone https://github.com/" ++ t.organization ++ "/" ++ t.repository ++ ".git
   ```
2. Add the path to your Odoo configuration `addons_path`
3. Restart Odoo and update the apps list
4. Install the desired modules from the Apps menu

"

def configurationText : String :=
  "## Configuration

No additional configuration required after installation.

"

def usageText : String :=
  "## Usage

Describe the main workflow and how to use the modules.

"

/-- A row of the table of branch names. -/
structure BranchRow where
  type : String
  /-- Another type for the same purpose. -/
  other : Option String
  purpose : String
  /-- What follows the version in the example. -/
  finish : String

def BranchRow.sample (r : BranchRow) (version : String) :
    String := r.type ++ "/" ++ version ++ r.finish

def BranchRow.line (r : BranchRow) (version : String) : String :=
  "| `" ++ r.type ++ "`" ++ (match r.other with | some o => " / `" ++ o ++ "`" | none => "") ++
    " | " ++ r.purpose ++ " | `" ++ r.sample version ++ "` |\n"

def branchRows : List BranchRow := [
  ⟨"feature", none, "New functionality", "-add-invoice-export"⟩,
  ⟨"fix", none, "Bug fix", "-correct-tax-calc"⟩,
  ⟨"hotfix", none, "Urgent production fix", "-urgent-fix"⟩,
  ⟨"bugfix", none, "Non-urgent bug fix", "-missing-field"⟩,
  ⟨"imp", some "improvement", "Enhancement to existing feature", "-optimize-query"⟩,
  ⟨"refactor", none, "Code restructuring", "-split-model"⟩,
  ⟨"perf", none, "Performance improvement", "-cache-reports"⟩,
  ⟨"security", none, "Security patch", "-sanitize-input"⟩,
  ⟨"docs", none, "Documentation only", "-update-readme"⟩,
  ⟨"test", none, "Test additions or fixes", "-add-invoice-tests"⟩,
  ⟨"style", none, "Code style / formatting", "-pep8-cleanup"⟩,
  ⟨"ux", some "ui", "User experience / interface", "-improve-wizard"⟩,
  ⟨"chore", none, "Maintenance tasks", "-update-deps"⟩,
  ⟨"ci", some "build", "CI/CD or build changes", "-add-workflow"⟩,
  ⟨"deps", some "config", "Dependencies or config", "-upgrade-lib"⟩,
  ⟨"infra", some "ops", "Infrastructure / operations", "-docker-setup"⟩,
  ⟨"migration", none, "Version migration", "-from-16"⟩,
  ⟨"revert", none, "Revert a previous change", "-undo-export"⟩,
  ⟨"release", none, "Release branch", ".1.0"⟩,
  ⟨"release-candidate", none, "Pre-release validation", ".1.0-rc1"⟩]

def developmentText (t : Readme) : String :=
  "## Development

This repository uses [solt-pre-commit](https://github.com/soltein-net/solt-pre-commit) for code quality validation.

```bash
pip install pre-commit
pre-commit install
pre-commit run --all-files
```

### Branch Naming

All branches must include the Odoo version prefix (`<type>/<version>-description`):

| Type | Description | Example |
|------|-------------|---------|
" ++ String.join (branchRows.map (·.line t.version)) ++ "
### Commit Messages

```
[TAG] module_name: brief description

Detailed explanation if needed.
```

Tags: `[ADD]` new feature, `[FIX]` bugfix, `[IMP]` improvement, `[REF]` refactor, `[REM]` removal, `[DOC]` documentation

"

def licenseText : String :=
  "## License

This project is licensed under [LGPL-3.0-or-later](https://www.gnu.org/licenses/lgpl-3.0).

"

def creditsText : String :=
  "## Credits

**[Soltein SA de CV](https://soltein.mx)**
"

def text (t : Readme) : String :=
  headerText t ++ modulesText ++ requirementsText t ++ installationText t ++ configurationText ++
    usageText ++ developmentText t ++ licenseText ++ creditsText

end Readme

end AddonAudit
