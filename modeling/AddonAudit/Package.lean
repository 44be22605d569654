/-
  AddonAudit.Package — what the hooks are packed as.

  The description of the package is fixed but for three parts: the text that describes it, the
  packages of code in its source folder and what it requires.
-/
import AddonAudit.Datum
import AddonAudit.Workspace.World

namespace AddonAudit.Package

/-! ## §1. Packages of code -/

/-- Whether a folder with a name is a package: it holds a file `__init__.py` and has no dot in its
    name. -/
def isPackage (name : String) (e : Entry) : Bool :=
  !name.toList.contains '.' && ((e.member? "__init__.py").map Entry.isFile).getD false

/-- The names of the packages right inside a folder. -/
def innerPackages (lead : String) (ms : List (String × Entry)) : List String :=
  (ms.filter fun (n, e) => isPackage n e).map (lead ++ ·.1)

mutual
/-- The packages inside a folder: first those right inside it, then those inside each of these. -/
def packages (lead : String) : Entry → List String
  | .file _ => []
  | .folder ms => innerPackages lead ms ++ packagesBelow lead ms

/-- The packages inside each of some members. -/
def packagesBelow (lead : String) : List (String × Entry) → List String
  | [] => []
  | (n, e) :: rest =>
    (if isPackage n e then packages (lead ++ n ++ ".") e else []) ++ packagesBelow lead rest
end

def sourcePackages (w : World) : List String :=
  match w.find "src" with
  | .ok e => packages "" e
  | .error _ => []

/-! ## §2. Requirements -/

/-- The requirements in a text: its lines without blanks around them, but no comments. -/
def requirementsOf (cs : List Char) : List String :=
  ((Text.feedLines cs).filter fun l => !(Text.stripChars l).isEmpty && l.head? != some '#').map
    fun l => String.ofList (Text.stripChars l)

def requirements (w : World) : Except Fault (List String) := do
  let (cs, fault) ← w.readPieces .utf8 "requirements.txt"
  match fault with
  | some f => throw f
  | none => return requirementsOf (Text.unifyNewlines cs)

/-! ## §3. The description -/

/-- What users and versions the package is for. -/
def classifiers : List String := [
  "Development Status :: 5 - Production/Stable",
  "Intended Audience :: Developers",
  "License :: OSI Approved :: GNU Lesser General Public License v3 or later (LGPLv3+)",
  "Operating System :: OS Independent",
  "Programming Language :: Python :: 3",
  "Programming Language :: Python :: 3.10",
  "Programming Language :: Python :: 3.11",
  "Programming Language :: Python :: 3.12",
  "Topic :: Software Development :: Quality Assurance",
  "Framework :: Odoo"]

/-- The commands of the package and where they start. -/
def commands : List String := [
  "solt-check-odoo=solt_pre_commit.checks_odoo_module:main",
  "solt-check-branch=solt_pre_commit.checks_branch_name:main"]

def tableOf (es : List (String × Datum)) : Datum := .table (es.map fun (k, v) => (.text k, v))

def listOf (xs : List String) : Datum := .list (xs.map .text)

/-- The description of the package in the current folder. -/
def description (w : World) : Except Fault Datum := do
  let readme ← w.readText "README.md"
  let packages := sourcePackages w
  let requirements ← requirements w
  return tableOf [
    ("name", .text "solt-pre-commit"),
    ("version", .text "1.0.0"),
    ("license", .text "LGPL-3.0-or-later"),
    ("description", .text
      "Custom pre-commit hooks for Odoo module validation - Soltein (supports Odoo 17.0, 18.0, 19.0)"),
    ("long_description", .text readme),
    ("long_description_content_type", .text "text/markdown"),
    ("author", .text "Soltein SA de CV"),
    ("author_email", .text "dev@soltein.mx"),
    ("url", .text "https://github.com/soltein-net/solt-pre-commit"),
    ("packages", listOf packages),
    ("package_dir", tableOf [("", .text "src")]),
    ("include_package_data", .bool true),
    ("zip_safe", .bool false),
    ("classifiers", listOf classifiers),
    ("python_requires", .text ">=3.10"),
    ("install_requires", listOf requirements),
    ("entry_points", tableOf [("console_scripts", listOf commands)])]

end AddonAudit.Package
