/-
  AddonAudit.Sample.Addon — whole sample addons.
-/
import AddonAudit.Datum
import AddonAudit.Sample.Texts
import AddonAudit.Workspace.World

namespace AddonAudit.Sample

/-- The size of a sample addon. -/
structure Size where
  models : Int := 4
  fields : Int := 12
  methods : Int := 8
  recordFiles : Int := 4
  records : Int := 6
  rows : Int := 20
  messages : Int := 20
  version : String := "17.0.1.0.0"

def tableOf (es : List (String × Datum)) : Datum := .table (es.map fun (k, v) => (.text k, v))

/-- The files that the manifest of a sample addon names; the last one does not exist. -/
def dataFiles (s : Size) : List String :=
  numbered s.recordFiles (fun i => "views/v" ++ toString i ++ ".xml") ++
    ["views/bad.xml", "security/ir.model.access.csv", "data/nonexistent.csv"]

def manifest (name : String) (s : Size) : Datum := tableOf [
  ("name", .text name), ("version", .text s.version), ("installable", .bool true),
  ("data", .list ((dataFiles s).map .text)), ("demo", .list [])]

def files (name : String) (s : Size) : List (String × String) :=
  [("__init__.py", "from . import models\n"),
    ("__manifest__.py", (manifest name s).written),
    ("models/__init__.py", "")] ++
  (List.range s.models.toNat).map (fun (i : Nat) =>
    ("models/m" ++ toString i ++ ".py", modelText i s.fields s.methods)) ++
  [("models/broken.py", "def broken(:\n"),
    ("tests/test_excluded.py", "x = 1\n")] ++
  (List.range s.recordFiles.toNat).map (fun (i : Nat) =>
    ("views/v" ++ toString i ++ ".xml", recordsText i s.records)) ++
  [("views/bad.xml", "<odoo><record></odoo>"),
    ("security/ir.model.access.csv", tableText s.rows),
    ("i18n/es.po", catalogText s.messages),
    ("i18n/bad.po", "msgid \"x\nmsgstr \"y\"\n")]

def folders : List String := ["models", "views", "security", "i18n", "tests", "data"]

/-- Makes a sample addon in a folder and gives its path. -/
def build (folder name : String) (s : Size) : Session String := do
  let path := Path.child folder name
  folders.forM fun f => Session.ensureFolder (Path.child path f)
  (files name s).forM fun (file, text) => Session.writeText (Path.child path file) text
  return path

/-- The number of findings of every kind, in order of their names. -/
def counts (groups : List (String × Nat)) : List (String × Nat) :=
  groups.mergeSort fun a b => decide (a.1 ≤ b.1)

end AddonAudit.Sample
