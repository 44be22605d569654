/-
  AddonAudit.Workload.Checks — workloads that check sources, records and catalogs.

  Every file of a sample adds the same findings, so that the counts grow with the number of files.
-/
import AddonAudit.Catalog.Checks
import AddonAudit.Model.Checks
import AddonAudit.Workload.Basic
import AddonAudit.Xml.ViewChecks

namespace AddonAudit.Workload

/-- Writes texts into files of a folder and gives their paths. -/
def writeAll (folder : String) (texts : List (String × String)) : Session (List String) := do
  Session.ensureFolder folder
  texts.mapM fun (name, text) => do
    let path := Path.child folder name
    Session.writeText path text
    return path

def dataFile (path : String) : DataFile := ⟨path, Path.basename path, "data"⟩

/-! ## §1. Sources -/

/-- How many fields the model of a sample source has. -/
def sourceFields : Nat := 15

/-- How many methods the model of a sample source has. -/
def sourceMethods : Nat := 12

def shortSource : String := "\n".intercalate [
  "from odoo import fields, models",
  "",
  "class Short(models.Model):",
  "    _name = 'short.model'",
  "    amount = fields.Float(string='Amount')",
  "    total = fields.Float()",
  "",
  "    def act(self):",
  "        \"\"\"Go.\"\"\"",
  "        return 1",
  ""]

/-- Checks sample sources with a short one, and then without it. -/
def sourceChecks (folder : String) (count : Int) : Session Workload := do
  let sources ← writeAll folder ((List.range count.toNat).map fun (i : Nat) =>
    ("m" ++ toString i ++ ".py", Sample.modelText i sourceFields sourceMethods))
  let short ← writeAll folder [("short.py", shortSource)]
  return do
    let w ← get
    let check (files : List String) : Session (List Datum) := do
      return tallied (← Session.ofExcept (Model.checkSources w Model.Policy.standard files))
    return .list ((← check (sources ++ short)) ++ (← check sources))

/-! ## §2. Records -/

/-- How many records a sample file has. -/
def recordCount : Nat := 6

/-- Checks the records and then the views of sample files, two of which are broken. -/
def recordChecks (folder : String) (count : Int) : Session Workload := do
  let paths ← writeAll folder (
    (List.range count.toNat).map (fun (i : Nat) =>
      ("v" ++ toString i ++ ".xml", Sample.recordsText i recordCount)) ++
    [("bad.xml", "<odoo><record></odoo>"), ("empty.xml", "")])
  let files := paths.map dataFile
  return do
    let w ← get
    let records ← Session.ofExcept (Xml.checkDataFiles w "bench_module" files)
    let views ← Session.ofExcept (Xml.checkViewFiles w files)
    return .list (tallied records ++ tallied views)

/-! ## §3. Catalogs -/

/-- A message and a text for it with other placeholders; three kinds follow each other, and of every
    four messages two are the same. -/
def misfit (i : Nat) : String × String :=
  let n := toString (i / 4)
  match i % 3 with
  | 0 => ("Item %s of %d in " ++ n, "Elemento %s en " ++ n)
  | 1 => ("Item \x7bname\x7d in " ++ n, "Elemento \x7bother\x7d en " ++ n)
  | _ => ("Item %(name)s in " ++ n, "Elemento %(other)s en " ++ n)

/-- An entry of a catalog; every fourth one belongs to no module. -/
def misfitEntry (i : Nat) : String :=
  let (message, text) := misfit i
  (if i % 4 == 0 then "" else "#. module: bench_module\n") ++
    "#, python-format\nmsgid \"" ++ message ++ "\"\nmsgstr \"" ++ text ++ "\"\n\n"

/-- Checks a catalog with misfitting texts. -/
def catalogChecks (folder : String) (count : Int) : Session Workload := do
  let paths ← writeAll folder [("es.po",
    "msgid \"\"\nmsgstr \"\"\n\"Content-Type: text/plain; charset=UTF-8\\n\"\n\n" ++
      String.join (Sample.numbered count misfitEntry))]
  let files := paths.map dataFile
  return do
    return .list (tallied (← Session.ofExcept (Catalog.checkCatalogs (← get) files)))

end AddonAudit.Workload
