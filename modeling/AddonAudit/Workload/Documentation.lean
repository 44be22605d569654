/-
  AddonAudit.Workload.Documentation — workloads that measure how much is documented.
-/
import AddonAudit.Coverage.Command
import AddonAudit.Workload.Checks

namespace AddonAudit.Workload

open Coverage

def numbers (ns : List Nat) : List Datum := ns.map fun (n : Nat) => .int n

def shareOf (part whole : Nat) : Datum := .float (percent part whole)

/-- The shares of documented methods, of labels and of help. -/
def sharesOf (t : Tally) : List Datum :=
  [shareOf t.documented t.methods, shareOf t.labelled t.fields, shareOf t.helped t.fields]

/-! ## §1. Models -/

def modelFields : Nat := 10

def modelMethods : Nat := 8

def shownModels : Nat := 3

def modelRow (m : ModelMetrics) : Datum :=
  let t := m.tally
  .list ([m.modelName] ++ sharesOf t ++
    numbers [t.methods, t.documented, t.fields, t.labelled, t.helped])

/-- Measures the sources of models, as one addon and as two. -/
def modelMetrics (folder : String) (count : Int) : Session Workload := do
  let sources ← writeAll folder ((List.range count.toNat).map fun (i : Nat) =>
    ("m" ++ toString i ++ ".py", Sample.modelText i modelFields modelMethods))
  return do
    let readings ← Session.ofExcept (Model.readSources (← get) sources)
    let addon := ofDeclarations standardPolicy "bench_module" folder (Model.declarations readings)
    let both : Summary := { addons := [addon, addon] }
    let (t, u) := (addon.tally, both.tally)
    return .list (
      numbers [addon.models.length] ++ [.list ((addon.models.take shownModels).map modelRow)] ++
      numbers [addon.models.length, t.fields, t.methods, t.documented] ++ sharesOf t ++
      numbers [t.labelled, t.helped, addon.models.length, both.modelCount, u.fields, u.methods,
        u.documented, u.labelled, u.helped] ++ sharesOf u)

/-! ## §2. Addons that are refused -/

/-- Makes an addon that has nothing but a manifest. -/
def bareAddon (folder name manifest : String) : Session String := do
  let path := Path.child folder name
  let _ ← writeAll path [("__init__.py", ""), ("__manifest__.py", manifest)]
  return path

def askForReadme (config : Config) (path : String) : Session Unit := do
  let (a, config) ← Addon.load config path none
  let _ ← Check.readme.run {} config a { settings := config.settings }

/-! ## §3. Changed files -/

/-- Asks which files changed; the answer does not matter. -/
def askForChanges (c : Changes) : Session Unit := do
  let (files, _) ← c.get
  let _ ← Session.ofExcept files

/-- Asks for staged files; a program that does not exist has none. -/
def askForStaged : Session Unit := do
  match ← Session.attempt (runIfAble stagedCommand) with
  | .ok _ => return
  | .error f => if f.isNoProgram then return else throw f

def missingBranch : String := "origin/nonexist_branch_xyz"

/-- Asks for changes in all contexts, one after another. -/
def exploreChanges : Session Unit := do
  silently do askForChanges (← Changes.start .null)
  askForStaged
  askForStaged
  let _ ← Context.detect
  let _ ← Changes.start .null
  let c ← Changes.start .null
  let _ ← c.ensureBase
  c.note "bench"
  within [("CI", "true"), ("SOLT_BASE_BRANCH", "main")] do
    let c ← Changes.start .null
    askForChanges c
    c.note "ci"
    let c ← Changes.start (.text missingBranch)
    let _ ← c.ensureBase
    askForChanges c
  let c ← Changes.start (.text previousCommit)
  askForChanges { c with context := .unknown }
  askForChanges { c with context := .desk }

/-! ## §4. Addons -/

/-- How many sources a sample addon has. -/
def addonModels : Nat := 3

def addonRow (a : AddonMetrics) : Datum :=
  .list ([.text a.name] ++ numbers [a.models.length, a.tally.fields] ++ sharesOf a.tally)

/-- Measures an addon several times, after addons that are refused and questions for changes. -/
def addonMetrics (folder : String) (count : Int) : Session Workload := do
  let settings ← Session.ofExcept (Settings.ofDatum
    (Sample.tableOf [("validation_scope", .text "full")]))
  let config : Config := { settings }
  let path ← Sample.build folder "bench_module" { models := addonModels }
  askForReadme config (← bareAddon folder "not_installable"
    "\x7b'name': 'x', 'installable': False\x7d")
  askForReadme config (← bareAddon folder "broken_manifest" "\x7b'name': ")
  exploreChanges
  return do
    let measured ← measureAll config (List.replicate count.toNat path)
    let summary : Summary := { addons := measured.map (·.1) }
    let t := summary.tally
    return .list ([.int summary.modelCount, t.methodShare, t.labelShare] ++
      summary.addons.map addonRow)

end AddonAudit.Workload
