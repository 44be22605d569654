/-
  AddonAudit.Workload.Named — workloads by name.
-/
import AddonAudit.Workload.Branches
import AddonAudit.Workload.Documentation
import AddonAudit.Workload.Reports

namespace AddonAudit.Workload

/-- A workload that can be prepared. -/
structure Kind where
  name : String
  parameter : String
  prepare : (folder : String) → (size : Int) → Session Workload

def kinds : List Kind := [
  ⟨"branch_validate", "n_branches", fun _ => branchVerdicts⟩,
  ⟨"coverage_metrics", "n_modules", addonMetrics⟩,
  ⟨"doc_coverage", "n_models", modelMetrics⟩,
  ⟨"po_checks", "n_entries", catalogChecks⟩,
  ⟨"python_checks", "n_files", sourceChecks⟩,
  ⟨"result_printer", "n_check_names", fun _ => reportLooks⟩,
  ⟨"xml_checks", "n_files", recordChecks⟩]

def kind? (name : String) : Option Kind := kinds.find? (·.name == name)

end AddonAudit.Workload
