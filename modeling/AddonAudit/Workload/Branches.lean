/-
  AddonAudit.Workload.Branches — a workload that judges branch names.
-/
import AddonAudit.Branch.Verdict
import AddonAudit.Workload.Basic

namespace AddonAudit.Workload

/-- Names of branches, most of them against the policy in one way or another. -/
def branchNames : List String := [
  "feature-17.0-SOLT-123-something", "feature/17-thing", "hotfix/18-urgently", "release/17.0.x.0",
  "main", "temp", "development", "feature/login",
  "feature/SOLT-123-login", "Feature/17.0-SOLT-123-login", "unknown/17.0-some-bug",
  "feature/17.1-SOLT-9-menu", "17.0-unknown-description", "fix_17.0_login", "fix", "revert-a-menu"]

/-- The section of settings for branch names. -/
def branchSection : Datum :=
  Sample.tableOf [("protected_branches", .list [.text "integration", .text "qa"])]

/-- What tickets start with in strict mode. -/
def strictTickets : Datum := .list [.text "SOLT", .text "PROJ"]

/-- Judges names: whether a name is valid, how long the message is, and how long it is in strict
    mode for a name that is not. -/
def branchVerdicts (count : Int) : Session Workload := do
  let flexible ← Session.ofExcept (Branch.Policy.ofSection .null (some false) branchSection)
  let strict ← Session.ofExcept (Branch.Policy.ofSection strictTickets (some true) branchSection)
  let _ ← Branch.current
  let _ ← Branch.current
  let names := (List.range count.toNat).map fun i => branchNames.getD (i % branchNames.length) ""
  return do
    let parts ← names.mapM fun name => do
      let verdict ← Session.ofExcept (flexible.judge name)
      let refusal ← Session.ofExcept (Branch.errorMessage strict name)
      return [Datum.bool verdict.valid, .int verdict.message.length, .int refusal.length]
    return .list parts.flatten

end AddonAudit.Workload
