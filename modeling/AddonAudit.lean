import AddonAudit.Coverage.Outline
import AddonAudit.Main
import AddonAudit.Package
import AddonAudit.Proofs.Addon.Exclusion
import AddonAudit.Proofs.Addon.Relocation
import AddonAudit.Proofs.Audit.Detection
import AddonAudit.Proofs.Audit.Docstrings
import AddonAudit.Proofs.Audit.Grading
import AddonAudit.Proofs.Audit.Modes
import AddonAudit.Proofs.Audit.Totals
import AddonAudit.Proofs.Audit.Verdict
import AddonAudit.Proofs.Badge.Encoding
import AddonAudit.Proofs.Badge.Section
import AddonAudit.Proofs.Branch.Reported
import AddonAudit.Proofs.Branch.Samples
import AddonAudit.Proofs.Checks.Fields
import AddonAudit.Proofs.Checks.OldVariables
import AddonAudit.Proofs.Checks.Priorities
import AddonAudit.Proofs.Json
import AddonAudit.Proofs.Model.Sites
import AddonAudit.Proofs.Placeholder.Braces
import AddonAudit.Proofs.Placeholder.Printf
import AddonAudit.Proofs.Release.Deprecation
import AddonAudit.Proofs.Release.Version
import AddonAudit.Proofs.Report.Limits
import AddonAudit.Proofs.Settings.Entries
import AddonAudit.Proofs.Setup.DryRun
import AddonAudit.Proofs.Setup.Release
import AddonAudit.Proofs.Setup.Repinning
import AddonAudit.Workload.Named
