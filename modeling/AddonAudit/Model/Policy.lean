/-
  AddonAudit.Model.Policy — what the checks on models are lenient about.
-/
import AddonAudit.Settings

namespace AddonAudit.Model

/-- What the checks are lenient about. -/
structure Policy where
  skipLabel : List Datum
  skipHelp : List Datum
  skipDocstring : List Datum
  minDocstring : Datum

/-- Fields that need neither label nor help when there are no settings. -/
def familiarFields : List String := "display_name" :: defaultSkipLabel

/-- What the checks are lenient about when there are no settings. -/
def Policy.standard : Policy :=
  ⟨textData familiarFields, textData familiarFields, textData defaultSkipDocstring, .int 10⟩

/-- What settings are lenient about.  The standard methods that need no docstring are among their
    own already. -/
def Policy.ofSettings (s : Settings) : Policy :=
  ⟨s.skipLabel, s.skipHelp, s.skipDocstring, s.minDocstring⟩

end AddonAudit.Model
