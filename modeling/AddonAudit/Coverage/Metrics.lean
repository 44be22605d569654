/-
  AddonAudit.Coverage.Metrics — how much of a code base is documented.

  Methods count as documented when they have a docstring, fields when they have a label or help.  A
  tally counts both; the tally of a whole is the sum of the tallies of its parts.
-/
import AddonAudit.Datum
import AddonAudit.Decimal.Fixed

namespace AddonAudit.Coverage

/-- A method that counts. -/
structure MethodMetrics where
  name : String
  documented : Bool
  isPublic : Bool
  length : Nat

/-- A field that counts. -/
structure FieldMetrics where
  name : String
  type : Datum
  labelled : Bool
  helped : Bool
  isRelated : Bool

/-- A model with its methods and fields. -/
structure ModelMetrics where
  className : Datum
  modelName : Datum
  file : Datum
  methods : List MethodMetrics
  fields : List FieldMetrics

/-- An addon with its models. -/
structure AddonMetrics where
  name : String
  path : String
  models : List ModelMetrics

/-- How many methods and fields there are, and how many of them are documented. -/
structure Tally where
  methods : Nat := 0
  documented : Nat := 0
  fields : Nat := 0
  labelled : Nat := 0
  helped : Nat := 0
  deriving DecidableEq

/-- Two tallies in one. -/
def Tally.add (a b : Tally) : Tally :=
  ⟨a.methods + b.methods, a.documented + b.documented, a.fields + b.fields, a.labelled + b.labelled,
    a.helped + b.helped⟩

/-- Many tallies in one. -/
def Tally.sum (ts : List Tally) : Tally := ts.foldl Tally.add {}

/-- The tally of a model: public methods, and fields that are not related. -/
def ModelMetrics.tally (m : ModelMetrics) : Tally :=
  let methods := m.methods.filter (·.isPublic)
  let fields := m.fields.filter fun f => !f.isRelated
  { methods := methods.length
    documented := methods.countP (·.documented)
    fields := fields.length
    labelled := fields.countP (·.labelled)
    helped := fields.countP (·.helped) }

/-- The tally of all models of an addon. -/
def AddonMetrics.tally (a : AddonMetrics) : Tally := Tally.sum (a.models.map (·.tally))

/-- A share in percent; all of nothing is everything. -/
def percent (part whole : Nat) : Float :=
  if whole == 0 then 100.0 else part.toFloat / whole.toFloat * 100.0

/-- A share in percent with one decimal place. -/
def roundedPercent (part whole : Nat) : Datum := .float (Decimal.roundPlaces 1 (percent part whole))

namespace Tally

/-- The share of methods with a docstring. -/
def methodShare (t : Tally) : Datum := roundedPercent t.documented t.methods

/-- The share of fields with a label. -/
def labelShare (t : Tally) : Datum := roundedPercent t.labelled t.fields

/-- The share of fields with help. -/
def helpShare (t : Tally) : Datum := roundedPercent t.helped t.fields

end Tally

end AddonAudit.Coverage
