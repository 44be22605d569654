/-
  AddonAudit.Coverage.Analysis — the metrics of declarations.

  Private methods and fields do not count, nor do methods that need no docstring.  A field that
  needs no label or no help counts as if it had one.  Models without anything that counts are left
  out.
-/
import AddonAudit.Coverage.Metrics
import AddonAudit.Model.Checks

namespace AddonAudit.Coverage

/-- What counts when there are no settings. -/
def standardPolicy : Model.Policy :=
  ⟨textData defaultSkipLabel, textData defaultSkipHelp, textData defaultSkipDocstring, .int 10⟩

/-- Whether a method counts: it is not private, and it needs a docstring. -/
def countsMethod (p : Model.Policy) (name : String) : Bool :=
  (!Text.startsWith name "_" || Text.startsWith name "__") && !Datum.hasText p.skipDocstring name

/-- Fields that start with an underscore do not count. -/
def countsField (name : String) : Bool := !Text.startsWith name "_"

/-- The metrics of a field by what is known about it. -/
def fieldMetrics (p : Model.Policy) (name : String) (type : Datum)
    (isRelated hasLabel hasHelp : Bool) : FieldMetrics where
  name := name
  type := type
  labelled := hasLabel || isRelated || Datum.hasText p.skipLabel name
  helped := hasHelp || isRelated || Datum.hasText p.skipHelp name
  isRelated := isRelated

/-- The metrics of a method by what is known about it. -/
def methodMetrics (name : String) (documented : Bool) (length : Nat) : MethodMetrics where
  name := name
  documented := documented
  isPublic := !Text.startsWith name "_"
  length := length

/-- A model counts if it has anything to count. -/
def ModelMetrics.counts (m : ModelMetrics) : Bool := !m.methods.isEmpty || !m.fields.isEmpty

/-- The metrics of a declaration, if it is a model. -/
def ofDeclaration? (p : Model.Policy) (d : Model.Declaration) : Option ModelMetrics :=
  if !d.model.isModel then none
  else some {
    className := .text d.model.name
    modelName := if d.model.modelName.truthy then d.model.modelName else .text d.model.name
    file := .text d.file
    methods := (d.methods.filter fun m => countsMethod p m.name).map fun m =>
      methodMetrics m.name m.docstring.isSome (m.docstring.getD "").length
    fields := (d.fields.filter fun f => countsField f.name).map fun f =>
      fieldMetrics p f.name (.text f.type) f.related.truthy (Model.filled? f.label).isSome
        (Model.filled? f.help).isSome }

/-- The metrics of an addon. -/
def ofDeclarations (p : Model.Policy) (name path : String) (ds : List Model.Declaration) :
    AddonMetrics :=
  ⟨name, path, (ds.filterMap (ofDeclaration? p)).filter (·.counts)⟩

end AddonAudit.Coverage
