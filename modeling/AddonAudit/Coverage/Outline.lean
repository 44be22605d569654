/-
  AddonAudit.Coverage.Outline — the metrics of classes that loosely typed data describe.

  An outline is a table about a class with lists of tables about its fields and methods.  What has
  to be in a table and is missing is a fault, but only once it is needed.
-/
import AddonAudit.Coverage.Analysis

namespace AddonAudit.Coverage

/-- A class as data describe it. -/
structure Outline where
  info : Datum
  fields : Datum
  methods : Datum

/-- The value of a key that a table may have. -/
def optional (key : String) : Datum → Except Fault (Option Datum)
  | .table es => .ok (Datum.lookupText key es)
  | d => .error (.noOperation d.kind "get")

/-- The value of a key that a table has to have. -/
def required (key : String) : Datum → Except Fault Datum
  | .table es =>
    match Datum.lookupText key es with
    | some d => .ok d
    | none => .error (.noKey (Text.quoted key))
  | .text _ => .error (.keyOfSequence true)
  | .list _ => .error (.keyOfSequence false)
  | d => .error (.notIndexed d.kind)

/-- Whether a table has a value that counts under a key. -/
def holdsValue (key : String) (d : Datum) : Except Fault Bool := do
  return ((← optional key d).getD .null).truthy

def nameIn (d : Datum) : Except Fault String := do
  match ← required "name" d with
  | .text s => return s
  | n => throw (.noOperation n.kind "startswith")

def lengthOf (d : Datum) : Except Fault Nat :=
  match d.parts with
  | .ok ps => .ok ps.length
  | .error _ => .error (.noLength d.kind)

def docstringLength (d : Datum) : Except Fault Nat := do
  let docstring := (← optional "docstring" d).getD .null
  if docstring.truthy then lengthOf docstring else return 0

def methodOf? (p : Model.Policy) (d : Datum) : Except Fault (Option MethodMetrics) := do
  let name ← nameIn d
  if !countsMethod p name then return none
  let _ ← required "lineno" d
  return some (methodMetrics name (← holdsValue "has_docstring" d) (← docstringLength d))

def fieldOf? (p : Model.Policy) (d : Datum) : Except Fault (Option FieldMetrics) := do
  let name ← nameIn d
  if !countsField name then return none
  let isRelated ← holdsValue "related" d
  let _ ← required "lineno" d
  let type ← required "type" d
  return some (fieldMetrics p name type isRelated (← holdsValue "string" d) (← holdsValue "help" d))

/-- The metrics of an outline; none if it describes no model. -/
def ofOutline? (p : Model.Policy) (o : Outline) : Except Fault (Option ModelMetrics) := do
  if !(← holdsValue "is_odoo_model" o.info) then return none
  let className ← required "name" o.info
  let modelName := (← optional "_name" o.info).getD .null
  let file := (← optional "filename" o.info).getD (.text "")
  let methods ← (← o.methods.parts).mapM (methodOf? p)
  let fields ← (← o.fields.parts).mapM (fieldOf? p)
  return some {
    className, file
    modelName := if modelName.truthy then modelName else className
    methods := methods.filterMap id
    fields := fields.filterMap id }

def ofOutlines (p : Model.Policy) (name path : String) (os : List Outline) :
    Except Fault AddonMetrics := do
  let models ← os.mapM (ofOutline? p)
  return ⟨name, path, (models.filterMap id).filter (·.counts)⟩

/-! ## Outlines in tables -/

/-- The outlines of tables of classes, fields and methods under the same keys. -/
def outlinesIn (models fields methods : Datum) : Except Fault (List Outline) := do
  match models with
  | .table es => es.mapM fun (key, info) => do
    return ⟨info, ← part key fields, ← part key methods⟩
  | d => throw (.noOperation d.kind "items")
where
  /-- The list under a key; none is an empty one. -/
  part (key : Datum) : Datum → Except Fault Datum
    | .table es => .ok ((Datum.lookup key es).getD (.list []))
    | d => .error (.noOperation d.kind "get")

/-- Records the outline of a class in a file; one of the same class and file gives way in its
    place. -/
def setOutline (key : String) (o : Outline) : List (String × Outline) → List (String × Outline)
  | [] => [(key, o)]
  | (k, p) :: rest => if k == key then (k, o) :: rest else (k, p) :: setOutline key o rest

/-- The outlines of the classes in the table of a file, by file and class. -/
def outlinesOfFile (file : Datum) (before : List (String × Outline)) :
    Except Fault (List (String × Outline)) := do
  let models := (← optional "models" file).getD (.table [])
  let fields := (← optional "fields" file).getD (.table [])
  let methods := (← optional "methods" file).getD (.table [])
  match models with
  | .table es =>
    es.foldlM (fun acc (name, info) => do
      let path ← required "filename" file
      match info with
      | .table entries =>
        let info := Datum.table (Datum.insert (.text "filename") path entries)
        return setOutline (path.shown ++ ":" ++ name.shown)
          ⟨info, ← outlinesIn.part name fields, ← outlinesIn.part name methods⟩ acc
      | d => throw (.noAssignment d.kind)) before
  | d => throw (.noOperation d.kind "items")

/-- The outlines of the classes in the tables of several files. -/
def outlinesOfFiles (files : List Datum) : Except Fault (List Outline) := do
  return (← files.foldlM (fun acc f => outlinesOfFile f acc) []).map (·.2)

end AddonAudit.Coverage
