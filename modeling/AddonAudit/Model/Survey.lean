/-
  AddonAudit.Model.Survey — the models, fields and methods that a source file declares.

  A survey walks the statements of a file in order and remembers the class that it is in.  Every
  class becomes a model; calls that make fields and function definitions are listed under the
  current class.  Leaving a class leaves no class at all, also when it stands inside another one.
-/
import AddonAudit.Findings
import AddonAudit.Release.Version
import AddonAudit.Source.Reader

namespace AddonAudit.Model

open Source (Expr Stmt)

/-! ## §1. What is recorded -/

/-- A class with what it declares about itself. -/
structure ModelInfo where
  name : String
  line : Nat
  /-- The model's own name, absent or any constant. -/
  modelName : Datum := .null
  inherits : List Datum := []
  description : Datum := .null
  /-- Whether it inherits from a model with a message thread. -/
  hasMailThread : Bool := false
  isModel : Bool := false

/-- A field of a model. -/
structure FieldInfo where
  name : String
  /-- The type of the field, such as `Char`. -/
  type : String
  line : Nat
  label : Option String := none
  help : Option String := none
  related : Datum := .null
  compute : Datum := .null
  computeSudo : Datum := .null
  tracking : Datum := .null
  hasSelection : Bool := false
  /-- The model at the other end of a relation. -/
  comodel : Option String := none

/-- A method of a model. -/
structure MethodInfo where
  name : String
  line : Nat
  docstring : Option String := none
  decorators : List String := []

/-- Names that start with an underscore are private. -/
def isPrivateName (name : String) : Bool := Text.startsWith name "_"

/-- Names that start and end with two underscores are magic. -/
def isMagicName (name : String) : Bool := Text.startsWith name "__" && Text.endsWith name "__"

/-- What a file declares, everything by the name of its class. -/
structure Survey where
  models : List (String × ModelInfo) := []
  fields : Groups String FieldInfo := []
  methods : Groups String MethodInfo := []

/-! ## §2. Models -/

/-- The constants that an inheritance declaration lists. -/
def inheritedFrom : Expr → List Datum
  | .constant _ d => [d]
  | .list _ items =>
    items.filterMap fun
      | .constant _ d => some d
      | _ => none
  | _ => []

/-- What one assignment to a name in a class body declares. -/
def declare (target : String) (value : Expr) (m : ModelInfo) : ModelInfo :=
  if target == "_inherit" then { m with inherits := inheritedFrom value, isModel := true }
  else match value with
    | .constant _ d =>
      if target == "_name" then { m with modelName := d, isModel := true }
      else if target == "_description" then { m with description := d }
      else m
    | _ => m

/-- What a statement of a class body declares. -/
def declareStmt (m : ModelInfo) : Stmt → ModelInfo
  | .assign _ targets value =>
    targets.foldl
      (fun m t =>
        match t with
        | .name _ id => declare id value m
        | _ => m)
      m
  | _ => m

/-- Base classes that make a class a model. -/
def modelBases : List String := ["Model", "TransientModel", "AbstractModel"]

/-- Whether a base class makes a class a model. -/
def isModelBase : Expr → Bool
  | .attribute _ _ attr => modelBases.contains attr
  | _ => false

/-- What a class says about its model. -/
def modelOf (line : Nat) (name : String) (bases : List Expr) (body : List Stmt) : ModelInfo :=
  let m := body.foldl declareStmt { name, line }
  { m with
    isModel := m.isModel || bases.any isModelBase
    hasMailThread := Release.mailMixins.any (Datum.hasText m.inherits) }

/-- Records a model; a class of the same name gives way in its place. -/
def setModel (name : String) (m : ModelInfo) : List (String × ModelInfo) → List (String × ModelInfo)
  | [] => [(name, m)]
  | (n, old) :: rest => if n == name then (n, m) :: rest else (n, old) :: setModel name m rest

/-! ## §3. Methods -/

/-- The text that opens a function body. -/
def docstringOf : List Stmt → Option String
  | .expr _ (.constant _ (.text s)) :: _ => some s
  | _ => none

/-- The name of a decorator. -/
def decoratorName : Expr → Option String
  | .name _ id => some id
  | .attribute _ _ attr => some attr
  | .call _ (.name _ id) _ _ => some id
  | .call _ (.attribute _ _ attr) _ _ => some attr
  | _ => none

/-- What is noted of a method. -/
def methodOf (line : Nat) (name : String) (decorators : List Expr) (body : List Stmt) :
    MethodInfo :=
  { name, line, docstring := docstringOf body, decorators := decorators.filterMap decoratorName }

/-! ## §4. Fields -/

def fieldTypes : List String :=
  ["Char", "Text", "Html", "Integer", "Float", "Monetary", "Boolean", "Date", "Datetime", "Binary",
   "Selection", "Many2one", "One2many", "Many2many", "Reference", "Image", "Json", "Properties",
   "PropertiesDefinition"]

/-- Field types whose first argument is the model at the other end. -/
def isRelational (type : String) : Bool := ["Many2one", "One2many", "Many2many"].contains type

/-- Functions that mark a text for translation. -/
def isTranslator : Expr → Bool
  | .name _ id => id == "_" || id == "_lt"
  | .attribute _ _ attr => attr == "_" || attr == "_lt"
  | _ => false

/-- The text of an expression: a constant, a constant marked for translation, or a name that stands
    for one. -/
def textOf : Expr → Option String
  | .constant _ (.text s) => some s
  | .call _ func (.constant _ (.text s) :: _) _ => if isTranslator func then some s else none
  | .name _ id => some id
  | _ => none

/-- The type of a field, by the call that makes it. -/
def fieldTypeOf : Expr → Option String
  | .attribute _ (.name _ "fields") attr => if fieldTypes.contains attr then some attr else none
  | .name _ id => if fieldTypes.contains id then some id else none
  | _ => none

/-- What positional arguments say about a field. -/
def positional (f : FieldInfo) : List Expr → FieldInfo
  | [] => f
  | first :: rest =>
    match textOf first with
    | none => f
    | some s =>
      if isRelational f.type then
        { f with comodel := some s, label := rest.head?.bind textOf }
      else { f with label := some s }

/-- What an argument says about a field. -/
def keyword (f : FieldInfo) : Option String × Expr → FieldInfo
  | (some "string", v) => { f with label := (textOf v).or f.label }
  | (some "help", v) => { f with help := (textOf v).or f.help }
  | (some "related", .constant _ d) => { f with related := d }
  | (some "compute", .constant _ d) => { f with compute := d }
  | (some "compute", .name _ id) => { f with compute := .text id }
  | (some "compute_sudo", .constant _ d) => { f with computeSudo := d }
  | (some "compute_sudo", _) => { f with computeSudo := .null }
  | (some "tracking", .constant _ d) => { f with tracking := d }
  | (some "tracking", _) => { f with tracking := .bool true }
  | (some "selection", _) => { f with hasSelection := true }
  | (some "comodel_name", v) => { f with comodel := (textOf v).or f.comodel }
  | _ => f

/-- The field that an assignment of a value to a name makes. -/
def fieldOf? (line : Nat) (name : String) : Expr → Option FieldInfo
  | .call _ func args keywords =>
    (fieldTypeOf func).map fun type => keywords.foldl keyword (positional { name, type, line } args)
  | _ => none

/-- The fields that an assignment makes, one for each target that is a name. -/
def fieldsOf (line : Nat) (targets : List Expr) (value : Expr) : List FieldInfo :=
  targets.filterMap fun
    | .name _ id => fieldOf? line id value
    | _ => none

/-! ## §5. The walk -/

/-- The current class and what was found so far. -/
structure Walk where
  current : Option String := none
  survey : Survey := {}

/-- Records a method of the current class. -/
def Walk.addMethod (w : Walk) (m : MethodInfo) : Walk :=
  match w.current with
  | some c => { w with survey := { w.survey with methods := Groups.add c m w.survey.methods } }
  | none => w

/-- Records fields of the current class. -/
def Walk.addFields (w : Walk) (fs : List FieldInfo) : Walk :=
  match w.current with
  | some c =>
    { w with
      survey := { w.survey with fields := fs.foldl (fun g f => Groups.add c f g) w.survey.fields } }
  | none => w

/-- Enters a class. -/
def Walk.enter (w : Walk) (name : String) (m : ModelInfo) : Walk :=
  { current := some name, survey := { w.survey with models := setModel name m w.survey.models } }

mutual
def walkStmt (w : Walk) : Stmt → Walk
  | .classDef line name bases _ body =>
    { walkBody (w.enter name (modelOf line name bases body)) body with current := none }
  | .functionDef line name decorators body =>
    walkBody (w.addMethod (methodOf line name decorators body)) body
  | .assign line targets value => w.addFields (fieldsOf line targets value)
  | .compound _ body => walkBody w body
  | .expr _ _ => w
  | .simple _ => w

def walkBody (w : Walk) : List Stmt → Walk
  | [] => w
  | s :: rest => walkBody (walkStmt w s) rest
end

/-- All classes, methods and fields of a program. -/
def survey (body : List Stmt) : Survey := (walkBody {} body).survey

end AddonAudit.Model
