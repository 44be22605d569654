/-
  AddonAudit.Model.Checks — checks on the models, fields and methods of source files.

  A source file that cannot be read as source is a finding of its own and declares nothing.
-/
import AddonAudit.Model.Policy
import AddonAudit.Model.Survey

namespace AddonAudit.Model

/-! ## §1. The files and their declarations -/

/-- A class of a file with all that was found under its name. -/
structure Declaration where
  file : String
  model : ModelInfo
  fields : List FieldInfo
  methods : List MethodInfo

/-- What reading a source file gave. -/
inductive Reading where
  | read (survey : Survey)
  /-- The file is no valid source, from a line on if it is known. -/
  | malformed (line : Option Nat)

/-- The survey of a reading; a malformed file declares nothing. -/
def Reading.survey : Reading → Survey
  | .read s => s
  | .malformed _ => {}

/-- Reads a source file; what is no program is told of. -/
def readSource (w : World) (file : String) : Except Fault Reading := do
  match Source.readModule (← w.readText file) with
  | .ok body => return .read (Model.survey body)
  | .error fault => return .malformed fault.line?

/-- What a source file declares, class by class. -/
def declarationsOf (file : String) (s : Survey) : List Declaration :=
  s.models.map fun (name, m) => ⟨file, m, Groups.get name s.fields, Groups.get name s.methods⟩

/-- Records a declaration; one of the same class and file gives way in its place. -/
def setDeclaration (d : Declaration) : List Declaration → List Declaration
  | [] => [d]
  | e :: rest =>
    if e.file == d.file && e.model.name == d.model.name then d :: rest
    else e :: setDeclaration d rest

/-- What all source files declare. -/
def declarations (readings : List (String × Reading)) : List Declaration :=
  (readings.flatMap fun (file, r) => declarationsOf file r.survey).foldl
    (fun ds d => setDeclaration d ds) []

/-- The finding of a file that is no valid source. -/
def sourceFinding? : String × Reading → Option Finding
  | (file, .malformed line) =>
    let shown := (line.map toString).getD "None"
    some ⟨"python_syntax_error", file ++ ":" ++ shown ++ " invalid syntax"⟩
  | (_, .read _) => none

/-! ## §2. Checks on fields -/

/-- A finding at a line of a declaration's file. -/
def Declaration.finding (d : Declaration) (check : String) (line : Nat) (text : String) : Finding :=
  ⟨check, d.file ++ ":" ++ toString line ++ " " ++ text⟩

def filled? (s : Option String) : Option String := s.filter (· != "")

def fieldNames (fs : List FieldInfo) : String := ", ".intercalate (fs.map (·.name))

/-- Two or more fields of a class with the same label. -/
def duplicateLabels (d : Declaration) : List Finding :=
  (Groups.of (fun f : FieldInfo => filled? f.label) d.fields).filterMap fun (label, fs) =>
    match fs with
    | first :: _ :: _ =>
      some (d.finding "python_duplicate_field_label" first.line
        ("Fields (" ++ fieldNames fs ++ ") have the same label: \"" ++ label ++ "\""))
    | _ => none

/-- Fields of one computation that disagree on its rights. -/
def inconsistentSudo (d : Declaration) : List Finding :=
  (Groups.of (fun f : FieldInfo => if f.compute.truthy then some f.compute else none)
      d.fields).filterMap fun (compute, fs) =>
    match fs with
    | first :: second :: rest =>
      if (second :: rest).any (fun f => !(f.computeSudo == first.computeSudo)) then
        some (d.finding "python_inconsistent_compute_sudo" first.line
          ("Inconsistent 'compute_sudo' for fields (" ++ fieldNames fs ++ ") using compute='" ++
            compute.shown ++ "'"))
      else none
    | _ => none

/-- Related fields must not repeat a selection. -/
def selectionOnRelated (d : Declaration) : List Finding :=
  d.fields.filterMap fun f =>
    if f.related.truthy && f.hasSelection then
      some (d.finding "python_selection_on_related" f.line
        ("Field \"" ++ f.name ++ "\" is related but has selection (will be ignored)"))
    else none

/-- Fields that a check on their attributes looks at: public, not skipped and not related. -/
def needsAttribute (skip : List Datum) (f : FieldInfo) : Bool :=
  !isPrivateName f.name && !Datum.hasText skip f.name && !f.related.truthy

/-- Fields of a model without a label. -/
def missingLabels (p : Policy) (d : Declaration) : List Finding :=
  if !d.model.isModel then []
  else (d.fields.filter fun f => needsAttribute p.skipLabel f && (filled? f.label).isNone).map
    fun f =>
    d.finding "python_field_missing_string" f.line
      ("Field \"" ++ f.name ++ "\" is missing string attribute")

/-- Fields of a model without help. -/
def missingHelp (p : Policy) (d : Declaration) : List Finding :=
  if !d.model.isModel then []
  else (d.fields.filter fun f => needsAttribute p.skipHelp f && (filled? f.help).isNone).map
    fun f =>
    d.finding "python_field_missing_help" f.line
      ("Field \"" ++ f.name ++ "\" is missing help attribute")

/-! ## §3. Checks on methods -/

/-- Public methods of a model without a docstring. -/
def missingDocstrings (p : Policy) (d : Declaration) : List Finding :=
  if !d.model.isModel then []
  else (d.methods.filter fun m =>
      !isPrivateName m.name && !Datum.hasText p.skipDocstring m.name && m.docstring.isNone).map
        fun m =>
    d.finding "python_method_missing_docstring" m.line
      ("Public method \"" ++ m.name ++ "\" is missing docstring")

/-- Whether a docstring only repeats the name of its method. -/
def isUninformative (name docstring : String) : Bool :=
  Text.dropTrailing (· == '.') (Text.lower (Text.strip docstring)) ==
    Text.lower (Text.strip (Text.replace name "_" " "))

/-- What is wrong with a docstring. -/
def docstringFindings (p : Policy) (d : Declaration) (m : MethodInfo) (docstring : String) :
    Except Fault (List Finding) :=
  match natLess? (Text.strip docstring).length p.minDocstring with
  | none => .error (.notComparable .less "int" p.minDocstring.kind)
  | some short =>
    .ok ((if short then
        [d.finding "python_docstring_too_short" m.line
          ("Method \"" ++ m.name ++ "\" has too short docstring (min " ++ p.minDocstring.shown ++
            " chars)")]
      else []) ++
      (if isUninformative m.name docstring then
        [d.finding "python_docstring_uninformative" m.line
          ("Method \"" ++ m.name ++ "\" has uninformative docstring")]
      else []))

/-- Docstrings of public methods of a model that say too little. -/
def poorDocstrings (p : Policy) (d : Declaration) : Except Fault (List Finding) :=
  if !d.model.isModel then .ok []
  else do
    let found ← d.methods.mapM fun m =>
      match m.docstring with
      | some s => if isPrivateName m.name then .ok [] else docstringFindings p d m s
      | none => .ok []
    return found.flatten

/-! ## §4. All checks -/

/-- All checks on declarations. -/
def checkDeclarations (p : Policy) (ds : List Declaration) : Except Fault (List Finding) := do
  let poor ← ds.mapM (poorDocstrings p)
  return poor.flatten ++ ds.flatMap duplicateLabels ++ ds.flatMap (missingHelp p) ++
    ds.flatMap (missingLabels p) ++ ds.flatMap inconsistentSudo ++
    ds.flatMap (missingDocstrings p) ++
    ds.flatMap selectionOnRelated

/-- Reads the source files in order. -/
def readSources (w : World) (files : List String) : Except Fault (List (String × Reading)) :=
  files.mapM fun f => do return (f, ← readSource w f)

/-- Checks source files and what they declare. -/
def checkSources (w : World) (p : Policy) (files : List String) : Except Fault Findings := do
  let readings ← readSources w files
  let found ← checkDeclarations p (declarations readings)
  return Findings.ofList (readings.filterMap sourceFinding? ++ found)

end AddonAudit.Model
