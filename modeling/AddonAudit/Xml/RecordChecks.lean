/-
  AddonAudit.Xml.RecordChecks — checks on data files: records, their fields and the nodes around
  them.

  A file that is missing or malformed is a finding of its own and holds nothing.
-/
import AddonAudit.Addon.DataFile
import AddonAudit.Findings
import AddonAudit.Workspace.World
import AddonAudit.Xml.Reader

namespace AddonAudit.Xml

/-! ## §1. Files -/

/-- A file with its root element, or with the reason why it has none. -/
structure Document where
  file : DataFile
  root : Except Fault Element

/-- Reads a file.  Only a missing or malformed file is a result; any other fault is passed on. -/
def readDocument (w : World) (file : DataFile) : Except Fault Document :=
  match w.readBytes file.path with
  | .ok bytes =>
    match read? bytes with
    | some root => .ok ⟨file, .ok root⟩
    | none => .ok ⟨file, .error .malformedDocument⟩
  | .error (.missing p) => .ok ⟨file, .error (.missing p)⟩
  | .error f => .error f

/-- The root element of a file that could be read. -/
def Document.root? (d : Document) : Option Element := d.root.toOption

/-- The root element when it is one of an addon's data files. -/
def Document.dataRoot? (d : Document) : Option Element :=
  d.root?.filter fun e => e.isNamed "odoo" || e.isNamed "openerp"

def Document.finding (d : Document) (check : String) (e : Element) (text : String) : Finding :=
  ⟨check, place d.file.path e.line ++ " " ++ text⟩

/-- The finding of a file that could not be read. -/
def brokenFinding? (d : Document) : Option Finding :=
  match d.root with
  | .ok _ => none
  | .error f => some ⟨"xml_syntax_error", d.file.path ++ " " ++ f.message⟩

/-! ## §2. Single nodes -/

/-- A data node that is the only child of the root. -/
def loneDataNode (d : Document) : List Finding :=
  match d.dataRoot? with
  | some root =>
    if root.parts.length == 1 && (root.named "data").length == 1 then
      [d.finding "xml_deprecated_data_node" root "Use <odoo> instead of <odoo><data>"]
    else []
  | none => []

def oldRoot (d : Document) : List Finding :=
  match d.root? with
  | some root =>
    if root.isNamed "openerp" then
      [d.finding "xml_deprecated_openerp_xml_node" root "Deprecated <openerp> xml node, use <odoo>"]
    else []
  | none => []

/-- The attributes of some names that an element has, in order of the names. -/
def presentOf (names : List String) (e : Element) : List String := names.filter e.has

/-- Directives of templates that were given up, in order. -/
def oldDirectives : List String := ["t-esc-options", "t-field-options", "t-raw-options"]

/-- The elements inside elements of a name, each once, in document order. -/
def insideNamed (root : Element) (label : String) : List Element :=
  let inside := (root.descendants.filter (·.isNamed label)).flatMap fun t =>
    t.descendants.map (·.place)
  root.descendants.filter fun e => inside.contains e.place

/-- Directives in templates that were given up. -/
def oldDirectiveUses (d : Document) : List Finding :=
  match d.dataRoot? with
  | some root =>
    (insideNamed root "template").filterMap fun e =>
      match presentOf oldDirectives e with
      | [] => none
      | found =>
        some (d.finding "xml_deprecated_qweb_directive" e
          ("Deprecated QWeb directive \"" ++ ", ".intercalate found ++ "\". Use \"t-options\""))
  | none => []

/-- Whether a suffix is a point and letters; a line end may follow. -/
def isPlainSuffix (suffix : String) : Bool :=
  match suffix.toList with
  | '.' :: cs =>
    let letters := cs.takeWhile Char.isAlpha
    let rest := cs.drop letters.length
    !letters.isEmpty && (rest.isEmpty || rest == ['\n'])
  | _ => false

/-- Absolute resources whose suffix holds anything but letters. -/
def badLinks (d : Document) : List Finding :=
  match d.root? with
  | some root =>
    [("link", "href"), ("script", "src")].flatMap fun (label, attr) =>
      root.descendants.filterMap fun e =>
        match e.get? attr with
        | some resource =>
          let suffix := (Path.splitSuffix (Path.basename resource)).2
          if e.isNamed label && Path.isAbsolute resource && !isPlainSuffix suffix then
            some (d.finding "xml_not_valid_char_link" e "Resource contains invalid character")
          else none
        | none => none
  | none => []

/-! ## §3. Single records -/

/-- A record with its identifier and the element that it stands in. -/
structure Record where
  doc : Document
  /-- Which file of the list it stands in. -/
  index : Nat
  id : String
  element : Element
  parent : Element

def recordsOf (d : Document) (index : Nat) : List Record :=
  match d.dataRoot? with
  | some root =>
    root.placedDescendants.filterMap fun p =>
      match p.element.get? "id", p.parent with
      | some id, some parent =>
        if p.element.isNamed "record" then some ⟨d, index, id, p.element, parent⟩ else none
      | _, _ => none
  | none => []

def Record.finding (r : Record) (check text : String) :
    Finding := r.doc.finding check r.element text

def Record.isOf (r : Record) (model : String) : Bool := r.element.hasValue "model" model

def Record.fields (r : Record) : List Element := r.element.named "field"

/-- An identifier that starts with the addon's own name; more than one point is a fault. -/
def redundantName (addon : String) (r : Record) : Except Fault (List Finding) :=
  let report (front name : String) : List Finding :=
    if front == addon then
      [r.finding "xml_redundant_module_name"
        ("Redundant module name <record id=\"" ++ r.id ++ "\" better using only <record id=\"" ++
          name ++ "\"")]
    else []
  match Text.splitAt '.' r.id with
  | [front, name] => .ok (report front name)
  | _ :: _ :: _ => .error (.tooManyItems 2)
  | _ => .ok (report "" r.id)

/-- Attributes of lists that were given up, in order. -/
def oldTreeAttributes : List String := ["colors", "fonts", "string"]

/-- Lists in a view with attributes that were given up. -/
def oldTrees (r : Record) : List Finding :=
  if !r.isOf "ir.ui.view" then []
  else r.element.descendants.filterMap fun e =>
    match presentOf oldTreeAttributes e with
    | [] => none
    | found =>
      if e.isNamed "tree" then
        some (r.doc.finding "xml_deprecated_tree_attribute" e
          ("Deprecated \"<tree " ++ ", ".intercalate found ++ "=...\""))
      else none

/-- Users that are made without a word on their password. -/
def carelessUser (r : Record) : List Finding :=
  if r.isOf "res.users" && r.fields.any (·.hasValue "name" "name") &&
      !Text.contains (r.element.get "context" "") "no_reset_password" then
    [r.finding "xml_create_user_wo_reset_password"
      "record res.users without context=\"\x7b'no_reset_password': True\x7d\""]
  else []

/-- Filters with a name and no user, or the other way round. -/
def dangerousFilter (r : Record) : List Finding :=
  if r.isOf "ir.filters" &&
      (r.fields.filter fun f => f.hasValue "name" "name" ||
      f.hasValue "name" "user_id").length == 1 then
    [r.finding "xml_dangerous_filter_wo_user" "Dangerous filter without explicit \x60user_id\x60"]
  else []

def checkRecord (addon : String) (r : Record) : Except Fault (List Finding) := do
  let redundant ← redundantName addon r
  return redundant ++ oldTrees r ++ carelessUser r ++ dangerousFilter r

/-! ## §4. Repeated records and fields -/

/-- What makes two records the same: section, identifier and whether they are updated. -/
def Record.key (r : Record) : String :=
  r.doc.file.sectionName ++ "/" ++ r.id ++ "_noupdate_" ++ r.parent.get "noupdate" "0"

def Record.place (r : Record) : String := AddonAudit.place r.doc.file.path r.element.line

/-- Records that occur more than once. -/
def repeatedRecords (rs : List Record) : List Finding :=
  (Groups.of (fun r : Record => some r.key) rs).filterMap fun (key, same) =>
    match same with
    | first :: second :: rest =>
      some (first.finding "xml_duplicate_record_id"
        ("Duplicate xml record id \"" ++ key ++ "\" in " ++
          ", ".intercalate ((second :: rest).map Record.place)))
    | _ => none

/-- A field in a view or record with the element that it stands in. -/
structure PlacedField where
  doc : Document
  index : Nat
  name : String
  field : Element
  parent : Element

/-- What makes two fields the same: their attributes and the very element that they stand in. -/
structure FieldKey where
  name : String
  context : Option String
  filterDomain : Option String
  groups : Option String
  index : Nat
  parent : Nat
  deriving DecidableEq

def PlacedField.key (f : PlacedField) : FieldKey :=
  ⟨f.name, f.field.get? "context", f.field.get? "filter_domain", f.field.get? "groups", f.index,
    f.parent.place⟩

def Record.placed (r : Record) (parent field : Element) : List PlacedField :=
  match field.get? "name" with
  | some name => [⟨r.doc, r.index, name, field, parent⟩]
  | none => []

/-- The named fields of a record: its own, those one element deeper, and those of lists and forms in
    the latter, in document order. -/
def Record.allFields (r : Record) : List PlacedField :=
  r.fields.flatMap fun f =>
    r.placed r.element f ++ f.elements.flatMap fun c =>
      (c.named "field").flatMap fun g =>
        r.placed c g ++
          (g.elements.filter fun t => t.isNamed "tree" || t.isNamed "form").flatMap fun t =>
            (t.named "field").flatMap (r.placed t)

/-- The fields that may be repeated: those of records that inherit from no view. -/
def Record.countedFields (r : Record) : List PlacedField :=
  if r.fields.any (·.hasValue "name" "inherit_id") then [] else r.allFields

/-- Fields that occur more than once. -/
def repeatedFields (fs : List PlacedField) : List Finding :=
  (Groups.of (fun f : PlacedField => some f.key) fs).filterMap fun (key, same) =>
    match same with
    | first :: second :: rest =>
      some (first.doc.finding "xml_duplicate_fields" first.field
        ("Duplicate xml field \"" ++ key.name ++ "\" in lines " ++
          ", ".intercalate ((second :: rest).map fun f => toString f.field.line)))
    | _ => none

def checkRecords (addon : String) (rs : List Record) : Except Fault (List Finding) := do
  let single ← rs.mapM (checkRecord addon)
  return single.flatten ++ repeatedRecords rs ++ repeatedFields (rs.flatMap Record.countedFields)

/-! ## §5. All checks -/

def checkDocuments (addon : String) (ds : List Document) : Except Fault (List Finding) := do
  let records ← checkRecords addon (ds.zipIdx.flatMap fun (d, i) => recordsOf d i)
  return ds.filterMap brokenFinding? ++ ds.flatMap loneDataNode ++ ds.flatMap oldRoot ++
    ds.flatMap oldDirectiveUses ++ ds.flatMap badLinks ++ records

def checkDataFiles (w : World) (addon : String) (files : List DataFile) :
    Except Fault Findings := do
  let ds ← files.mapM (readDocument w)
  return Findings.ofList (← checkDocuments addon ds)

end AddonAudit.Xml
