/-
  AddonAudit.Catalog.Checks — checks on message catalogs.

  A catalog that cannot be read is a finding.  In the others every entry in use is looked at, and
  messages that are defined more than once are reported.
-/
import AddonAudit.Addon.DataFile
import AddonAudit.Catalog.Reader
import AddonAudit.Findings
import AddonAudit.Placeholder.Braces
import AddonAudit.Placeholder.Printf

namespace AddonAudit.Catalog

/-! ## §1. One entry -/

/-- Whether a comment names the module that a message comes from. -/
def namesModule (comment : String) : Bool :=
  match Text.afterFront? "module".toList comment.toList with
  | none => false
  | some rest =>
    match if rest.head? == some 's' then rest.drop 1 else rest with
    | ':' :: ' ' :: c :: _ => Text.isWord c
    | _ => false

/-- The finding of an entry whose comment names no module. -/
def missingModule (path : String) (e : Entry) : List Finding :=
  if namesModule e.comment then []
  else [⟨"po_requires_module",
    place path e.line ++ " Translation requires comment '#. module: MODULE'"⟩]

/-- The finding of a translation that does not take the arguments of its message. -/
def misfitting (path : String) (e : Entry) : Except Fault (List Finding) :=
  if e.text == "" || !e.flags.contains "python-format" then .ok []
  else
    let finding (check kind cause : String) : Finding :=
      ⟨check, place path e.messageLine ++ " Translation parse error (" ++ kind ++ "): " ++ cause⟩
    match Printf.check e.id e.text with
    | .error m => .ok [finding "po_python_parse_printf" "printf" m.written]
    | .ok _ => do
      match ← Braces.check e.id e.text with
      | .error m => return [finding "po_python_parse_format" "format" m.written]
      | .ok _ => return []

/-- What is wrong with the placeholders of an entry. -/
def entryFindings (path : String) (e : Entry) : Except Fault (List Finding) := do
  return missingModule path e ++ (← misfitting path e)

/-! ## §2. Messages defined twice -/

/-- The beginning of a message, on one line. -/
def shortMessage (id : String) : String :=
  let head := Text.strip (String.ofList ((id.toList.take 40).filter fun c => c != '\n' &&
    c != '\t'))
  if 40 < id.length then head ++ "..." else head

/-- Entries with the same message are told of once. -/
def duplicate? (path : String) : List Entry → Option Finding
  | first :: second :: more =>
    some ⟨"po_duplicate_message_definition",
      place path first.messageLine ++ " Duplicate PO message \"" ++ shortMessage first.id ++
        "\" in lines " ++
        ", ".intercalate ((second :: more).map fun e => toString e.messageLine)⟩
  | _ => none

/-- The findings of messages that are defined more than once. -/
def duplicates (path : String) (es : List Entry) : List Finding :=
  (Groups.of (fun e : Entry => some e.id) es).filterMap fun (_, group) => duplicate? path group

/-! ## §3. All checks -/

/-- A catalog with its entries, or the finding that it cannot be read. -/
def open? (w : World) (path : String) : Except Fault (Except Finding (List Entry)) :=
  match read w path with
  | .ok es => .ok (.ok es)
  | .error f =>
    if f.isAccess then
      .ok (.error ⟨"po_syntax_error", path ++ " " ++
        Text.strip (Text.replace f.message (path ++ " ") "")⟩)
    else .error f

/-- What is found in the entries of a catalog. -/
def catalogFindings (path : String) (es : List Entry) : Except Fault (List Finding) := do
  let used := es.filter (!·.obsolete)
  let found ← used.mapM (entryFindings path)
  return found.flatten ++ duplicates path used

/-- Checks all catalogs, one after another. -/
def checkCatalogs (w : World) (files : List DataFile) : Except Fault Findings := do
  let opened ← files.mapM fun f => do return (f.path, ← open? w f.path)
  let unreadable := opened.filterMap fun (_, r) =>
    match r with
    | .error finding => some finding
    | .ok _ => none
  let found ← opened.mapM fun (path, r) =>
    match r with
    | .error _ => .ok []
    | .ok es => catalogFindings path es
  return Findings.ofList (unreadable ++ found.flatten)

end AddonAudit.Catalog
