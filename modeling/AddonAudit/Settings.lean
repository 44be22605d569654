/-
  AddonAudit.Settings — what a settings file can say.

  Settings come from a YAML file.  A key that is missing takes its default; a value of a kind that
  cannot be used is a fault.
-/
import AddonAudit.Release.Version
import AddonAudit.Text.Wildcard
import AddonAudit.Workspace.World
import AddonAudit.Yaml.Value

namespace AddonAudit

/-! ## §1. Severities -/

/-- How grave a finding is. -/
inductive Severity where
  | error
  | warning
  | info
  deriving DecidableEq

def Severity.text : Severity → String
  | .error => "error"
  | .warning => "warning"
  | .info => "info"

def Severity.all : List Severity := [.error, .warning, .info]

def Severity.ofDatum? (d : Datum) :
    Option Severity := Severity.all.find? fun s => d.same (.text s.text)

/-! ## §2. Defaults -/

def errorChecks : List String :=
  ["xml_syntax_error", "csv_syntax_error", "python_syntax_error", "manifest_syntax_error",
   "po_syntax_error", "xml_duplicate_record_id", "csv_duplicate_record_id",
   "po_duplicate_message_definition", "xml_duplicate_fields", "python_duplicate_field_label",
   "python_inconsistent_compute_sudo", "python_tracking_without_mail_thread",
   "python_selection_on_related", "xml_deprecated_active_id_usage", "xml_alert_missing_role"]

/-- Checks whose findings are warnings. -/
def warningChecks : List String :=
  ["xml_create_user_wo_reset_password", "xml_dangerous_filter_wo_user", "xml_hardcoded_id",
   "xml_duplicate_view_priority", "xml_deprecated_tree_attribute", "xml_deprecated_data_node",
   "xml_deprecated_openerp_xml_node", "xml_deprecated_t_raw", "xml_deprecated_qweb_directive",
   "python_field_missing_string", "python_field_missing_help", "python_method_missing_docstring",
   "po_requires_module", "po_python_parse_printf", "po_python_parse_format",
   "xml_not_valid_char_link"]

/-- Checks whose findings only inform. -/
def infoChecks : List String :=
  ["python_docstring_too_short", "python_docstring_uninformative", "xml_redundant_module_name",
   "missing_readme"]

def defaultSeverities : List (Datum × Severity) :=
  errorChecks.map (fun c => (.text c, .error)) ++
    warningChecks.map (fun c => (.text c, .warning)) ++ infoChecks.map fun c => (.text c, .info)

def textData (xs : List String) : List Datum := xs.map .text

def defaultSkipLabel : List String :=
  ["active", "name", "sequence", "company_id", "currency_id", "create_uid", "create_date",
    "write_uid",
   "write_date", "message_ids", "message_follower_ids", "activity_ids"]

def defaultSkipHelp : List String := ["active", "name", "sequence", "company_id", "currency_id"]

def defaultSkipDocstring : List String :=
  ["__init__", "__str__", "__repr__", "__len__", "__bool__", "__getitem__", "__setitem__",
   "__delitem__", "__iter__", "__next__", "__contains__", "__call__", "__enter__", "__exit__",
   "__eq__",
   "__ne__", "__lt__", "__le__", "__gt__", "__ge__", "__hash__", "__format__"]

/-- Patterns of paths that are left out. -/
def defaultExcludes : List String :=
  ["**/migrations/**", "**/tests/**", "**/static/**", "**/__pycache__/**", "**/node_modules/**"]

/-! ## §3. Settings -/

/-- What a settings file says. -/
structure Settings where
  /-- Which files are looked at: all, or those that changed. -/
  scope : Datum
  /-- The branch that changes are seen against. -/
  baseBranch : Datum
  release : Option String
  severities : List (Datum × Severity)
  blocking : List Datum
  disabled : List Datum
  skipLabel : List Datum
  skipHelp : List Datum
  skipDocstring : List Datum
  minDocstring : Datum
  /-- Patterns of paths that are left out. -/
  excludes : Datum

/-- Sets the severity of a check in its place, or at the end. -/
def setSeverity (check : Datum) (s : Severity) : List (Datum × Severity) → List (Datum × Severity)
  | [] => [(check, s)]
  | (c, t) :: rest => if c.same check then (c, s) :: rest else (c, t) :: setSeverity check s rest

/-- The release version that an entry sets: none when it is empty or leaves it open. -/
def releaseOf (d : Datum) : Except Fault (Option String) :=
  if d.truthy && !d.same (.text "auto") then return some (← Release.normalizeDatum d)
  else return none

/-- The severities with the changes of a table; levels that do not exist change nothing. -/
def severitiesOf : Datum → Except Fault (List (Datum × Severity))
  | .table es => .ok (es.foldl (fun acc (check, level) =>
      match Severity.ofDatum? level with
      | some s => setSeverity check s acc
      | none => acc) defaultSeverities)
  | d => .error (.noOperation d.kind "items")

/-- The set of an entry; a text that stands alone is one severity. -/
def blockingOf : Datum → Except Fault (List Datum)
  | .text s => .ok [.text s]
  | d => d.setOf

def unite (a b : List Datum) : List Datum := b.foldl (fun acc x => Datum.addMember x acc) a

def Settings.ofEntries (es : List (Datum × Datum)) : Except Fault Settings := do
  let entry (key : String) (default : Datum) : Datum := (Datum.lookupText key es).getD default
  let release ← releaseOf (entry "odoo_version" (.text "auto"))
  let severities ← severitiesOf (entry "severity" (.table []))
  let blocking ← blockingOf (entry "blocking_severities" (.list [.text "error"]))
  let disabled ← (entry "disabled_checks" (.list [])).setOf
  let skipLabel ← (entry "skip_string_fields" (.set (textData defaultSkipLabel))).setOf
  let skipHelp ← (entry "skip_help_fields" (.set (textData defaultSkipHelp))).setOf
  let skipDocstring ← (entry "skip_docstring_methods" (.list [])).setOf
  return {
    scope := entry "validation_scope" (.text "changed")
    baseBranch := entry "base_branch" .null
    release := release
    severities := severities
    blocking := blocking
    disabled := disabled
    skipLabel := skipLabel
    skipHelp := skipHelp
    skipDocstring := unite skipDocstring (textData defaultSkipDocstring)
    minDocstring := entry "min_docstring_length" (.int 10)
    excludes := entry "exclude_paths" (.list (textData defaultExcludes)) }

/-- The settings of a document, which has to be a table. -/
def Settings.ofDatum : Datum → Except Fault Settings
  | .table es => Settings.ofEntries es
  | d => .error (.noOperation d.kind "get")

/-! ## §4. Settings files -/

/-- The names of settings files, in the order in which they are tried. -/
def settingsNames : List String := [".solt-hooks.yaml", ".solt-hooks.yml", "solt-hooks.yaml"]

/-- A folder and the ones above it, `n` in all. -/
def foldersUp : (n : Nat) → String → List String
  | 0, _ => []
  | n + 1, folder => folder :: foldersUp n (Path.parent folder)

/-- The paths at which settings may be: a given one, or the known names from the current folder
    up. -/
def settingsPaths (w : World) (given : Option String) : List String :=
  match given with
  | some p => if p == "" then searched else [Path.tidy p]
  | none => searched
where
  /-- The paths that are tried when none is given. -/
  searched : List String :=
    (foldersUp 5 w.cwd).flatMap fun folder => settingsNames.map (Path.child folder)

/-- The document of a YAML file: none if there is no such file or it is malformed. -/
def readDocument (w : World) (path : String) : Except Fault (Option Datum) :=
  match w.readPieces .utf8 path with
  | .error f => if f.isAccess then .ok none else .error f
  | .ok (_, some f) => .error f
  | .ok (cs, none) =>
    match Yaml.load (String.ofList (Text.unifyNewlines cs)) with
    | .ok d => .ok (some d)
    | .error .malformed => .ok none
    | .error (.fault f) => .error f

def firstDocument (w : World) : List String → Except Fault (Option Datum)
  | [] => .ok none
  | path :: rest => do
    match ← readDocument w path with
    | some d => return some d
    | none => firstDocument w rest

/-- The document of the settings; an empty one counts as an empty table. -/
def settingsDocument (w : World) (given : Option String) : Except Fault Datum := do
  match ← firstDocument w (settingsPaths w given) with
  | some d => return if d.truthy then d else .table []
  | none => return .table []

def Settings.load (w : World) (given : Option String) : Except Fault Settings := do
  Settings.ofDatum (← settingsDocument w given)

/-! ## §5. Questions -/

namespace Settings

/-- The severity of a check; unknown checks warn. -/
def severity (s : Settings) (check : String) : Severity :=
  ((s.severities.find? fun e => e.1.same (.text check)).map (·.2)).getD .warning

/-- Whether findings of a check are dropped. -/
def isDisabled (s : Settings) (check : String) : Bool := Datum.hasText s.disabled check

def blocks (s : Settings) (severity : String) : Bool := Datum.hasText s.blocking severity

/-- Whether only changed files are looked at. -/
def changedOnly (s : Settings) : Bool := s.scope.same (.text "changed")

/-- Whether one of the patterns covers a path.  Patterns are tried in order; one that is no text is
    a fault once it is reached. -/
def anyCovers (path : String) : List Datum → Except Fault Bool
  | [] => .ok false
  | .text p :: rest => if Wildcard.covers p path then .ok true else anyCovers path rest
  | d :: _ => .error (.notPath d.shortKind)

def excludes? (s : Settings) (path : String) : Except Fault Bool := do
  anyCovers path (← s.excludes.parts)

/-- The release version that is set explicitly, in the settings or else in the environment. -/
def releaseSet (s : Settings) (w : World) : Except Fault (Option String) :=
  match s.release with
  | some v => .ok (some v)
  | none =>
    match w.setting? "SOLT_ODOO_VERSION" with
    | some v => if v == "" then .ok none else do return some (← Release.normalize v)
    | none => .ok none

end Settings

end AddonAudit
