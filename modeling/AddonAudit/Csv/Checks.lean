/-
  AddonAudit.Csv.Checks — checks on tables of records.

  A record's id must occur once among all tables of one section.
-/
import AddonAudit.Addon.DataFile
import AddonAudit.Csv.Rows
import AddonAudit.Findings
import AddonAudit.Workspace.World

namespace AddonAudit.Csv

/-- A record with an id. -/
structure Record where
  file : DataFile
  id : String
  line : Nat

/-- The id with the section of its table. -/
def Record.key (r : Record) : String := r.file.sectionName ++ "/" ++ r.id

def Record.place (r : Record) : String := AddonAudit.place r.file.path r.line

/-- The records of the rows of a table; rows without an id are none. -/
def recordsOf (f : DataFile) (rows : List Row) : List Record :=
  match rows with
  | [] => []
  | header :: rest =>
    if !header.fields.contains "id" then []
    else (rest.filter (!·.fields.isEmpty)).filterMap fun r =>
      match r.get? header.fields "id" with
      | some id => if id == "" then none else some ⟨f, id, r.line⟩
      | none => none

/-- A table's records with the finding that it cannot be read to its end. -/
structure Table where
  records : List Record
  finding : Option Finding := none

/-- The finding of a table that cannot be read. -/
def unreadable (f : DataFile) (message : String) : Finding :=
  ⟨"csv_syntax_error", f.path ++ " " ++ message⟩

/-- Whether rows show that a table has no ids. -/
def lacksIds : List Row → Bool
  | header :: _ => !header.fields.contains "id"
  | [] => false

/-- Reads a table.  A missing file is a finding; bytes that cannot be read are a fault unless the
    table has no ids anyway. -/
def readTable (w : World) (f : DataFile) : Except Fault Table :=
  match w.readPieces .utf8 f.path with
  | .error (.missing p) => .ok ⟨[], some (unreadable f (Fault.missing p).message)⟩
  | .error fault => .error fault
  | .ok (cs, none) =>
    let (rows, problem) := rows (Text.unifyNewlines cs)
    .ok ⟨recordsOf f rows, if lacksIds rows then none else problem.map fun p =>
      unreadable f p.message⟩
  | .ok (cs, some fault) =>
    let lines := (Text.feedLines (Text.unifyNewlines cs)).dropLast
    if lacksIds (rowsFrom 0 {} lines).1 then .ok ⟨[], none⟩ else .error fault

/-- Records with the same key are told of once. -/
def duplicate? : String × List Record → Option Finding
  | (key, first :: second :: more) =>
    some ⟨"csv_duplicate_record_id",
      first.place ++ " Duplicate CSV record id \"" ++ key ++ "\" in " ++
        ", ".intercalate ((second :: more).map Record.place)⟩
  | _ => none

/-- Checks all tables, which share their keys. -/
def checkTables (w : World) (files : List DataFile) : Except Fault Findings := do
  let tables ← files.mapM (readTable w)
  let groups := Groups.of (fun r : Record => some r.key) (tables.flatMap (·.records))
  return Findings.ofList (tables.filterMap (·.finding) ++ groups.filterMap duplicate?)

end AddonAudit.Csv
