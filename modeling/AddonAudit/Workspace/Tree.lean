/-
  AddonAudit.Workspace.Tree — files and folders.

  The members of a folder are kept in the order of their names, which is the order in which they are
  listed.
-/
import AddonAudit.Workspace.Path

namespace AddonAudit

/-- A file with its bytes, or a folder with its members.  There are no links: a path leads to one
    place, and what is not there does not exist. -/
inductive Entry where
  | file (bytes : ByteArray)
  | folder (members : List (String × Entry))

instance : Inhabited Entry := ⟨.folder []⟩

namespace Entry

def empty : Entry := .folder []

/-- The members of a folder; a file has none. -/
def members : Entry → List (String × Entry)
  | .folder ms => ms
  | .file _ => []

def isFile : Entry → Bool
  | .file _ => true
  | .folder _ => false

def isFolder (e : Entry) : Bool := !e.isFile

def member? (e : Entry) (name : String) : Option Entry :=
  (e.members.find? (·.1 == name)).map (·.2)

def get? : Entry → List String → Option Entry
  | e, [] => some e
  | e, n :: ns =>
    match e.member? n with
    | some m => m.get? ns
    | none => none

/-- Sets the member of a name, keeping the order of names. -/
def setMember (name : String) (e : Entry) : List (String × Entry) → List (String × Entry)
  | [] => [(name, e)]
  | (n, m) :: rest =>
    if name == n then (n, e) :: rest
    else if name < n then (name, e) :: (n, m) :: rest
    else (n, m) :: setMember name e rest

/-- Puts an entry at a list of names; folders on the way are made, files on the way give way. -/
def put (new : Entry) : List String → Entry → Entry
  | [], _ => new
  | n :: ns, e => .folder (setMember n (put new ns ((e.member? n).getD .empty)) e.members)

def remove : List String → Entry → Entry
  | [], e => e
  | [n], e => .folder (e.members.filter (·.1 != n))
  | n :: ns, e =>
    match e.member? n with
    | some m => .folder (setMember n (remove ns m) e.members)
    | none => e

/-! ## Walking -/

/-- A folder met on a walk: its path, the names of its folders and the names of its files. -/
structure Visit where
  path : String
  folders : List String
  files : List String

mutual
/-- The folders below and including an entry, parents first, siblings by name.  A folder is entered
    when `enter` allows its name. -/
def walk (enter : String → Bool) (path : String) : Entry → List Visit
  | .file _ => []
  | .folder ms =>
    ⟨path, (ms.filter (·.2.isFolder)).map (·.1), (ms.filter (·.2.isFile)).map (·.1)⟩ ::
      walkMembers enter path ms

def walkMembers (enter : String → Bool) (path : String) : List (String × Entry) → List Visit
  | [] => []
  | (n, m) :: rest =>
    (if enter n then walk enter (Path.join path n) m else []) ++ walkMembers enter path rest
end

end Entry

end AddonAudit
