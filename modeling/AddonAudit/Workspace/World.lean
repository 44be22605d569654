/-
  AddonAudit.Workspace.World — all that an operation can see and change.

  A world holds the file tree, the current folder, the environment, the results of the commands that
  can be run, and a log of what was printed and run.  A `Session` is a computation in such a world;
  a fault keeps the world as it was when it arose, so that nothing printed before is lost.
-/
import AddonAudit.Fault
import AddonAudit.Text.Encoding
import AddonAudit.Workspace.Tree

namespace AddonAudit

/-! ## §1. Worlds -/

/-- What a command gave. -/
structure ProcessResult where
  code : Int := 0
  out : String := ""
  err : String := ""

/-- What was printed and run. -/
structure Log where
  out : String := ""
  err : String := ""
  /-- Commands in the order in which they were run. -/
  calls : List String := []

/-- All that an operation can see and change.  The process may read and write every file of the
    tree. -/
structure World where
  root : Entry := .empty
  cwd : String := "/"
  env : List (String × String) := []
  /-- Results by command line; a program without a result does not exist. -/
  processes : List (String × Option ProcessResult) := []
  terminal : Bool := false
  log : Log := {}

/-- Why there is nothing at a path. -/
inductive Absence where
  | missing
  | notFolder
  deriving DecidableEq

/-- Follows names from a stack of entries, the current one on top. -/
def followNames : List Entry → List String → Except Absence Entry
  | [], _ => .error .missing
  | e :: _, [] => .ok e
  | e :: up, n :: ns =>
    match e with
    | .file _ => .error .notFolder
    | .folder _ =>
      if n == "" || n == "." then followNames (e :: up) ns
      else if n == ".." then
        match up with
        | [] => followNames [e] ns
        | above => followNames above ns
      else
        match e.member? n with
        | some m => followNames (m :: e :: up) ns
        | none => .error .missing

namespace World

/-- The absolute form of a path, which starts with one slash. -/
def resolve (w : World) (p : String) : String :=
  let path := Path.absolute w.cwd p
  if Text.startsWith path "//" then Text.drop path 1 else path

def find (w : World) (p : String) : Except Absence Entry :=
  if p == "" then .error .missing
  else followNames [w.root] (Path.pieces (Path.join w.cwd p))

def holds (w : World) (p : String) : Bool := (w.find p).isOk

def isFile (w : World) (p : String) : Bool :=
  match w.find p with
  | .ok e => e.isFile
  | .error _ => false

def isFolder (w : World) (p : String) : Bool :=
  match w.find p with
  | .ok e => e.isFolder
  | .error _ => false

/-- The value of an environment variable. -/
def setting? (w : World) (name : String) : Option String :=
  (w.env.find? (·.1 == name)).map (·.2)

/-- Whether a variable is set to a text that is not empty. -/
def variableSet (w : World) (name : String) : Bool := ((w.setting? name).getD "") != ""

/-- Sets or removes an environment variable. -/
def setVariable (w : World) (name : String) (value : Option String) : World :=
  let rest := w.env.filter (·.1 != name)
  { w with env := match value with
    | some v => (name, v) :: rest
    | none => rest }

def setProcess (w : World) (command : String) (result : Option ProcessResult) : World :=
  { w with processes := (command, result) :: w.processes.filter (·.1 != command) }

def put (w : World) (p : String) (e : Entry) : World :=
  { w with root := Entry.put e (Path.components (w.resolve p)) w.root }

/-- Removes the entry at a path. -/
def remove (w : World) (p : String) : World :=
  { w with root := Entry.remove (Path.components (w.resolve p)) w.root }

/-- The fault of a path at which there is nothing. -/
def absent (p : String) : Absence → Fault
  | .missing => .missing p
  | .notFolder => .notFolder p

def readBytes (w : World) (p : String) : Except Fault ByteArray :=
  match w.find p with
  | .ok (.file bytes) => .ok bytes
  | .ok (.folder _) => .error (.isFolder p)
  | .error a => .error (absent p a)

/-- The fault of bytes that cannot be read. -/
def undecodable (u : Text.Undecodable) :
    Fault := .undecodable u.encoding u.start u.stop u.byte u.reason

def decode (bytes : ByteArray) : Except Fault (List Char) :=
  (Text.Encoding.utf8.decode bytes.toList).mapError undecodable

/-- The text of a file with unified line ends. -/
def readText (w : World) (p : String) : Except Fault String := do
  return String.ofList (Text.unifyNewlines (← decode (← w.readBytes p)))

/-- How many bytes are read at a time when a file is read piece by piece. -/
def pieceSize : Nat := 8192

/-- Reads bytes piece by piece, up to the first fault.  Places in a fault count from the start of
    the piece, or of the character that the piece before leaves unfinished. -/
def decodePieces (e : Text.Encoding) : (fuel : Nat) → (pending bytes : List UInt8) →
    List Char × Option Fault
  | 0, _, _ => ([], none)
  | fuel + 1, pending, bytes =>
    let data := pending ++ bytes.take pieceSize
    let further (cs : List Char) (pending : List UInt8) : List Char × Option Fault :=
      let (more, fault) := decodePieces e fuel pending (bytes.drop pieceSize)
      (cs ++ more, fault)
    match e.decode data with
    | .ok cs => if bytes.isEmpty then (cs, none) else further cs []
    | .error u =>
      if u.cutShort && u.stop == data.length && !bytes.isEmpty then
        match e.decode (data.take u.start) with
        | .ok cs => further cs (data.drop u.start)
        | .error _ => ([], some (undecodable u))
      else ([], some (undecodable u))

/-- The characters of a file that is read piece by piece, line ends as they are, with the fault that
    ends them. -/
def readPieces (w : World) (e : Text.Encoding) (p : String) :
    Except Fault (List Char × Option Fault) := do
  let bytes := (← w.readBytes p).toList
  return decodePieces e (bytes.length + 2) [] bytes

/-- The names in a folder, in order. -/
def list (w : World) (p : String) : List String :=
  match w.find p with
  | .ok e => e.members.map (·.1)
  | .error _ => []

end World

/-! ## §2. Sessions -/

/-- Computations in a world that may end in a fault. -/
abbrev Session := EStateM Fault World

namespace Session

def see {α : Type} (f : World → α) : Session α := do return f (← get)

/-- Runs a computation and gives its fault as a value. -/
def attempt {α : Type} (x : Session α) : Session (Except Fault α) :=
  fun w => match x w with
    | .ok a w => .ok (.ok a) w
    | .error f w => .ok (.error f) w

def ofExcept {α : Type} : Except Fault α → Session α
  | .ok a => pure a
  | .error f => throw f

/-! ## §3. Files -/

def readBytes (p : String) : Session ByteArray := do ofExcept ((← get).readBytes p)

/-- The text of a file with unified line ends. -/
def readText (p : String) : Session String := do ofExcept ((← get).readText p)

/-- Writes a file; its folder has to exist. -/
def writeBytes (p : String) (bytes : ByteArray) : Session Unit := do
  let w ← get
  match w.find p with
  | .ok (.folder _) => throw (.isFolder p)
  | .ok (.file _) => set (w.put p (.file bytes))
  | .error .notFolder => throw (.notFolder p)
  | .error .missing =>
    match w.find (Path.parent (Path.join w.cwd p)) with
    | .ok (.folder _) => set (w.put p (.file bytes))
    | .ok (.file _) => throw (.notFolder p)
    | .error a => throw (World.absent p a)

/-- Writes a text into a file; its folder has to exist. -/
def writeText (p s : String) : Session Unit := writeBytes p s.toUTF8

def removeFile (p : String) : Session Unit := do
  let w ← get
  match w.find p with
  | .ok (.folder _) => throw (.isFolder p)
  | .ok (.file _) => set (w.remove p)
  | .error a => throw (World.absent p a)

/-- Copies a file onto another one or into a folder.  `source` is written in faults as a path, and
    so is `target` unless it is a folder. -/
def copyFile (source target : String) : Session Unit := do
  let w ← get
  let intoFolder := w.isFolder target
  let place := if intoFolder then Path.join target (Path.basename source) else target
  if w.holds place && w.resolve source == w.resolve place then
    throw (.sameFile (pathText source) (if intoFolder then Text.quoted place else pathText place))
  writeBytes place (← readBytes source)
where
  pathText (p : String) : String := "PosixPath(" ++ Text.quoted p ++ ")"

/-- Makes a folder; the folder above it has to exist. -/
def makeFolder (p : String) : Session Unit := do
  let w ← get
  match w.find p with
  | .ok _ => throw (.occupied p)
  | .error .notFolder => throw (.notFolder p)
  | .error .missing =>
    match w.find (Path.parent p) with
    | .ok (.folder _) => set (w.put p .empty)
    | .ok (.file _) => throw (.notFolder p)
    | .error a => throw (World.absent p a)

/-- Makes a folder unless it is there, and those above it that are missing, at most `depth` of
    them. -/
def makeFolders : (depth : Nat) → String → Session Unit
  | 0, p => makeFolder p
  | depth + 1, p => do
    match ← attempt (makeFolder p) with
    | .ok _ => return
    | .error (.missing q) =>
      if Path.parent p == p then throw (.missing q)
      makeFolders depth (Path.parent p)
      unlessFolder p (← attempt (makeFolder p))
    | .error f => unlessFolder p (.error f)
where
  unlessFolder (p : String) : Except Fault Unit → Session Unit
    | .ok _ => return
    | .error f => do if !(← get).isFolder p then throw f

/-- Makes a folder and those above it. -/
def ensureFolder (p : String) : Session Unit := makeFolders ((Path.components p).length + 1) p

/-! ## §4. Commands and output -/

def print (s : String) : Session Unit :=
  modify fun w => { w with log := { w.log with out := w.log.out ++ s } }

def printLine (s : String) : Session Unit := print (s ++ "\n")

/-- Prints a line to the error channel. -/
def warnLine (s : String) : Session Unit :=
  modify fun w => { w with log := { w.log with err := w.log.err ++ s ++ "\n" } }

/-- Whether a text can be handed to the system, which ends texts with a null character. -/
def isHandable (s : String) : Bool := !s.toList.contains '\x00'

/-- Runs a command in the current folder or in a given one.  An unknown command ends with 128.
    Commands have one result each, however often they are run, and leave the file tree as it is. -/
def run (argv : List String) (folder : Option String) : Session ProcessResult := do
  if !argv.all isHandable then throw .nullPath
  let command := " ".intercalate argv
  let shown := match folder with
    | some f => command ++ " @ " ++ f
    | none => command
  modify fun w => { w with log := { w.log with calls := w.log.calls ++ [shown] } }
  match (← get).processes.find? (·.1 == command) with
  | some (_, some r) => return r
  | some (_, none) => throw (.noProgram (argv.headD ""))
  | none => return { code := 128 }

/-- Runs a command that has to end with zero. -/
def runChecked (argv : List String) (folder : Option String) : Session ProcessResult := do
  let r ← run argv folder
  if r.code == 0 then return r else throw (.commandFailed argv r.code)

end Session

end AddonAudit
