/-
  AddonAudit.Main — the command line.

  The paths of the files that a command may see stand on the standard input, one on a line,
  absolute: `find "$PWD" -type f | addon-audit check addons/sale`.  Files that the command changes
  are written, and those that it removes are deleted.
-/
import AddonAudit.Commands

namespace AddonAudit

/-- The variables that commands look at. -/
def variableNames : List String :=
  pipelineVariables ++ ["SOLT_DEBUG", "SOLT_ODOO_VERSION"]

def World.allFiles (w : World) : List (String × ByteArray) :=
  (w.root.walk (fun _ => true) "/").flatMap fun v => v.files.filterMap fun name =>
    let path := Path.join v.path name
    match w.find path with
    | .ok (.file bytes) => some (path, bytes)
    | _ => none

partial def inputLines (stream : IO.FS.Stream) : IO (List String) := do
  let line ← stream.getLine
  if line.isEmpty then return []
  return Text.strip line :: (← inputLines stream)

/-- The world with the files of some paths; files that cannot be read are left out. -/
def readWorld (paths : List String) : IO World := do
  let env ← variableNames.filterMapM fun n => do return (← IO.getEnv n).map fun v => (n, v)
  let start : World := { cwd := (← IO.currentDir).toString, env }
  let start := start.put start.cwd .empty
  paths.foldlM (fun w (path : String) => do
    try return w.put path (.file (← IO.FS.readBinFile path)) catch _ => return w) start

/-- Brings files to the state that they have in another world. -/
def writeWorld (before after : World) : IO Unit := do
  for (path, bytes) in after.allFiles do
    match before.find path with
    | .ok (.file old) => if old.data != bytes.data then IO.FS.writeBinFile path bytes
    | _ =>
      IO.FS.createDirAll (Path.dirname path)
      IO.FS.writeBinFile path bytes
  for (path, _) in before.allFiles do
    if !after.isFile path then IO.FS.removeFile path

end AddonAudit

open AddonAudit in
/-- Runs a command on the files whose paths are on the standard input. -/
def main (arguments : List String) : IO UInt32 := do
  let paths ← inputLines (← IO.getStdin)
  let before ← readWorld (paths.filter (· != ""))
  let (code, after) := runCommandLine arguments before
  IO.print after.log.out
  IO.eprint after.log.err
  writeWorld before after
  return (code % 256).toNat.toUInt32
