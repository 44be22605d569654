/-
  AddonAudit.Benchmark.Command — the command that measures benchmarks and tells the results.

  The folder with the benchmarks is `/repo`.  Coverage is always measured; the other two
  measurements are made if there is a program for them.
-/
import AddonAudit.Benchmark.Round
import AddonAudit.Command

namespace AddonAudit.Benchmark

def folder : String := "/repo"

def coverageFile : String := "/repo/_pti_coverage.json"

def historyFile : String := "/repo/.pti_checkpoint.jsonl"

def benchmarkFile : String := "/repo/microbench.py"

/-- Files whose coverage does not count. -/
def omitted : List String := [
  "*/microbench.py", "*/_pti_*.py", "*/setup.py", "*/conftest.py", "*/test_*.py", "*/*_test.py",
  "*/tests/*", "*/test/*", "*/__tests__/*", "*/__fixtures__/*", "*/_version.py"]

/-- The interpreter that runs measuring programs. -/
def interpreter : String := "python3"

/-- Passes on what a command wrote to its error output. -/
def passErrors (r : ProcessResult) : Session Unit :=
  if r.err == "" then return
  else modify fun w => { w with log := { w.log with err := w.log.err ++ r.err } }

/-- How many benchmarks a text defines: lines that start with their definition. -/
def benchmarkCount (text : String) : Nat :=
  ((Text.linesOf text).filter (Text.startsWith · "def bench_")).length

/-- The data on the last line of an output, if there is any output. -/
def lastData? (out : String) : Except Fault (Option Datum) :=
  match (Text.linesOf (Text.strip out)).getLast? with
  | none => .ok none
  | some line => (Json.read line).map some

/-- Runs a measuring program, if there is one, and reads its output; a fault is told and passed
    over. -/
def measure {α : Type} (file title : String) (default : α) (read : Datum → Except Fault α) :
    Session α := do
  let path := Path.child folder file
  if !(← get).holds path then return default
  match ← Session.attempt (do
      let r ← Session.run [interpreter, path] (some folder)
      passErrors r
      match ← Session.ofExcept (lastData? r.out) with
      | none => return default
      | some d => Session.ofExcept (read d)) with
  | .ok a => return a
  | .error f =>
    Session.warnLine ("[" ++ title ++ " runner: " ++ f.title ++ ": " ++ f.message ++ "]")
    return default

/-- The files that a status names. -/
def statusFiles (out : String) : List String :=
  ((Text.linesOf out).filter (Text.strip · != "")).map (Text.drop · 3)

/-- The files that have changed, other than those of measuring. -/
def modifiedFiles : Session (List String) := do
  match ← Session.attempt (Session.run ["git", "-C", folder, "status", "--porcelain", "--", ".",
      ":!microbench.py", ":!_pti_*", ":!.pti_*", ":!.coverage"] none) with
  | .ok r => return statusFiles r.out
  | .error _ => return []

/-- Runs the checks of benchmarks, and gives the files that should not have changed. -/
def check : Session (List Checked × List String) := do
  if !(← get).holds (Path.child folder "_pti_semcheck.py") then return ([], [])
  let files ← modifiedFiles
  return (← measure "_pti_semcheck.py" "semcheck" [] (readChecks !files.isEmpty), files)

/-- The records of earlier rounds. -/
def history : Session (List Datum) := do
  if (← get).holds historyFile then Session.ofExcept (readHistory (← Session.readText historyFile))
  else return []

/-- Adds a line to a file, which is made if need be. -/
def appendLine (path line : String) : Session Unit := do
  let w ← get
  let before ← if w.holds path then Session.readBytes path else pure .empty
  Session.writeBytes path (before ++ (line ++ "\n").toUTF8)

/-- Measures benchmarks, tells the results and records the round. -/
def command : Session Exit := do
  let r ← Session.run [interpreter, Path.child folder "_pti_cov_runner.py", folder, "microbench",
    coverageFile, Json.write (.list (omitted.map .text))] (some folder)
  passErrors r
  if r.code != 0 || !(← get).holds coverageFile then
    Session.printLine ("coverage measurement failed (exit " ++ toString r.code ++ ")")
    Session.printLine r.out
    return some 1
  let report ← Session.ofExcept (Json.read (← Session.readText coverageFile))
  let totals ← Session.ofExcept (Totals.read report)
  let files ← Session.ofExcept (do
    (← (orElse (← Datum.entry "files" .null report) (.table [])).entries).mapM
      (FileCoverage.read folder))
  let errors ← Session.ofExcept (do
    let notes := orElse (← Datum.entry "meta" .null report) (.table [])
    (orElse (← Datum.entry "_pti_bench_errors" .null notes) (.table [])).entries)
  let benchmarks := benchmarkCount (← Session.readText benchmarkFile)
  (tableLines files totals ++ errorLines errors).forM Session.printLine
  let shares ← measure "_pti_repotime.py" "repotime" {} Shares.read
  let (checks, modified) ← check
  let before ← history
  let round : Round :=
    { number := before.length + 1, time := 0, wait := ← Session.ofExcept (sinceLast before 0), totals,
      benchmarks, errors, duration := 0, shares, checks }
  (shares.lines ++ modifiedLines modified ++ checkLines checks).forM Session.printLine
  Session.printLine round.closing
  if let some reason := round.stop? (← Session.ofExcept (lowHistory before)) then
    Session.printLine (stopLine reason)
  appendLine historyFile (Json.write round.record)
  return none

end AddonAudit.Benchmark
