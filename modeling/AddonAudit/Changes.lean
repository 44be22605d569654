/-
  AddonAudit.Changes — which files changed.

  At a desk the staged files count, in a pipeline those that differ from a base branch.  Where
  neither is certain, staged files are asked for first.
-/
import AddonAudit.Datum
import AddonAudit.Workspace.World

namespace AddonAudit

/-! ## §1. Where we are -/

/-- Where the program runs. -/
inductive Context where
  | desk
  | pipeline
  | unknown
  deriving DecidableEq

/-- The name of a context. -/
def Context.text : Context → String
  | .desk => "local"
  | .pipeline => "ci"
  | .unknown => "unknown"

/-- Variables that only a pipeline sets. -/
def pipelineVariables :
    List String := ["CI", "GITHUB_ACTIONS", "GITHUB_BASE_REF", "SOLT_BASE_BRANCH"]

/-- The command that lists what is staged. -/
def stagedCommand : List String := ["git", "diff", "--cached", "--name-only", "--diff-filter=ACMR"]

def Fault.isCommandFailure : Fault → Bool
  | .commandFailed _ _ => true
  | _ => false

def Fault.isNoProgram : Fault → Bool
  | .noProgram _ => true
  | _ => false

/-- Runs a command; none if it fails. -/
def runIfAble (argv : List String) : Session (Option ProcessResult) := do
  match ← Session.attempt (Session.runChecked argv none) with
  | .ok r => return some r
  | .error f => if f.isCommandFailure then return none else throw f

/-- Finds out where the program runs: the environment tells a pipeline, staged files tell a desk. -/
def Context.detect : Session Context := do
  let w ← get
  if pipelineVariables.any w.variableSet then return .pipeline
  match ← Session.attempt (runIfAble stagedCommand) with
  | .ok (some r) => return if Text.strip r.out == "" then .unknown else .desk
  | .ok none => return .unknown
  | .error f => if f.isNoProgram then return .unknown else throw f

/-! ## §2. The base branch -/

/-- The branch to take when nothing else is known. -/
def previousCommit : String := "HEAD~1"

/-- The first branch that exists, or the commit before. -/
def firstBranch : List String → Session String
  | [] => return previousCommit
  | b :: rest => do
    match ← runIfAble ["git", "rev-parse", "--verify", "origin/" ++ b] with
    | some _ => return "origin/" ++ b
    | none => firstBranch rest

/-- Finds the base branch: the environment first, then the usual names. -/
def detectBase : Session String := do
  let w ← get
  match w.setting? "SOLT_BASE_BRANCH", w.setting? "GITHUB_BASE_REF" with
  | some b, g =>
    if b != "" then return if Text.startsWith b "origin/" then b else "origin/" ++ b
    else fromPullRequest g
  | none, g => fromPullRequest g
where
  /-- The target of a pull request, or else the usual names. -/
  fromPullRequest : Option String → Session String
    | some g => if g != "" then return "origin/" ++ g else firstBranch ["main", "master", "develop"]
    | none => firstBranch ["main", "master", "develop"]

/-- What is known about changes. -/
structure Changes where
  context : Context
  base : Datum
  isTold : Bool := context == .pipeline
  /-- The changed files by their absolute paths, once they are known. -/
  files : Option (List String) := none

namespace Changes

/-- Starts to look for changes, against a given base branch or one that is found. -/
def start (base : Datum) : Session Changes := do
  let context ← Context.detect
  if base.truthy then return { context, base }
  else return { context, base := .text (← detectBase) }

/-- Says what is going on, in a pipeline or when asked to. -/
def note (c : Changes) (message : String) : Session Unit := do
  if c.isTold || (← Session.see (World.variableSet · "SOLT_DEBUG")) then
    Session.printLine ("[ChangedFilesDetector] " ++ message)

/-- The base branch as a word of a command. -/
def baseWord (c : Changes) (place : Nat) : Session String :=
  match c.base with
  | .text b => return b
  | d => throw (.notText place d.kind)

/-- Makes sure that the base branch can be compared with, fetching it if need be. -/
def ensureBase (c : Changes) : Session Bool := do
  if c.base.same (.text previousCommit) then return true
  let base ← c.baseWord 3
  match ← runIfAble ["git", "rev-parse", "--verify", base] with
  | some _ => return true
  | none =>
    c.note ("Base branch " ++ base ++ " not found locally, trying to fetch...")
    let branch := Text.replace base "origin/" ""
    match ← Session.attempt (Session.runChecked ["git", "fetch", "origin", branch,
      "--depth=1"] none) with
    | .ok _ =>
      c.note ("Successfully fetched origin/" ++ branch)
      return true
    | .error f =>
      if !f.isCommandFailure then throw f
      c.note ("Failed to fetch " ++ branch ++ ": " ++ f.message)
      return false

/-! ## §3. Changed files -/

/-- The lines that a command printed. -/
def outputLines (out : String) : List String := Text.splitAt '\n' (Text.strip out)

/-- The absolute paths of files, each once; a path holds no null character. -/
def resolved (w : World) (paths : List String) : Except Fault (List String) :=
  if paths.any (·.toList.contains '\x00') then .error .nullPath
  else .ok (paths.map w.resolve).eraseDups

/-- The files that are staged. -/
def staged (c : Changes) : Session (List String) := do
  match ← runIfAble stagedCommand with
  | some r =>
    let w ← get
    let files ← Session.ofExcept (resolved w ((outputLines r.out).filter (Text.strip · != "")))
    c.note ("Staged files: " ++ toString files.length ++ " files")
    return files
  | none =>
    c.note "Failed to get staged files"
    return []

/-- The files that differ from a base. -/
def compared (c : Changes) (title base : String) : Session (Option (List String)) := do
  match ← runIfAble ["git", "diff", "--name-only", "--diff-filter=ACMR", base] with
  | some r =>
    let w ← get
    let files ← Session.ofExcept (resolved w ((outputLines r.out).filter (· != "")))
    c.note (title ++ " found " ++ toString files.length ++ " changed files")
    return some files
  | none => return none

/-- The files that differ from the base branch: since the branches parted, or else at all. -/
def againstBase (c : Changes) : Session (List String) := do
  c.note ("Detecting CI changed files vs " ++ c.base.shown)
  if !(← c.ensureBase) then
    c.note "Base branch not available, returning empty set"
    return []
  match ← c.compared "Three-dot diff" (c.base.shown ++ "...HEAD") with
  | some files => return files
  | none =>
    match ← c.compared "Two-dot diff" (← c.baseWord 4) with
    | some files => return files
    | none =>
      c.note "All CI diff methods failed"
      return []

/-- The outcome of a step, with what is known after it. -/
abbrev Outcome (α : Type) := Except Fault α × Changes

/-- Asks for files and remembers the answer. -/
def remember (c : Changes) (ask : Session (List String)) : Session (Outcome (List String)) := do
  match ← Session.attempt ask with
  | .ok files => return (.ok files, { c with files := some files })
  | .error f => return (.error f, c)

/-- The changed files; the first answer is remembered. -/
def get (c : Changes) : Session (Outcome (List String)) := do
  match c.files with
  | some files => return (.ok files, c)
  | none =>
    c.note ("Context: " ++ c.context.text)
    match c.context with
    | .desk => c.remember c.staged
    | .pipeline => c.remember c.againstBase
    | .unknown =>
      match ← c.remember c.staged with
      | (.ok [], c) => c.remember c.againstBase
      | outcome => return outcome

end Changes

end AddonAudit
