/-
  AddonAudit.Report.Basic — the findings of an addon under its settings.

  The settings say which checks are dropped, how grave a finding is and which severities block;
  every other view of a report is computed from its findings.
-/
import AddonAudit.Findings
import AddonAudit.Settings

namespace AddonAudit

/-- Findings with the settings under which they count. -/
structure Report where
  settings : Settings
  findings : Findings := []

namespace Report

/-- The folder below which a build server keeps its checkouts. -/
def checkoutFolder : List Char := "/home/runner/work/".toList

/-- How many characters of a checkout's path stand in front: the folder, a name and a slash. -/
def checkoutSpan (cs : List Char) : Nat :=
  match Text.afterFront? checkoutFolder cs with
  | none => 0
  | some rest =>
    let name := rest.takeWhile (· != '/')
    match name, rest.drop name.length with
    | _ :: _, '/' :: _ => checkoutFolder.length + name.length + 1
    | _, _ => 0

/-- Drops the paths of checkouts, passing over `skip` characters first. -/
def dropCheckouts (skip : Nat) : List Char → List Char
  | [] => []
  | c :: cs =>
    match skip with
    | n + 1 => dropCheckouts n cs
    | 0 =>
      match checkoutSpan (c :: cs) with
      | 0 => c :: dropCheckouts 0 cs
      | n + 1 => dropCheckouts n cs

/-- A message without the paths of checkouts. -/
def shorten (message : String) : String := String.ofList (dropCheckouts 0 message.toList)

/-- Adds the messages of a check, unless there are none or the check is disabled. -/
def add (r : Report) (check : String) (messages : List String) : Report :=
  if messages.isEmpty || r.settings.isDisabled check then r
  else { r with findings := Groups.append check (messages.map shorten) r.findings }

def addAll (r : Report) (found : Findings) : Report :=
  found.foldl (fun r (check, messages) => r.add check messages) r

/-- Makes sure that a check has an entry. -/
def touch (r : Report) (check : String) : Report :=
  if r.findings.any (·.1 == check) then r
  else { r with findings := r.findings ++ [(check, [])] }

def ofSeverity (r : Report) (s : Severity) : Findings :=
  r.findings.filter fun (check, _) => r.settings.severity check == s

/-- How many messages there are of each severity, counted check by check. -/
def counts (r : Report) : Severity → Nat :=
  r.findings.foldl (fun counts (check, messages) s =>
    if r.settings.severity check == s then counts s + messages.length else counts s) fun _ => 0

/-- How many messages there are of a severity. -/
def count (r : Report) (s : Severity) : Nat := r.counts s

def blocks (r : Report) (s : Severity) : Bool := r.settings.blocks s.text

def isBlocking (r : Report) : Bool :=
  r.findings.any fun (check, messages) => !messages.isEmpty && r.blocks (r.settings.severity check)

def hasErrorsOrWarnings (r : Report) : Bool := 0 < r.count .error || 0 < r.count .warning

def isEmpty (r : Report) : Bool := r.findings.all (·.2.isEmpty)

/-- Whether a message would be shown; those that only inform count when they are asked for. -/
def isVisible (r : Report) (showInfo : Bool) : Bool :=
  r.findings.any fun (check, messages) =>
    !messages.isEmpty && (showInfo || r.settings.severity check != .info)

end Report

end AddonAudit
