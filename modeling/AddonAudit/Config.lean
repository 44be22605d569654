/-
  AddonAudit.Config — settings in use.

  Beside the settings it holds what was found out since they were read, so that nothing is looked
  for twice.
-/
import AddonAudit.Changes
import AddonAudit.Release.Detection
import AddonAudit.Settings

namespace AddonAudit

/-- Settings with what was found out since they were read. -/
structure Config where
  settings : Settings
  changes : Option Changes := none
  /-- The release version found from the current folder. -/
  found : Option String := none

namespace Config

/-- The outcome of a step, with the configuration after it. -/
abbrev Outcome (α : Type) := Except Fault α × Config

/-- Reads the settings of the current world. -/
def load (given : Option String) : Session Config := do
  return { settings := ← Session.ofExcept (Settings.load (← get) given) }

/-- The configuration with another scope. -/
def withScope (c : Config) (scope : String) : Config :=
  { c with settings := { c.settings with scope := .text scope } }

/-- What is known about changes, looked for once. -/
def watch (c : Config) : Session (Outcome Changes) := do
  match c.changes with
  | some ch => return (.ok ch, c)
  | none =>
    match ← Session.attempt (Changes.start c.settings.baseBranch) with
    | .ok ch => return (.ok ch, { c with changes := some ch })
    | .error f => return (.error f, c)

/-- The files that were changed, found once. -/
def changedFiles (c : Config) : Session (Outcome (List String)) := do
  match ← c.watch with
  | (.error f, c) => return (.error f, c)
  | (.ok ch, c) =>
    let (files, ch) ← ch.get
    return (files, { c with changes := some ch })

/-- Whether the path of a file, which has no null character in it, leads to one of the changed
    files. -/
def isChanged (w : World) (changed : List String) (path : String) : Bool :=
  changed.contains (w.resolve path)

/-- Keeps what lies in the scope: everything, or what belongs to a changed file. -/
def inScope {α : Type} (c : Config) (path : α → String) (xs : List α) :
    Session (Outcome (List α)) := do
  if !c.settings.changedOnly then return (.ok xs, c)
  match ← c.changedFiles with
  | (.error f, c) => return (.error f, c)
  | (.ok changed, c) =>
    let w ← MonadState.get
    return (.ok (xs.filter fun x => isChanged w changed (path x)), c)

/-- Where the program runs, found once. -/
def context (c : Config) : Session (Outcome Context) := do
  match ← c.watch with
  | (.error f, c) => return (.error f, c)
  | (.ok ch, c) => return (.ok ch.context, c)

/-- The release version: the one set, or else the one that the manifests around a path name; an
    empty path stands for the current folder, for which the answer is remembered. -/
def release (c : Config) (w : World) (path : String) : Except Fault (String × Config) := do
  match ← c.settings.releaseSet w with
  | some v => return (v, c)
  | none =>
    if path != "" then return (← Release.detect w path, c)
    match c.found with
    | some v => return (v, c)
    | none =>
      let v ← Release.detect w ""
      return (v, { c with found := some v })

/-- Sets the version that addons are for. -/
def setRelease (c : Config) (version : Datum) : Except Fault Config := do
  return { c with settings := { c.settings with release := some (← Release.normalizeDatum version) } }

end Config

end AddonAudit
