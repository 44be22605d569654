/-
  AddonAudit.Setup.Pin — places in a text that pin a version.

  A pin is a mark followed by a version `vX.Y.Z`: either `rev:` and blanks, or `@`.  Other places
  that look like versions are left alone.
-/
import AddonAudit.Pattern.Template

namespace AddonAudit.Setup

/-! ## §1. Pins -/

/-- What stands before a pinned version. -/
inductive Mark where
  | revision
  | handle
  deriving DecidableEq

def revisionWord : List Char := ['r', 'e', 'v', ':']

/-- Splits a mark off the front of a text. -/
def Mark.split? : Mark → List Char → Option (List Char × List Char)
  | .revision, cs => do
    let rest ← Text.afterFront? revisionWord cs
    return (revisionWord ++ rest.takeWhile Text.isBlank, rest.dropWhile Text.isBlank)
  | .handle, '@' :: rest => some (['@'], rest)
  | .handle, _ => none

/-- Splits a number off the front of a text. -/
def splitNumber? (cs : List Char) : Option (List Char × List Char) :=
  match cs.takeWhile Text.isDecimal with
  | [] => none
  | digits => some (digits, cs.dropWhile Text.isDecimal)

def versionAtFront? (cs : List Char) : Option (List Char) := do
  let rest ← Text.afterFront? ['v'] cs
  let (major, rest) ← splitNumber? rest
  let rest ← Text.afterFront? ['.'] rest
  let (minor, rest) ← splitNumber? rest
  let rest ← Text.afterFront? ['.'] rest
  let (patch, _) ← splitNumber? rest
  return 'v' :: major ++ '.' :: minor ++ '.' :: patch

/-- A pinned version and what stands before it. -/
structure Pin where
  lead : List Char
  version : List Char

def Pin.text (p : Pin) : List Char := p.lead ++ p.version

def Mark.pin? (m : Mark) (cs : List Char) : Option Pin := do
  let (lead, rest) ← m.split? cs
  return ⟨lead, ← versionAtFront? rest⟩

/-! ## §2. Replacing versions -/

/-- A replacement for a pin; its first group is what stands before the version. -/
def Pin.fill (template : List Pattern.Piece) (p : Pin) : List Char :=
  Pattern.fill (fun n => if n == 0 then p.text else p.lead) template

/-- Replaces all pins of a text from left to right, after `skip` characters that are passed over. -/
def Mark.replaceFrom (m : Mark) (template : List Pattern.Piece) :
    (skip : Nat) → List Char → List Char
  | _, [] => []
  | skip + 1, _ :: cs => m.replaceFrom template skip cs
  | 0, c :: cs =>
    match m.pin? (c :: cs) with
    | some pin => pin.fill template ++ m.replaceFrom template (pin.text.length - 1) cs
    | none => c :: m.replaceFrom template 0 cs

/-- A text with all its pins set to a version: first those of revisions, then those after at signs.
    The version is read as a replacement, so that a backslash in it starts an escape. -/
def pinVersion (version text : String) : Except Fault String := do
  let source := "\\g<1>" ++ version
  let template ← (Pattern.readTemplate 1 source).mapError (Pattern.Problem.fault source)
  return String.ofList
    (Mark.replaceFrom .handle template 0 (Mark.replaceFrom .revision template 0 text.toList))

end AddonAudit.Setup
