/-
  AddonAudit.Pattern.Template — replacements that refer to the groups of a match.

  A replacement is a text in which a backslash starts an escape: a character by letter or octal
  number, or a group by number or name.  A backslash before any other character than a letter stands
  for itself.
-/
import AddonAudit.Pattern.Reader

namespace AddonAudit.Pattern

/-! ## §1. Pieces -/

/-- A piece of a replacement. -/
inductive Piece where
  /-- A character that stands for itself. -/
  | char (c : Char)
  /-- The text of a group; group zero is the whole match. -/
  | group (n : Nat)
  deriving DecidableEq

/-- A replacement with the texts of its groups filled in. -/
def fill (groups : Nat → List Char) (ps : List Piece) : List Char :=
  ps.flatMap fun
    | .char c => [c]
    | .group n => groups n

/-! ## §2. Reading -/

/-- Refers to a group, if there are that many; `offset` leads back to where it is named. -/
def groupPiece (count n offset : Nat) : Read Piece := do
  if count < n then failBack (.noSuchGroup n) offset
  return .group n

/-- Reads a group in angle brackets.  No group has a name. -/
def bracketGroup (count : Nat) : Read Piece := do
  if !(← accept '<') then fail (.missing "<")
  let name ← takeName '>' "group name"
  if Text.isIdentifier name.toList then throw (.noName name)
  match Decimal.readWhole name with
  | .ok n =>
    if n < 0 then failBack (.badGroupName name) (name.length + 1)
    else groupPiece count n.toNat (name.length + 1)
  | .error _ => failBack (.badGroupName name) (name.length + 1)

/-- Reads an escape that starts with a digit other than zero: an octal number of three digits, or a
    group of one or two. -/
def numberPiece (count : Nat) (c : Char) : Read Piece := do
  match (← get).next with
  | some [d] =>
    if !d.isDigit then return ← groupPiece count (Decimal.digitsValue 10 [c]) 1
    advance
    match (← get).next with
    | some [e] =>
      if isOctal c && isOctal d && isOctal e then
        advance
        let n := Decimal.digitsValue 8 [c, d, e]
        if 0o377 < n then failBack (.octalTooLarge (String.ofList ['\\', c, d, e])) 4
        return .char (Char.ofNat n)
      else groupPiece count (Decimal.digitsValue 10 [c, d]) 2
    | _ => groupPiece count (Decimal.digitsValue 10 [c, d]) 2
  | _ => groupPiece count (Decimal.digitsValue 10 [c]) 1

def escapePieces (count : Nat) (c : Char) : Read (List Piece) := do
  if c == 'g' then return [← bracketGroup count]
  else if c == '0' then
    let digits ← takeWhile isOctal 2
    return [.char (Char.ofNat (Decimal.digitsValue 8 digits % 256))]
  else if c.isDigit then return [← numberPiece count c]
  else match plainEscapes.lookup c with
    | some n => return [.char (Char.ofNat n)]
    | none =>
      if c.isAlpha then failBack (.badEscape (written c [])) 2
      return [.char '\\', .char c]

def readPieces (count : Nat) : (fuel : Nat) → Read (List Piece)
  | 0 => return []
  | fuel + 1 => do
    match ← token with
    | none => return []
    | some ['\\', c] => return (← escapePieces count c) ++ (← readPieces count fuel)
    | some t => return t.map .char ++ (← readPieces count fuel)

/-- The pieces of a replacement for a pattern with a number of groups. -/
def readTemplate (count : Nat) (source : String) : Except Problem (List Piece) :=
  ((do advance; readPieces count (source.length + 1))
    { rest := source.toList, length := source.length } :
    Except Problem (List Piece × State)).map (·.1)

end AddonAudit.Pattern
