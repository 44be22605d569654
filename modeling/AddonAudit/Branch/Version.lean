/-
  AddonAudit.Branch.Version — the release version in a branch name.

  A version is a run of digits followed by `.0`.  It is looked for at the start, after a type, and
  then anywhere.
-/
import AddonAudit.Text.Basic
import AddonAudit.Text.Digit

namespace AddonAudit.Branch

/-- The version at the front of a text. -/
def versionAt? (cs : List Char) : Option String :=
  let digits := cs.takeWhile Text.isDecimal
  match digits, cs.drop digits.length with
  | _ :: _, '.' :: '0' :: _ => some (String.ofList digits ++ ".0")
  | _, _ => none

/-- The version after a type in small letters and a slash. -/
def versionAfterType? (cs : List Char) : Option String :=
  let type := cs.takeWhile fun c => 'a' ≤ c && c ≤ 'z'
  match type, cs.drop type.length with
  | _ :: _, '/' :: rest => versionAt? rest
  | _, _ => none

/-- The first version in a text. -/
def firstVersion? : List Char → Option String
  | [] => none
  | c :: cs => (versionAt? (c :: cs)).or (firstVersion? cs)

/-- The version of a name. -/
def versionOf (name : String) : Option String :=
  let cs := name.toList
  ((versionAt? cs).or (versionAfterType? cs)).or (firstVersion? cs)

end AddonAudit.Branch
