/-
  AddonAudit.Workspace.Glob — the paths that a pattern covers.

  A pattern is a path whose components may hold wildcards.  Names that start with a dot are covered
  only by a component that starts with one.
-/
import AddonAudit.Text.Wildcard
import AddonAudit.Workspace.World

namespace AddonAudit.Glob

def hasWildcard (s : String) : Bool := s.toList.any fun c => c == '*' || c == '?' || c == '['

def isHidden (name : String) : Bool := Text.startsWith name "."

def namesIn (w : World) (folder component : String) (foldersOnly : Bool) : List String :=
  let here := if folder == "" then "." else folder
  (w.list here).filter fun n =>
    (isHidden component || !isHidden n) && Wildcard.covers component n &&
      (!foldersOnly || w.isFolder (Path.join here n))

/-- The paths that a pattern covers, at most `depth` components of it being split off. -/
def expand (w : World) (foldersOnly : Bool) : (depth : Nat) → (pattern : String) → List String
  | 0, _ => []
  | depth + 1, pattern =>
    if !hasWildcard pattern then if w.holds pattern then [pattern] else []
    else
      let folder := Path.dirname pattern
      let component := Path.basename pattern
      let folders := if hasWildcard folder then expand w true depth folder else [folder]
      folders.flatMap fun f =>
        if hasWildcard component then
          (namesIn w f component foldersOnly).map (Path.join f)
        else
          let path := Path.join f component
          if w.holds path then [path] else []

def paths (w : World) (pattern : String) : List String :=
  expand w false ((Path.pieces pattern).length + 1) pattern

end AddonAudit.Glob
