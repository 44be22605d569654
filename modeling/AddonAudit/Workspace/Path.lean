/-
  AddonAudit.Workspace.Path — path names.

  A path is a text whose components are separated by slashes.  `normalize` resolves `.` and `..` in
  the text alone; `tidy` only drops empty and `.` components.
-/
import AddonAudit.Text.Basic

namespace AddonAudit.Path

/-! ## §1. Components -/

def pieces (p : String) : List String := Text.splitAt '/' p

/-- The components of a path, without empty and `.` ones. -/
def components (p : String) : List String := (pieces p).filter fun s => s != "" && s != "."

def isAbsolute (p : String) : Bool := Text.startsWith p "/"

/-! ## §2. Joining and normal forms -/

/-- Appends a path to another; an absolute one replaces it. -/
def join (a b : String) : String :=
  if isAbsolute b then b
  else if a == "" || Text.endsWith a "/" then a ++ b
  else a ++ "/" ++ b

/-- Pushes a component; `..` cancels the one before it and is dropped at the root. -/
def pushComponent (absolute : Bool) (stack : List String) (c : String) : List String :=
  if c == ".." then
    match stack with
    | [] => if absolute then [] else [".."]
    | top :: rest => if top == ".." then ".." :: stack else rest
  else c :: stack

/-- The slashes that a path starts with: two stay two, more become one. -/
def rootOf (p : String) : String :=
  if !isAbsolute p then ""
  else if Text.startsWith p "//" && !Text.startsWith p "///" then "//"
  else "/"

def normalize (p : String) : String :=
  let root := rootOf p
  let parts := ((components p).foldl (pushComponent (root != "")) []).reverse
  let s := root ++ "/".intercalate parts
  if s == "" then "." else s

/-- The normal form of a path seen from a folder. -/
def absolute (cwd p : String) : String := normalize (join cwd p)

/-- The path without empty and `.` components. -/
def tidy (p : String) : String :=
  let s := rootOf p ++ "/".intercalate (components p)
  if s == "" then "." else s

/-- The tidy form of a path inside a folder. -/
def child (a b : String) : String := if isAbsolute b then tidy b else tidy (join a b)

/-! ## §3. Names and suffixes -/

def basename (p : String) : String := (pieces p).getLastD ""

/-- The part before the last slash, without slashes at its end unless it has nothing else. -/
def dirname (p : String) : String :=
  let cs := p.toList
  let head := cs.take (cs.length - (basename p).length)
  if head.all (· == '/') then String.ofList head
  else String.ofList (Text.dropTailWhile (· == '/') head)

/-- Splits off the suffix that starts at the last dot of the name; leading dots start no suffix. -/
def splitSuffix (p : String) : String × String :=
  let name := (basename p).toList
  match Text.cutLast? '.' name with
  | some (stem, ext) =>
    if stem.all (· == '.') then (p, "")
    else
      let cs := p.toList
      (String.ofList (cs.take (cs.length - ext.length - 1)), String.ofList ('.' :: ext))
  | none => (p, "")

def name (p : String) : String := (components p).getLastD ""

/-- The suffix of the last component: from its last dot on, unless that is its first or last
    character. -/
def suffix (p : String) : String :=
  match Text.cutLast? '.' (name p).toList with
  | some (stem, ext) => if stem.isEmpty || ext.isEmpty then "" else String.ofList ('.' :: ext)
  | none => ""

/-- The folder above; the root and the empty path are their own. -/
def parent (p : String) : String :=
  let cs := components p
  let s := rootOf p ++ "/".intercalate cs.dropLast
  if s == "" then "." else s

/-! ## §4. Relative paths -/

/-- What remains of two lists after their common start. -/
def dropCommon : List String → List String → List String × List String
  | a :: as, b :: bs => if a == b then dropCommon as bs else (a :: as, b :: bs)
  | as, bs => (as, bs)

/-- The path of `p` seen from `start`, both seen from `cwd`. -/
def relative (cwd p start : String) : String :=
  let (up, down) := dropCommon (components (absolute cwd start)) (components (absolute cwd p))
  let parts := up.map (fun _ => "..") ++ down
  if parts.isEmpty then "." else "/".intercalate parts

end AddonAudit.Path
