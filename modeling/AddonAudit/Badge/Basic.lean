/-
  AddonAudit.Badge.Basic — badges that show how much is documented.
-/
import AddonAudit.Datum
import AddonAudit.Decimal.Fixed

namespace AddonAudit.Badge

/-! ## §1. Colours -/

/-- Compares a figure with a whole number. -/
def compares (order : Order) (d : Datum) (n : Nat) : Except Fault Bool :=
  match d.number? with
  | some (.inl i) => .ok (byInt order i)
  | some (.inr (x, _)) => .ok (byFloat order x)
  | none => .error (.notComparable order d.kind "int")
where
  /-- Compares a whole number. -/
  byInt (order : Order) (i : Int) : Bool :=
    match order with
    | .less => i < n
    | .lessEq => i ≤ n
    | .greater => n < i
    | .greaterEq => n ≤ i
  byFloat (order : Order) (x : Float) : Bool :=
    match order with
    | .less => x < n.toFloat
    | .lessEq => x ≤ n.toFloat
    | .greater => n.toFloat < x
    | .greaterEq => n.toFloat ≤ x

/-- The least percentages of the colours for coverage, the best first. -/
def coverageColors : List (Nat × String) :=
  [(80, "brightgreen"), (60, "green"), (40, "yellow"), (20, "orange")]

/-- The first colour whose least percentage is reached. -/
def firstReached (d : Datum) : List (Nat × String) → Except Fault String
  | [] => .ok "red"
  | (least, color) :: rest => do
    if ← compares .greaterEq d least then return color else firstReached d rest

/-- The colour of a share that is covered. -/
def coverageColor (d : Datum) : Except Fault String := firstReached d coverageColors

/-- The colour of a number of errors. -/
def errorsColor (d : Datum) : Except Fault String := do
  if d.same (.int 0) then return "brightgreen"
  return if ← compares .lessEq d 5 then "yellow" else "red"

/-- The colour of a figure by what it measures. -/
def color (d : Datum) (metric : String) : Except Fault String :=
  if metric == "coverage" then coverageColor d
  else if metric == "errors" then errorsColor d
  else .ok "gray"

/-! ## §2. Addresses -/

/-- What a badge shows. -/
structure Badge where
  label : String
  message : String
  color : String
  logo : String := ""
  logoColor : String := "white"

/-- A label as part of an address. -/
def encodeLabel (s : String) : String := Text.replace (Text.replace s " " "%20") "-" "--"

/-- A message as part of an address; percent signs are encoded last. -/
def encodeMessage (s : String) : String := Text.replace (encodeLabel s) "%" "%25"

/-- The address that shows a badge. -/
def Badge.url (b : Badge) : String :=
  "https://img.shields.io/badge/" ++ encodeLabel b.label ++ "-" ++ encodeMessage b.message ++ "-" ++
    b.color ++
    (if b.logo == "" then "" else "?logo=" ++ b.logo ++ "&logoColor=" ++ b.logoColor)

/-! ## §3. Figures of a report -/

/-- The figure under two keys of a summary; none is zero. -/
def figure (summary : Datum) (part key : String) : Except Fault Datum := do
  Datum.entry key (.int 0) (← Datum.entry part (.table []) summary)

/-- A figure as a percentage with decimal places. -/
def percentText (places : Nat) : Datum → Except Fault String
  | .float x => .ok (Decimal.fixed places x ++ "%")
  | .int i => do return Decimal.fixed places (← Datum.realOfWhole i) ++ "%"
  | .bool b => .ok (Decimal.fixed places (if b then 1.0 else 0.0) ++ "%")
  | .text _ => .error .notANumber
  | d => .error (.noFormat d.kind)

/-- A badge for a share in per cent. -/
def percentBadge (label : String) (places : Nat) (d : Datum) (logo : String) :
    Except Fault Badge := do
  let message ← percentText places d
  return { label, message, color := ← coverageColor d, logo }

/-! ## §4. Badges of a report -/

/-- The least percentage of docstrings that passes. -/
def passingShare : Nat := 10

/-- The badge that says whether the standards are met. -/
def standardsBadge (passing : Bool) : Badge where
  label := "Documentation Standards"
  message := if passing then "passing" else "review needed"
  color := if passing then "brightgreen" else "yellow"
  logo := "github"

/-- The badges of a report in one line. -/
def markdown (report : Datum) : Except Fault String := do
  let summary ← Datum.entry "summary" (.table []) report
  let coverage ← figure summary "methods" "coverage"
  let docstrings ← percentBadge "docstrings" 1 coverage "python"
  let standards := standardsBadge (← compares .greaterEq coverage passingShare)
  return "![Docstrings](" ++ docstrings.url ++ ") ![Documentation Standards](" ++ standards.url ++
    ")"

/-- One badge as an image. -/
def imageLine (b : Badge) (title : String) : String :=
  "  <img src=\"" ++ b.url ++ "\" alt=\"" ++ title ++ "\">\n"

/-- The badges of a report as images. -/
def html (report : Datum) : Except Fault String := do
  let summary ← Datum.entry "summary" (.table []) report
  let docstrings ← figure summary "methods" "coverage"
  let labels ← figure summary "fields" "string_coverage"
  let help ← figure summary "fields" "help_coverage"
  let score ← Datum.entry "overall_score" (.int 0) summary
  let docstrings ← percentBadge "docstrings" 1 docstrings "python"
  let labels ← percentBadge "field strings" 1 labels "odoo"
  let help ← percentBadge "field help" 1 help "odoo"
  let score ← percentBadge "doc score" 0 score "readthedocs"
  return "<div align=\"center\">\n" ++ imageLine docstrings "Docstrings" ++
    imageLine labels "Field Strings" ++ imageLine help "Field Help" ++
    imageLine score "Doc Score" ++
    "</div>"

/-! ## §5. Badges in a text -/

def startMark : String := "<!-- BADGES:START -->"

def endMark : String := "<!-- BADGES:END -->"

/-- A text with its badges replaced: what stands before the end of the first start mark, the badges,
    and what stands from the first end mark on.  None if a mark is missing. -/
def replaced? (text badges : String) : Option String := do
  let (before, _) ← Text.cutFirst? startMark.toList text.toList
  let (_, after) ← Text.cutFirst? endMark.toList text.toList
  return String.ofList before ++ startMark ++ "\n" ++ badges ++ "\n" ++ endMark ++
    String.ofList after

end AddonAudit.Badge
