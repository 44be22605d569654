/-
  AddonAudit.Report.Printer — reports as text.
-/
import AddonAudit.Report.Basic

namespace AddonAudit

/-! ## §1. Styles -/

/-- How reports are printed. -/
structure Style where
  colors : Bool
  symbols : Bool
  /-- How many messages of a check are shown; a negative number leaves out that many at the end. -/
  limit : Option Int
  showInfo : Bool
  /-- Whether output goes to the error channel. -/
  toErrors : Bool

/-- What is asked of a style; what is left open depends on the world. -/
structure StyleRequest where
  colors : Bool := true
  symbols : Option Bool := none
  limit : Option Int := none
  showInfo : Bool := true
  toErrors : Bool := false

/-- The limit of messages outside of a pipeline. -/
def usualLimit : Int := 10

def Style.of (w : World) (q : StyleRequest) : Style where
  colors := q.colors && w.terminal
  symbols := q.symbols.getD (w.terminal && (w.setting? "CI").isNone)
  limit := q.limit.or (if w.variableSet "CI" then none else some usualLimit)
  showInfo := q.showInfo
  toErrors := q.toErrors

namespace Style

/-- The code that ends a colour. -/
def reset : String := "\x1b[0m"

def boldCode : String := "\x1b[1m"

def green : String := "\x1b[92m"

def colorOf : Severity → String
  | .error => "\x1b[91m"
  | .warning => "\x1b[93m"
  | .info => "\x1b[94m"

def icon (st : Style) (s : Severity) : String :=
  match st.symbols, s with
  | true, .error => "❌"
  | true, .warning => "⚠️"
  | true, .info => "ℹ️"
  | false, .error => "[ERROR]"
  | false, .warning => "[WARN]"
  | false, .info => "[INFO]"

def paint (st : Style) (text color : String) : String :=
  if st.colors then color ++ text ++ reset else text

def bold (st : Style) (text : String) : String := st.paint text boldCode

end Style

/-! ## §2. The lines of a report -/

def checkTitle (check : String) : String := Text.title (Text.replace check "_" " ")

def maxMessage : Nat := 200

def cutMessage (message : String) : String :=
  if maxMessage < message.length then Text.take message (maxMessage - 3) ++ "..." else message

def Style.shown (st : Style) (messages : List String) : List String :=
  match st.limit with
  | none => messages
  | some n => if 0 ≤ n then messages.take n.toNat else messages.take (messages.length - n.natAbs)

/-- The line that says how many messages are not shown. -/
def Style.remainder (st : Style) (messages : List String) : List String :=
  match st.limit with
  | none => []
  | some n =>
    if n != 0 && n < messages.length then
      ["    ... and " ++ toString ((messages.length : Int) - n) ++ " more"]
    else []

def checkLines (st : Style) (check : String) (messages : List String) : List String :=
  ["\n  " ++ st.bold (checkTitle check) ++ " (" ++ toString messages.length ++ ")"] ++
    (st.shown messages).map (fun m => "    - " ++ cutMessage m) ++ st.remainder messages

/-- Whether findings of a severity are shown. -/
def Style.shows (st : Style) (s : Severity) : Bool := s != .info || st.showInfo

/-- A line of hyphens below a title. -/
def thinRule : String := Text.times "-" 50

/-- A line of equals signs. -/
def thickRule : String := Text.times "=" 60

def severityLines (st : Style) (r : Report) (s : Severity) : List String :=
  let found := r.ofSeverity s
  if found.isEmpty || !st.shows s then []
  else
    let header := st.paint (st.icon s ++ " " ++ Text.upper s.text ++ "S (" ++
      toString (r.count s) ++ ")") (Style.colorOf s)
    let mark := if r.blocks s then st.paint " [BLOCKING]" (Style.colorOf .error) else ""
    ["", header ++ mark, thinRule] ++
      (found.mergeSort fun a b => decide (a.1 ≤ b.1)).flatMap fun (check, messages) =>
        checkLines st check messages

def summaryPart (st : Style) (r : Report) (s : Severity) : Option String :=
  let n := r.count s
  if s == .info && (!st.showInfo || n == 0) then none
  else some (st.paint
    (st.icon s ++ " " ++ toString n ++ " " ++ s.text ++ (if n == 1 then "" else "s") ++
      (if r.blocks s && 0 < n then " (blocking)" else "")) (Style.colorOf s))

def scopeLabel (changedOnly : Bool) : String :=
  if changedOnly then "changed files only" else "full repository"

def moduleLines (st : Style) (addon : String) (changedOnly : Bool) : List String :=
  if addon == "" then []
  else [st.bold thickRule, st.bold ("MODULE: " ++ addon), "   Scope: " ++ scopeLabel changedOnly,
    st.bold thickRule]

/-- The lines of a report; an empty one has none. -/
def Report.lines (st : Style) (r : Report) (addon : String) (changedOnly : Bool) : List String :=
  if r.isEmpty then []
  else [""] ++ moduleLines st addon changedOnly ++ Severity.all.flatMap (severityLines st r) ++
    ["", thinRule, "Summary: " ++ " | ".intercalate (Severity.all.filterMap (summaryPart st r))]

/-! ## §3. Other lines -/

/-- The lines that say that a report blocks. -/
def Report.noticeLines (st : Style) (r : Report) : List String :=
  if !r.isBlocking then []
  else
    let red := Style.colorOf .error
    ["", st.paint thickRule red, st.paint "VALIDATION FAILED - Blocking issues found" red,
      st.paint thickRule red, ""]

/-- The line that says that an addon has no findings. -/
def successLine (st : Style) (addon : String) (changedOnly : Bool) : String :=
  st.paint
    (if addon == "" then "All checks passed!"
      else addon ++ ": All checks passed! " ++
      (if changedOnly then "(changed files)" else "(full)"))
    Style.green

/-! ## §4. Printing -/

def Style.print (st : Style) (lines : List String) : Session Unit :=
  lines.forM (if st.toErrors then Session.warnLine else Session.printLine)

end AddonAudit
