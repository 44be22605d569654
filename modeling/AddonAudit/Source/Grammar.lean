/-
  AddonAudit.Source.Grammar — the grammar of Python 3.11 as data.

  A rule is a list of alternatives, tried in order; the first one whose parts all match wins.  Each
  alternative says what it builds.  Rules named `invalid…` describe wrong programs: they are tried
  in a second pass over a text that the first pass refused, and blame a line instead of building.
-/
import AddonAudit.Source.Literal

namespace AddonAudit.Source

/-! ## §1. Nodes -/

/-- What a part of a rule yields. -/
inductive Node where
  /-- An optional part that is absent, or a part without a value. -/
  | none
  | token (t : Token)
  | many (parts : List Node)
  | expr (e : Expr)
  | args (positional : List Expr) (keywords : List (Option String × Expr))
  | keyword (name : Option String) (value : Expr)
  | entry (key : Option Expr) (value : Expr)
  | stmts (body : List Stmt)
  | decorators (es : List Expr)

instance : Inhabited Node := ⟨.none⟩

mutual
/-- What a node has of its own, or else what its parts have, in order. -/
def Node.gather {α : Type} (own : Node → List α) : Node → List α
  | .many parts => Node.gatherAll own parts
  | n => own n

def Node.gatherAll {α : Type} (own : Node → List α) : List Node → List α
  | [] => []
  | n :: ns => Node.gather own n ++ Node.gatherAll own ns
end

/-- The expressions among the parts, in order. -/
def Node.exprs : Node → List Expr := gather fun
  | .expr e => [e]
  | _ => []

/-- The statements among the parts, in order. -/
def Node.body : Node → List Stmt := gather fun
  | .stmts ss => ss
  | _ => []

/-- The keywords among the parts, in order. -/
def Node.keywords : Node → List (Option String × Expr) := gather fun
  | .keyword k e => [(k, e)]
  | .args _ ks => ks
  | _ => []

/-- The positional arguments among the parts, in order. -/
def Node.positional : Node → List Expr := gather fun
  | .expr e => [e]
  | .args es _ => es
  | _ => []

/-- The mapping entries among the parts, in order. -/
def Node.entries : Node → List (Option Expr × Expr) := gather fun
  | .entry k v => [(k, v)]
  | _ => []

def Node.toExpr (n : Node) : Expr := n.exprs.headD (.other 0)

def Node.text : Node → String
  | .token t => t.text
  | _ => ""

/-- The line on which a node starts, where it is known. -/
def Node.line : Node → Nat
  | .token t => t.line
  | .expr e => e.line
  | n => n.toExpr.line

/-! ## §2. Parts and alternatives -/

/-- Names of the rules. -/
inductive Rule where
  | file | literal | formatExpr | statements | statement | simpleStmts | simpleStmt | compoundStmt
  | assignment | annotatedRhs | augAssign | returnStmt | raiseStmt | globalStmt | nonlocalStmt
  | delStmt | yieldStmt | assertStmt | importStmt | importName | importFrom | importFromTargets
  | importFromAsNames | importFromAsName | dottedAsNames | dottedAsName | dottedName
  | block | decorators | classDef | classDefRaw | functionDef | functionDefRaw | params | parameters
  | slashNoDefault | slashWithDefault | starEtc | kwds | paramNoDefault | paramNoDefaultStar
  | paramWithDefault | paramMaybeDefault | param | paramStar | annotated | starAnnotated | default
  | ifStmt | elifStmt | elseBlock | whileStmt | forStmt | withStmt | withItem | tryStmt | exceptBlock
  | exceptStarBlock | finallyBlock | matchStmt | subjectExpr | caseBlock | guard | patterns | pattern
  | asPattern | orPattern | closedPattern | literalPattern | literalExpr | complexNumber
  | signedNumber | signedRealNumber | realNumber | imaginaryNumber | capturePattern
  | patternCaptureTarget | wildcardPattern | valuePattern | attr | nameOrAttr | groupPattern
  | sequencePattern | openSequencePattern | maybeSequencePattern | maybeStarPattern | starPattern
  | mappingPattern | itemsPattern | keyValuePattern | doubleStarPattern | classPattern
  | positionalPatterns | keywordPatterns | keywordPattern
  | expressions | expression | yieldExpr | starExpressions | starExpression | starNamedExpressions
  | starNamedExpression | assignmentExpression | namedExpression | disjunction | conjunction
  | inversion | comparison | comparePair | bitwiseOr | bitwiseXor | bitwiseAnd | shiftExpr | sum
  | term | factor | power | awaitPrimary | primary | slices | slice | atom | group | lambdef
  | lambdaParams | lambdaParameters | lambdaSlashNoDefault | lambdaSlashWithDefault | lambdaStarEtc
  | lambdaKwds | lambdaParamNoDefault | lambdaParamWithDefault | lambdaParamMaybeDefault | lambdaParam
  | strings | list | tuple | set | dict | doubleStarredKvpairs | doubleStarredKvpair | kvpair
  | forIfClauses | forIfClause | listcomp | setcomp | genexp | dictcomp | arguments | args | kwargs
  | starredExpression | kwargOrStarred | kwargOrDoubleStarred | starTargets | starTargetsListSeq
  | starTargetsTupleSeq | starTarget | targetWithStarAtom | starAtom | singleTarget
  | singleSubscriptAttributeTarget | tPrimary | tLookahead | delTargets | delTarget | delTAtom
  | expressionWithoutInvalid
  | invalidArguments | invalidKwarg | invalidLegacyExpression | invalidExpression
  | invalidNamedExpression | invalidAssignment | invalidAnnAssignTarget | invalidDelStmt | invalidBlock
  | invalidComprehension | invalidDictComprehension | invalidParameters | invalidParametersHelper
  | invalidDefault | invalidStarEtc | invalidKwds | invalidLambdaParameters
  | invalidLambdaParametersHelper | invalidLambdaStarEtc | invalidLambdaKwds | invalidWithItem
  | invalidForTarget | invalidGroup | invalidImportFromTargets | invalidWithStmt
  | invalidWithStmtIndent | invalidTryStmt | invalidExceptStmt | invalidFinallyStmt
  | invalidExceptStmtIndent | invalidExceptStarStmtIndent | invalidMatchStmt | invalidCaseBlock
  | invalidAsPattern | invalidClassPattern | invalidClassArgumentPattern | invalidIfStmt
  | invalidElifStmt | invalidElseStmt | invalidWhileStmt | invalidForStmt | invalidDefRaw
  | invalidClassDefRaw | invalidDoubleStarredKvpairs | invalidKvpair

/-- Parts of an alternative. -/
inductive Peg where
  | kind (k : TokenKind)
  | word (w : String)
  /-- A name that is a keyword only here. -/
  | soft (w : String)
  /-- Any name that is a keyword in some places, or the beginning of one. -/
  | anySoft
  | rule (r : Rule)
  | opt (p : Peg)
  | star (p : Peg)
  | plus (p : Peg)
  /-- One or more `p` with `sep` between them. -/
  | sepBy (sep p : Peg)
  | seq (ps : List Peg)
  | choice (ps : List Peg)
  | ahead (p : Peg)
  | notAhead (p : Peg)
  /-- From here on no other alternative of the rule is tried. -/
  | cut
  /-- A token without which the text is wrong. -/
  | forced (w : String)

/-- What becomes of an alternative whose parts matched. -/
inductive Verdict where
  | node (n : Node)
  /-- The rule fails and tries no other alternative. -/
  | refuse
  | blame (line : Nat)
  /-- The text is wrong at the last token read. -/
  | blameLast

/-- What an alternative knows besides its parts. -/
structure Place where
  line : Nat
  /-- Whether the last token stands inside a bracket. -/
  nested : Bool

/-- An alternative. -/
structure Alt where
  parts : List Peg
  act : Place → List Node → Verdict
  /-- Tried only on a text that is known to be wrong. -/
  onWrong : Bool := false

/-! ## §3. Builders -/

/-- Yields the node of the part at an index. -/
def pick (i : Nat) (_ : Place) (ns : List Node) : Verdict := .node (ns.getD i .none)

def keep (_ : Place) (ns : List Node) : Verdict := .node (.many ns)

def drop (_ : Place) (_ : List Node) : Verdict := .node .none

/-- An expression of no special form. -/
def plain (p : Place) (_ : List Node) : Verdict := .node (.expr (.other p.line))

/-- A simple statement of no special form. -/
def plainStmt (p : Place) (_ : List Node) : Verdict := .node (.stmts [.simple p.line])

/-- A compound statement with the bodies of all its parts. -/
def compound (p : Place) (ns : List Node) :
    Verdict := .node (.stmts [.compound p.line (Node.many ns).body])

def bodies (_ : Place) (ns : List Node) : Verdict := .node (.stmts (Node.many ns).body)

def binary (op : Operator) (p : Place) : List Node → Verdict
  | [a, _, b] => .node (.expr (.binary p.line op a.toExpr b.toExpr))
  | _ => .refuse

def unary (op : Operator) (p : Place) : List Node → Verdict
  | [_, a] => .node (.expr (.unary p.line op a.toExpr))
  | _ => .refuse

def nameExpr (p : Place) (ns : List Node) : Verdict :=
  .node (.expr (.name p.line ((ns.headD .none).text)))

def constant (d : Datum) (p : Place) (_ : List Node) : Verdict := .node (.expr (.constant p.line d))

def number (p : Place) (ns : List Node) : Verdict :=
  .node (.expr (.constant p.line (numberValue (ns.headD .none).text)))

def collect (f : Nat → List Expr → Expr) (p : Place) (ns : List Node) : Verdict :=
  .node (.expr (f p.line (Node.many ns).exprs))

/-- Blames the line of the part at an index. -/
def blameAt (i : Nat) (_ : Place) (ns : List Node) : Verdict := .blame (ns.getD i .none).line

/-- Blames the last token read. -/
def blameLast (_ : Place) (_ : List Node) : Verdict := .blameLast

/-- Blames the first part that cannot be a target. -/
def blameTarget (use : TargetUse) (i : Nat) (_ : Place) (ns : List Node) : Verdict :=
  match (ns.getD i .none).toExpr.invalidTarget? use with
  | some e => .blame e.line
  | none => .refuse

/-- A call of `print` or `exec` as a statement. -/
def isLegacy : Expr → Bool
  | .name _ id => id == "print" || id == "exec"
  | _ => false

def attributeOf (p : Place) : List Node → Verdict
  | a :: _ :: b :: _ => .node (.expr (.attribute p.line a.toExpr b.text))
  | _ => .refuse

def subscript (p : Place) (ns : List Node) : Verdict :=
  .node (.expr (.subscript p.line (ns.headD .none).toExpr))

def call (p : Place) : List Node → Verdict
  | f :: _ :: a :: _ => .node (.expr (.call p.line f.toExpr a.positional a.keywords))
  | _ => .refuse

/-- A call whose only argument is a generator. -/
def generatorCall (p : Place) : List Node → Verdict
  | f :: g :: _ => .node (.expr (.call p.line f.toExpr [g.toExpr] []))
  | _ => .refuse

def callArgs (_ : Place) (ns : List Node) : Verdict :=
  .node (.args (Node.many ns).positional (Node.many ns).keywords)

def comparing (p : Place) : List Node → Verdict
  | a :: .many (.many (.token t :: _) :: _) :: _ =>
    .node (.expr (.compare p.line (if t.text == "in" then .membership else .otherComparison)
      a.toExpr))
  | a :: _ => .node (.expr (.compare p.line .otherComparison a.toExpr))
  | [] => .refuse

def starred (p : Place) (ns : List Node) : Verdict :=
  .node (.expr (.starred p.line (ns.getD 1 .none).toExpr))

def keywordArg (_ : Place) (ns : List Node) : Verdict :=
  .node (.keyword (some (ns.getD 0 .none).text) (ns.getD 2 .none).toExpr)

def assignStmt (p : Place) : List Node → Verdict
  | targets :: value :: _ => .node (.stmts [.assign p.line targets.exprs value.toExpr])
  | _ => .refuse

def classStmt (p : Place) : List Node → Verdict
  | [_, name, bases, _, block] =>
    .node (.stmts [.classDef p.line name.text bases.positional [] block.body])
  | _ => .refuse

/-- A function whose name is the part at an index. -/
def functionStmt (i : Nat) (p : Place) (ns : List Node) : Verdict :=
  .node (.stmts [.functionDef p.line (ns.getD i .none).text [] (ns.getLastD .none).body])

/-- A decorated class or function. -/
def decorate (_ : Place) : List Node → Verdict
  | [.decorators es, .stmts ss] => .node (.stmts (ss.map (Stmt.decorate es)))
  | _ => .refuse

/-- Complex literals in patterns are a real part and an imaginary one. -/
def ensureImaginary (imaginary : Bool) (p : Place) (ns : List Node) : Verdict :=
  match numberValue (ns.headD .none).text with
  | .complex _ _ => if imaginary then .node .none else .blame p.line
  | _ => if imaginary then .blame p.line else .node .none

/-- A generator beside other arguments needs brackets. -/
def blameBareGenerator (_ : Place) (ns : List Node) : Verdict :=
  let es := (ns.headD .none).positional
  match es.getLast? with
  | some e => if es.length ≤ 1 then .refuse else .blame e.line
  | none => .refuse

/-- `print` and `exec` used as statements. -/
def blameLegacy (p : Place) (ns : List Node) : Verdict :=
  if isLegacy (.name p.line (ns.headD .none).text) then .blame p.line else .refuse

/-- Two expressions side by side inside a bracket. -/
def blameMissingComma (p : Place) (ns : List Node) : Verdict :=
  let e := (ns.getD 1 .none).toExpr
  if isLegacy e || !p.nested then .refuse else .blame e.line

/-- Words of the grammar that are ordinary names elsewhere. -/
def softWords : List String := ["_", "case", "match"]

/-- Whether a name is such a word or begins one. -/
def beginsSoftWord (s : String) : Bool := softWords.any fun soft => s.toList.isPrefixOf soft.toList

/-! ## §4. Shorthands for parts -/

abbrev NAME : Peg := .kind .name
abbrev NUMBER : Peg := .kind .number
abbrev STRING : Peg := .kind .string
abbrev NEWLINE : Peg := .kind .newline
abbrev INDENT : Peg := .kind .indent
abbrev DEDENT : Peg := .kind .dedent
abbrev ASYNC : Peg := .kind .asyncWord
abbrev AWAIT : Peg := .kind .awaitWord
abbrev ENDMARKER : Peg := .kind .endMarker

instance : Coe String Peg := ⟨.word⟩
instance : Coe Rule Peg := ⟨.rule⟩

def alt (parts : List Peg) (act : Place → List Node → Verdict) : Alt := ⟨parts, act, false⟩

/-- An alternative that only calls one rule. -/
def only (x : Rule) : Alt := ⟨[.rule x], pick 0, false⟩

def wrong (x : Rule) : Alt := ⟨[.rule x], pick 0, true⟩

/-- An alternative that calls a rule if something comes next. -/
def led (front : Peg) (x : Rule) : Alt := alt [.ahead front, x] (pick 1)

def words (ws : List String) : Peg := .choice (ws.map .word)

end AddonAudit.Source
