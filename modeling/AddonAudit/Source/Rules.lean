/-
  AddonAudit.Source.Rules — the rules of the grammar of Python 3.11.
-/
import AddonAudit.Source.Grammar

namespace AddonAudit.Source

/-! ## §1. Rules with special treatment -/

/-- Rules whose results are remembered for each place in the text. -/
def Rule.memo : Rule → Bool
  | .arguments | .awaitPrimary | .block | .closedPattern | .conjunction | .delTarget | .disjunction |
  .expression | .factor | .invalidNamedExpression | .inversion | .simpleStmt | .starExpression |
  .starPattern | .starTarget | .strings | .targetWithStarAtom => true
  | _ => false

/-- Rules that call themselves at the same place. -/
def Rule.leftRecursive : Rule → Bool
  | .attr | .bitwiseAnd | .bitwiseOr | .bitwiseXor | .dottedName | .primary | .shiftExpr | .sum |
  .tPrimary | .term => true
  | _ => false

/-- The rule below which no alternative for wrong texts is tried. -/
def Rule.quiet : Rule → Bool
  | .expressionWithoutInvalid => true
  | _ => false

def Rule.isStrings : Rule → Bool
  | .strings => true
  | _ => false

/-! ## §2. The alternatives of every rule -/

/-- The alternatives of a rule, in the order in which they are tried. -/
def Rule.alts : Rule → List Alt
  -- Whole texts
  | .file => [alt [.opt statements, ENDMARKER] bodies]
  | .literal => [alt [expressions, .star NEWLINE, ENDMARKER] (pick 0)]
  | .formatExpr => [only starExpressions]
  -- Statements
  | .statements => [alt [.plus statement] bodies]
  | .statement => [only compoundStmt, only simpleStmts]
  | .simpleStmts =>
    [alt [simpleStmt, .notAhead ";", NEWLINE] (pick 0),
     alt [.sepBy ";" simpleStmt, .opt ";", NEWLINE] bodies]
  | .simpleStmt =>
    [only assignment,
     alt [starExpressions] (fun p ns => .node (.stmts [.expr p.line (ns.headD .none).toExpr])),
     led "return" returnStmt,
     led (words ["import", "from"]) importStmt,
     led "raise" raiseStmt,
     alt ["pass"] plainStmt,
     led "del" delStmt,
     led "yield" yieldStmt,
     led "assert" assertStmt,
     alt ["break"] plainStmt,
     alt ["continue"] plainStmt,
     led "global" globalStmt,
     led "nonlocal" nonlocalStmt]
  | .compoundStmt =>
    [led (.choice ["def", "@", ASYNC]) functionDef,
     led "if" ifStmt,
     led (words ["class", "@"]) classDef,
     led (.choice ["with", ASYNC]) withStmt,
     led (.choice ["for", ASYNC]) forStmt,
     led "try" tryStmt,
     led "while" whileStmt,
     only matchStmt]
  | .assignment =>
    [alt [NAME, ":", expression, .opt (.seq ["=", annotatedRhs])] plainStmt,
     alt [.choice [.seq ["(", singleTarget, ")"], singleSubscriptAttributeTarget], ":",
       expression, .opt (.seq ["=", annotatedRhs])] plainStmt,
     alt [.plus (.seq [starTargets, "="]), .choice [yieldExpr, starExpressions], .notAhead "="]
       assignStmt,
     alt [singleTarget, augAssign, .cut, .choice [yieldExpr, starExpressions]] plainStmt,
     wrong invalidAssignment]
  | .annotatedRhs => [only yieldExpr, only starExpressions]
  | .augAssign =>
    [alt [words ["+=", "-=", "*=", "@=", "/=", "%=", "&=", "|=", "^=", "<<=", ">>=", "**=",
      "//="]] drop]
  | .returnStmt => [alt ["return", .opt starExpressions] plainStmt]
  | .raiseStmt =>
    [alt ["raise", expression, .opt (.seq ["from", expression])] plainStmt,
     alt ["raise"] plainStmt]
  | .globalStmt => [alt ["global", .sepBy "," NAME] plainStmt]
  | .nonlocalStmt => [alt ["nonlocal", .sepBy "," NAME] plainStmt]
  | .delStmt =>
    [alt ["del", delTargets, .ahead (.choice [";", NEWLINE])] plainStmt, wrong invalidDelStmt]
  | .yieldStmt =>
    [alt [yieldExpr] (fun p ns => .node (.stmts [.expr p.line (ns.headD .none).toExpr]))]
  | .assertStmt => [alt ["assert", expression, .opt (.seq [",", expression])] plainStmt]
  | .importStmt => [only importName, only importFrom]
  | .importName => [alt ["import", dottedAsNames] plainStmt]
  | .importFrom =>
    [alt ["from", .star (words [".", "..."]), dottedName, "import", importFromTargets] plainStmt,
     alt ["from", .plus (words [".", "..."]), "import", importFromTargets] plainStmt]
  | .importFromTargets =>
    [alt ["(", importFromAsNames, .opt ",", ")"] drop,
     alt [importFromAsNames, .notAhead ","] drop,
     alt ["*"] drop,
     wrong invalidImportFromTargets]
  | .importFromAsNames => [alt [.sepBy "," importFromAsName] drop]
  | .importFromAsName => [alt [NAME, .opt (.seq ["as", NAME])] drop]
  | .dottedAsNames => [alt [.sepBy "," dottedAsName] drop]
  | .dottedAsName => [alt [dottedName, .opt (.seq ["as", NAME])] drop]
  | .dottedName => [alt [dottedName, ".", NAME] drop, alt [NAME] drop]
  -- Compound statements
  | .block =>
    [alt [NEWLINE, INDENT, statements, DEDENT] (pick 2), only simpleStmts, wrong invalidBlock]
  | .decorators =>
    [alt [.plus (.seq ["@", namedExpression, NEWLINE])]
      (fun _ ns => .node (.decorators (Node.many ns).exprs))]
  | .classDef => [alt [decorators, classDefRaw] decorate, only classDefRaw]
  | .classDefRaw =>
    [wrong invalidClassDefRaw,
     alt ["class", NAME, .opt (.seq ["(", .opt arguments, ")"]), ":", block] classStmt]
  | .functionDef => [alt [decorators, functionDefRaw] decorate, only functionDefRaw]
  | .functionDefRaw =>
    [wrong invalidDefRaw,
     alt ["def", NAME, .forced "(", .opt params, ")", .opt (.seq ["->", expression]),
       .forced ":", block] (functionStmt 1),
     alt [ASYNC, "def", NAME, .forced "(", .opt params, ")", .opt (.seq ["->",
       expression]), .forced ":", block] (functionStmt 2)]
  | .params => [wrong invalidParameters, alt [parameters] drop]
  | .parameters =>
    [alt [slashNoDefault, .star paramNoDefault, .star paramWithDefault, .opt starEtc] drop,
     alt [slashWithDefault, .star paramWithDefault, .opt starEtc] drop,
     alt [.plus paramNoDefault, .star paramWithDefault, .opt starEtc] drop,
     alt [.plus paramWithDefault, .opt starEtc] drop,
     alt [starEtc] drop]
  | .slashNoDefault =>
    [alt [.plus paramNoDefault, "/", ","] drop,
     alt [.plus paramNoDefault, "/", .ahead ")"] drop]
  | .slashWithDefault =>
    [alt [.star paramNoDefault, .plus paramWithDefault, "/", ","] drop,
     alt [.star paramNoDefault, .plus paramWithDefault, "/", .ahead ")"] drop]
  | .starEtc =>
    [wrong invalidStarEtc,
     alt ["*", paramNoDefault, .star paramMaybeDefault, .opt kwds] drop,
     alt ["*", paramNoDefaultStar, .star paramMaybeDefault, .opt kwds] drop,
     alt ["*", ",", .plus paramMaybeDefault, .opt kwds] drop,
     alt [kwds] drop]
  | .kwds => [wrong invalidKwds, alt ["**", paramNoDefault] drop]
  | .paramNoDefault => [alt [param, ","] (pick 0), alt [param, .ahead ")"] (pick 0)]
  | .paramNoDefaultStar => [alt [paramStar, ","] drop, alt [paramStar, .ahead ")"] drop]
  | .paramWithDefault => [alt [param, default, ","] drop, alt [param, default, .ahead ")"] drop]
  | .paramMaybeDefault =>
    [alt [param, .opt default, ","] drop, alt [param, .opt default, .ahead ")"] drop]
  | .param => [alt [NAME, .opt annotated] (pick 0)]
  | .paramStar => [alt [NAME, starAnnotated] drop]
  | .annotated => [alt [":", expression] drop]
  | .starAnnotated => [alt [":", starExpression] drop]
  | .default => [alt ["=", expression] drop, wrong invalidDefault]
  | .ifStmt =>
    [wrong invalidIfStmt,
     alt ["if", namedExpression, ":", block, elifStmt] compound,
     alt ["if", namedExpression, ":", block, .opt elseBlock] compound]
  | .elifStmt =>
    [wrong invalidElifStmt,
     alt ["elif", namedExpression, ":", block, elifStmt] bodies,
     alt ["elif", namedExpression, ":", block, .opt elseBlock] bodies]
  | .elseBlock => [wrong invalidElseStmt, alt ["else", .forced ":", block] bodies]
  | .whileStmt =>
    [wrong invalidWhileStmt, alt ["while", namedExpression, ":", block, .opt elseBlock] compound]
  | .forStmt =>
    [wrong invalidForStmt,
     alt ["for", starTargets, "in", .cut, starExpressions, ":", block, .opt elseBlock] compound,
     alt [ASYNC, "for", starTargets, "in", .cut, starExpressions, ":",
       block, .opt elseBlock] compound,
     wrong invalidForTarget]
  | .withStmt =>
    [wrong invalidWithStmtIndent,
     alt ["with", "(", .sepBy "," withItem, .opt ",", ")", ":", block] compound,
     alt ["with", .sepBy "," withItem, ":", block] compound,
     alt [ASYNC, "with", "(", .sepBy "," withItem, .opt ",", ")", ":", block] compound,
     alt [ASYNC, "with", .sepBy "," withItem, ":", block] compound,
     wrong invalidWithStmt]
  | .withItem =>
    [alt [expression, "as", starTarget, .ahead (words [",", ")", ":"])] drop,
     wrong invalidWithItem,
     alt [expression] drop]
  | .tryStmt =>
    [wrong invalidTryStmt,
     alt ["try", .forced ":", block, finallyBlock] compound,
     alt ["try", .forced ":", block, .plus exceptBlock, .opt elseBlock, .opt finallyBlock] compound,
     alt ["try", .forced ":", block, .plus exceptStarBlock, .opt elseBlock, .opt finallyBlock]
       compound]
  | .exceptBlock =>
    [wrong invalidExceptStmtIndent,
     alt ["except", expression, .opt (.seq ["as", NAME]), ":", block] bodies,
     alt ["except", ":", block] bodies,
     wrong invalidExceptStmt]
  | .exceptStarBlock =>
    [wrong invalidExceptStarStmtIndent,
     alt ["except", "*", expression, .opt (.seq ["as", NAME]), ":", block] bodies,
     wrong invalidExceptStmt]
  | .finallyBlock => [wrong invalidFinallyStmt, alt ["finally", .forced ":", block] bodies]
  -- Pattern matching
  | .matchStmt =>
    [alt [.soft "match", subjectExpr, ":", NEWLINE, INDENT, .plus caseBlock, DEDENT] compound,
     wrong invalidMatchStmt]
  | .subjectExpr =>
    [alt [starNamedExpression, ",", .opt starNamedExpressions] drop, alt [namedExpression] drop]
  | .caseBlock =>
    [wrong invalidCaseBlock, alt [.soft "case", patterns, .opt guard, ":", block] bodies]
  | .guard => [alt ["if", namedExpression] drop]
  | .patterns => [alt [openSequencePattern] drop, alt [pattern] drop]
  | .pattern => [alt [asPattern] plain, alt [orPattern] plain]
  | .asPattern => [alt [orPattern, "as", patternCaptureTarget] drop, wrong invalidAsPattern]
  | .orPattern => [alt [.sepBy "|" closedPattern] drop]
  | .closedPattern =>
    [alt [literalPattern] drop,
     alt [capturePattern] drop,
     alt [wildcardPattern] drop,
     alt [valuePattern] drop,
     alt [groupPattern] drop,
     alt [sequencePattern] drop,
     alt [mappingPattern] drop,
     alt [classPattern] drop]
  | .literalPattern =>
    [alt [signedNumber, .notAhead (words ["+", "-"])] drop,
     alt [complexNumber] drop,
     alt [strings] drop,
     alt ["None"] drop,
     alt ["True"] drop,
     alt ["False"] drop]
  | .literalExpr =>
    [alt [signedNumber, .notAhead (words ["+", "-"])] drop,
     alt [complexNumber] drop,
     alt [strings] drop,
     alt ["None"] drop,
     alt ["True"] drop,
     alt ["False"] drop]
  | .complexNumber =>
    [alt [signedRealNumber, "+", imaginaryNumber] drop,
     alt [signedRealNumber, "-", imaginaryNumber] drop]
  | .signedNumber => [alt [NUMBER] drop, alt ["-", NUMBER] drop]
  | .signedRealNumber => [alt [realNumber] drop, alt ["-", realNumber] drop]
  | .realNumber => [alt [NUMBER] (ensureImaginary false)]
  | .imaginaryNumber => [alt [NUMBER] (ensureImaginary true)]
  | .capturePattern => [alt [patternCaptureTarget] drop]
  | .patternCaptureTarget =>
    [alt [.notAhead (.soft "_"), NAME, .notAhead (words [".", "(", "="])] drop]
  | .wildcardPattern => [alt [.soft "_"] drop]
  | .valuePattern => [alt [attr, .notAhead (words [".", "(", "="])] drop]
  | .attr => [alt [nameOrAttr, ".", NAME] drop]
  | .nameOrAttr => [alt [attr] drop, alt [NAME] drop]
  | .groupPattern => [alt ["(", pattern, ")"] drop]
  | .sequencePattern =>
    [alt ["[", .opt maybeSequencePattern, "]"] drop,
     alt ["(", .opt openSequencePattern, ")"] drop]
  | .openSequencePattern => [alt [maybeStarPattern, ",", .opt maybeSequencePattern] drop]
  | .maybeSequencePattern => [alt [.sepBy "," maybeStarPattern, .opt ","] drop]
  | .maybeStarPattern => [alt [starPattern] drop, alt [pattern] drop]
  | .starPattern => [alt ["*", patternCaptureTarget] drop, alt ["*", wildcardPattern] drop]
  | .mappingPattern =>
    [alt ["\x7b", "\x7d"] drop,
     alt ["\x7b", doubleStarPattern, .opt ",", "\x7d"] drop,
     alt ["\x7b", itemsPattern, ",", doubleStarPattern, .opt ",", "\x7d"] drop,
     alt ["\x7b", itemsPattern, .opt ",", "\x7d"] drop]
  | .itemsPattern => [alt [.sepBy "," keyValuePattern] drop]
  | .keyValuePattern => [alt [.choice [literalExpr, attr], ":", pattern] drop]
  | .doubleStarPattern => [alt ["**", patternCaptureTarget] drop]
  | .classPattern =>
    [alt [nameOrAttr, "(", ")"] drop,
     alt [nameOrAttr, "(", positionalPatterns, .opt ",", ")"] drop,
     alt [nameOrAttr, "(", keywordPatterns, .opt ",", ")"] drop,
     alt [nameOrAttr, "(", positionalPatterns, ",", keywordPatterns, .opt ",", ")"] drop,
     wrong invalidClassPattern]
  | .positionalPatterns => [alt [.sepBy "," pattern] keep]
  | .keywordPatterns => [alt [.sepBy "," keywordPattern] drop]
  | .keywordPattern => [alt [NAME, "=", pattern] drop]
  -- Expressions
  | .expressions =>
    [alt [expression, .plus (.seq [",", expression]), .opt ","] (collect .tuple),
     alt [expression, ","] (collect .tuple),
     only expression]
  | .expression =>
    [wrong invalidExpression,
     wrong invalidLegacyExpression,
     alt [disjunction, "if", disjunction, "else", expression] plain,
     only disjunction,
     only lambdef]
  | .yieldExpr =>
    [alt ["yield", "from", expression] plain, alt ["yield", .opt starExpressions] plain]
  | .starExpressions =>
    [alt [starExpression, .plus (.seq [",", starExpression]), .opt ","] (collect .tuple),
     alt [starExpression, ","] (collect .tuple),
     only starExpression]
  | .starExpression => [alt ["*", bitwiseOr] starred, only expression]
  | .starNamedExpressions => [alt [.sepBy "," starNamedExpression, .opt ","] keep]
  | .starNamedExpression => [alt ["*", bitwiseOr] starred, only namedExpression]
  | .assignmentExpression => [alt [NAME, ":=", .cut, expression] plain]
  | .namedExpression =>
    [only assignmentExpression,
     wrong invalidNamedExpression,
     alt [expression, .notAhead ":="] (pick 0)]
  | .disjunction => [alt [conjunction, .plus (.seq ["or", conjunction])] plain, only conjunction]
  | .conjunction => [alt [inversion, .plus (.seq ["and", inversion])] plain, only inversion]
  | .inversion => [alt ["not", inversion] (unary .otherOp), only comparison]
  | .comparison => [alt [bitwiseOr, .plus comparePair] comparing, only bitwiseOr]
  | .comparePair =>
    [alt ["==", bitwiseOr] keep,
     alt ["!=", bitwiseOr] keep,
     alt ["<=", bitwiseOr] keep,
     alt ["<", bitwiseOr] keep,
     alt [">=", bitwiseOr] keep,
     alt [">", bitwiseOr] keep,
     alt ["not", "in", bitwiseOr] keep,
     alt ["in", bitwiseOr] keep,
     alt ["is", "not", bitwiseOr] keep,
     alt ["is", bitwiseOr] keep]
  | .bitwiseOr => [alt [bitwiseOr, "|", bitwiseXor] (binary .otherOp), only bitwiseXor]
  | .bitwiseXor => [alt [bitwiseXor, "^", bitwiseAnd] (binary .otherOp), only bitwiseAnd]
  | .bitwiseAnd => [alt [bitwiseAnd, "&", shiftExpr] (binary .otherOp), only shiftExpr]
  | .shiftExpr =>
    [alt [shiftExpr, "<<", sum] (binary .otherOp),
     alt [shiftExpr, ">>", sum] (binary .otherOp),
     only sum]
  | .sum => [alt [sum, "+", term] (binary .plus), alt [sum, "-", term] (binary .minus), only term]
  | .term =>
    [alt [term, "*", factor] (binary .otherOp),
     alt [term, "/", factor] (binary .otherOp),
     alt [term, "//", factor] (binary .otherOp),
     alt [term, "%", factor] (binary .otherOp),
     alt [term, "@", factor] (binary .otherOp),
     only factor]
  | .factor =>
    [alt ["+", factor] (unary .plus),
     alt ["-", factor] (unary .minus),
     alt ["~", factor] (unary .otherOp),
     only power]
  | .power => [alt [awaitPrimary, "**", factor] (binary .otherOp), only awaitPrimary]
  | .awaitPrimary => [alt [AWAIT, primary] plain, only primary]
  | .primary =>
    [alt [primary, ".", NAME] attributeOf,
     alt [primary, genexp] generatorCall,
     alt [primary, "(", .opt arguments, ")"] call,
     alt [primary, "[", slices, "]"] subscript,
     only atom]
  | .slices =>
    [alt [slice, .notAhead ","] plain,
     alt [.sepBy "," (.choice [slice, starredExpression]), .opt ","] plain]
  | .slice =>
    [alt [.opt expression, ":", .opt expression, .opt (.seq [":", .opt expression])] plain,
     alt [namedExpression] plain]
  | .atom =>
    [alt [NAME] nameExpr,
     alt ["True"] (constant (.bool true)),
     alt ["False"] (constant (.bool false)),
     alt ["None"] (constant .null),
     led STRING strings,
     alt [NUMBER] number,
     alt [.ahead "(", .choice [tuple, group, genexp]] (pick 1),
     alt [.ahead "[", .choice [list, listcomp]] (pick 1),
     alt [.ahead "\x7b", .choice [dict, set, dictcomp, setcomp]] (pick 1),
     alt ["..."] (constant .ellipsis)]
  | .group => [alt ["(", .choice [yieldExpr, namedExpression], ")"] (pick 1), wrong invalidGroup]
  | .lambdef => [alt ["lambda", .opt lambdaParams, ":", expression] plain]
  | .lambdaParams => [wrong invalidLambdaParameters, alt [lambdaParameters] drop]
  | .lambdaParameters =>
    [alt [lambdaSlashNoDefault, .star lambdaParamNoDefault, .star lambdaParamWithDefault,
       .opt lambdaStarEtc] drop,
     alt [lambdaSlashWithDefault, .star lambdaParamWithDefault, .opt lambdaStarEtc] drop,
     alt [.plus lambdaParamNoDefault, .star lambdaParamWithDefault, .opt lambdaStarEtc] drop,
     alt [.plus lambdaParamWithDefault, .opt lambdaStarEtc] drop,
     alt [lambdaStarEtc] drop]
  | .lambdaSlashNoDefault =>
    [alt [.plus lambdaParamNoDefault, "/", ","] drop,
     alt [.plus lambdaParamNoDefault, "/", .ahead ":"] drop]
  | .lambdaSlashWithDefault =>
    [alt [.star lambdaParamNoDefault, .plus lambdaParamWithDefault, "/", ","] drop,
     alt [.star lambdaParamNoDefault, .plus lambdaParamWithDefault, "/", .ahead ":"] drop]
  | .lambdaStarEtc =>
    [wrong invalidLambdaStarEtc,
     alt ["*", lambdaParamNoDefault, .star lambdaParamMaybeDefault, .opt lambdaKwds] drop,
     alt ["*", ",", .plus lambdaParamMaybeDefault, .opt lambdaKwds] drop,
     alt [lambdaKwds] drop]
  | .lambdaKwds => [wrong invalidLambdaKwds, alt ["**", lambdaParamNoDefault] drop]
  | .lambdaParamNoDefault =>
    [alt [lambdaParam, ","] (pick 0), alt [lambdaParam, .ahead ":"] (pick 0)]
  | .lambdaParamWithDefault =>
    [alt [lambdaParam, default, ","] drop,
     alt [lambdaParam, default, .ahead ":"] drop]
  | .lambdaParamMaybeDefault =>
    [alt [lambdaParam, .opt default, ","] drop,
     alt [lambdaParam, .opt default, .ahead ":"] drop]
  | .lambdaParam => [alt [NAME] (pick 0)]
  | .strings => [alt [.plus STRING] keep]
  | .list => [alt ["[", .opt starNamedExpressions, "]"] (collect .list)]
  | .tuple =>
    [alt ["(", .opt (.seq [starNamedExpression, ",", .opt starNamedExpressions]),
      ")"] (collect .tuple)]
  | .set => [alt ["\x7b", starNamedExpressions, "\x7d"] (collect .set)]
  | .dict =>
    [alt ["\x7b", .opt doubleStarredKvpairs,
       "\x7d"] (fun p ns => .node (.expr (.dict p.line (Node.many ns).entries))),
     alt ["\x7b", invalidDoubleStarredKvpairs, "\x7d"] plain]
  | .doubleStarredKvpairs => [alt [.sepBy "," doubleStarredKvpair, .opt ","] keep]
  | .doubleStarredKvpair =>
    [alt ["**", bitwiseOr] (fun _ ns => .node (.entry none (ns.getD 1 .none).toExpr)),
     only kvpair]
  | .kvpair =>
    [alt [expression, ":",
       expression] (fun _ ns => .node (.entry (some (ns.getD 0 .none).toExpr)
       (ns.getD 2 .none).toExpr))]
  | .forIfClauses => [alt [.plus forIfClause] drop]
  | .forIfClause =>
    [alt [ASYNC, "for", starTargets, "in", .cut,
      disjunction, .star (.seq ["if", disjunction])] drop,
     alt ["for", starTargets, "in", .cut, disjunction, .star (.seq ["if", disjunction])] drop,
     wrong invalidForTarget]
  | .listcomp => [alt ["[", namedExpression, forIfClauses, "]"] plain, wrong invalidComprehension]
  | .setcomp =>
    [alt ["\x7b", namedExpression, forIfClauses, "\x7d"] plain, wrong invalidComprehension]
  | .genexp =>
    [alt ["(", .choice [assignmentExpression, .seq [expression, .notAhead ":="]], forIfClauses,
      ")"] plain,
     wrong invalidComprehension]
  | .dictcomp => [alt ["\x7b", kvpair, forIfClauses, "\x7d"] plain, wrong invalidDictComprehension]
  | .arguments => [alt [args, .opt ",", .ahead ")"] (pick 0), wrong invalidArguments]
  | .args =>
    [alt [.sepBy "," (.choice [starredExpression, .seq [.choice [assignmentExpression,
       .seq [expression, .notAhead ":="]], .notAhead "="]]), .opt (.seq [",", kwargs])] callArgs,
     alt [kwargs] callArgs]
  | .kwargs =>
    [alt [.sepBy "," kwargOrStarred, ",", .sepBy "," kwargOrDoubleStarred] keep,
     alt [.sepBy "," kwargOrStarred] keep,
     alt [.sepBy "," kwargOrDoubleStarred] keep]
  | .starredExpression => [alt ["*", expression] starred]
  | .kwargOrStarred =>
    [wrong invalidKwarg, alt [NAME, "=", expression] keywordArg, only starredExpression]
  | .kwargOrDoubleStarred =>
    [wrong invalidKwarg,
     alt [NAME, "=", expression] keywordArg,
     alt ["**", expression] (fun _ ns => .node (.keyword none (ns.getD 1 .none).toExpr))]
  -- Assignment targets
  | .starTargets =>
    [alt [starTarget, .notAhead ","] (pick 0),
     alt [starTarget, .star (.seq [",", starTarget]), .opt ","] (collect .tuple)]
  | .starTargetsListSeq => [alt [.sepBy "," starTarget, .opt ","] keep]
  | .starTargetsTupleSeq =>
    [alt [starTarget, .plus (.seq [",", starTarget]), .opt ","] keep,
     alt [starTarget, ","] keep]
  | .starTarget => [alt ["*", .seq [.notAhead "*", starTarget]] starred, only targetWithStarAtom]
  | .targetWithStarAtom =>
    [alt [tPrimary, ".", NAME, .notAhead tLookahead] attributeOf,
     alt [tPrimary, "[", slices, "]", .notAhead tLookahead] subscript,
     only starAtom]
  | .starAtom =>
    [alt [NAME] nameExpr,
     alt ["(", targetWithStarAtom, ")"] (pick 1),
     alt ["(", .opt starTargetsTupleSeq, ")"] (collect .tuple),
     alt ["[", .opt starTargetsListSeq, "]"] (collect .list)]
  | .singleTarget =>
    [only singleSubscriptAttributeTarget,
     alt [NAME] nameExpr,
     alt ["(", singleTarget, ")"] (pick 1)]
  | .singleSubscriptAttributeTarget =>
    [alt [tPrimary, ".", NAME, .notAhead tLookahead] attributeOf,
     alt [tPrimary, "[", slices, "]", .notAhead tLookahead] subscript]
  | .tPrimary =>
    [alt [tPrimary, ".", NAME, .ahead tLookahead] attributeOf,
     alt [tPrimary, "[", slices, "]", .ahead tLookahead] subscript,
     alt [tPrimary, genexp, .ahead tLookahead] generatorCall,
     alt [tPrimary, "(", .opt arguments, ")", .ahead tLookahead] call,
     alt [atom, .ahead tLookahead] (pick 0)]
  | .tLookahead => [alt [words ["(", "[", "."]] drop]
  | .delTargets => [alt [.sepBy "," delTarget, .opt ","] drop]
  | .delTarget =>
    [alt [tPrimary, ".", NAME, .notAhead tLookahead] drop,
     alt [tPrimary, "[", slices, "]", .notAhead tLookahead] drop,
     alt [delTAtom] drop]
  | .delTAtom =>
    [alt [NAME] drop,
     alt ["(", delTarget, ")"] drop,
     alt ["(", .opt delTargets, ")"] drop,
     alt ["[", .opt delTargets, "]"] drop]
  | .expressionWithoutInvalid =>
    [alt [disjunction, "if", disjunction, "else", expression] plain,
     only disjunction,
     only lambdef]
  -- Wrong programs
  | .invalidArguments =>
    [alt [args, ",", "*"] (fun p _ => .blame p.line),
     alt [expression, forIfClauses, ",", .opt (.choice [args, .seq [expression, forIfClauses]])]
     (blameAt 0),
     alt [NAME, "=", expression, forIfClauses] (blameAt 0),
     alt [args, forIfClauses] blameBareGenerator,
     alt [args, ",", expression, forIfClauses] (blameAt 2),
     alt [args, ",", args] blameLast]
  | .invalidKwarg =>
    [alt [words ["True", "False", "None"], "="] (blameAt 0),
     alt [NAME, "=", expression, forIfClauses] (blameAt 0),
     alt [.notAhead (.seq [NAME, "="]), expression, "="] (blameAt 1)]
  | .invalidLegacyExpression => [alt [NAME, .notAhead "(", starExpressions] blameLegacy]
  | .invalidExpression =>
    [alt [.notAhead (.choice [.seq [NAME, STRING], .anySoft]), disjunction,
       expressionWithoutInvalid] blameMissingComma,
     alt [disjunction, "if", disjunction, .notAhead (words ["else", ":"])] (blameAt 0)]
  | .invalidNamedExpression =>
    [alt [expression, ":=", expression] (blameAt 0),
     alt [NAME, "=", bitwiseOr, .notAhead (words ["=", ":="])] (blameAt 0),
     alt [.notAhead (.choice [list, tuple, genexp, "True", "None", "False"]),
       bitwiseOr, "=", bitwiseOr, .notAhead (words ["=", ":="])] (blameAt 1)]
  | .invalidAssignment =>
    [alt [invalidAnnAssignTarget, ":", expression] (blameAt 0),
     alt [starNamedExpression, ",", .star starNamedExpressions, ":", expression] (blameAt 0),
     alt [expression, ":", expression] (blameAt 0),
     alt [.star (.seq [starTargets, "="]), starExpressions, "="] (blameTarget .assignment 1),
     alt [.star (.seq [starTargets, "="]), yieldExpr, "="] (blameAt 1),
     alt [starExpressions, augAssign, .choice [yieldExpr, starExpressions]] (blameAt 0)]
  | .invalidAnnAssignTarget =>
    [only list, only tuple, alt ["(", invalidAnnAssignTarget, ")"] (pick 1)]
  | .invalidDelStmt => [alt ["del", starExpressions] (blameTarget .deletion 1)]
  | .invalidBlock => [alt [NEWLINE, .notAhead INDENT] blameLast]
  | .invalidComprehension =>
    [alt [words ["[", "(", "\x7b"], starredExpression, forIfClauses] (blameAt 1),
     alt [words ["[", "\x7b"], starNamedExpression, ",", starNamedExpressions,
     forIfClauses] (blameAt 1),
     alt [words ["[", "\x7b"], starNamedExpression, ",", forIfClauses] (blameAt 1)]
  | .invalidDictComprehension => [alt ["\x7b", "**", bitwiseOr, forIfClauses, "\x7d"] (blameAt 1)]
  | .invalidParameters =>
    [alt [.star paramNoDefault, invalidParametersHelper, paramNoDefault] (blameAt 2),
     alt [.star paramNoDefault, "(", .plus paramNoDefault, .opt ",", ")"] (blameAt 1),
     alt ["/", ","] (blameAt 0),
     alt [.choice [slashNoDefault, slashWithDefault], .star paramMaybeDefault, "/"] (blameAt 2),
     alt [.opt (.choice [slashNoDefault, slashWithDefault]), .star paramMaybeDefault, "*",
       .choice [",", paramNoDefault], .star paramMaybeDefault, "/"] (blameAt 5),
     alt [.plus paramMaybeDefault, "/", "*"] (blameAt 2)]
  | .invalidParametersHelper => [alt [slashWithDefault] drop, alt [.plus paramWithDefault] drop]
  | .invalidDefault => [alt ["=", .ahead (words [")", ","])] (blameAt 0)]
  | .invalidStarEtc =>
    [alt ["*", .choice [")", .seq [",", words [")", "**"]]]] (blameAt 0),
     alt ["*", param, "="] (blameAt 2),
     alt ["*", .choice [paramNoDefault, ","], .star paramMaybeDefault, "*",
       .choice [paramNoDefault, ","]] (blameAt 3)]
  | .invalidKwds =>
    [alt ["**", param, "="] (blameAt 2),
     alt ["**", param, ",", param] (blameAt 3),
     alt ["**", param, ",", words ["*", "**", "/"]] (blameAt 3)]
  | .invalidLambdaParameters =>
    [alt [.star lambdaParamNoDefault, invalidLambdaParametersHelper,
      lambdaParamNoDefault] (blameAt 2),
     alt [.star lambdaParamNoDefault, "(", .sepBy "," lambdaParam, .opt ",", ")"] (blameAt 1),
     alt ["/", ","] (blameAt 0),
     alt [.choice [lambdaSlashNoDefault, lambdaSlashWithDefault],
       .star lambdaParamMaybeDefault, "/"] (blameAt 2),
     alt [.opt (.choice [lambdaSlashNoDefault, lambdaSlashWithDefault]),
       .star lambdaParamMaybeDefault, "*", .choice [",", lambdaParamNoDefault],
       .star lambdaParamMaybeDefault, "/"] (blameAt 5),
     alt [.plus lambdaParamMaybeDefault, "/", "*"] (blameAt 2)]
  | .invalidLambdaParametersHelper =>
    [alt [lambdaSlashWithDefault] drop,
     alt [.plus lambdaParamWithDefault] drop]
  | .invalidLambdaStarEtc =>
    [alt ["*", .choice [":", .seq [",", words [":", "**"]]]] blameLast,
     alt ["*", lambdaParam, "="] (blameAt 2),
     alt ["*", .choice [lambdaParamNoDefault, ","], .star lambdaParamMaybeDefault, "*",
       .choice [lambdaParamNoDefault, ","]] (blameAt 3)]
  | .invalidLambdaKwds =>
    [alt ["**", lambdaParam, "="] (blameAt 2),
     alt ["**", lambdaParam, ",", lambdaParam] (blameAt 3),
     alt ["**", lambdaParam, ",", words ["*", "**", "/"]] (blameAt 3)]
  | .invalidWithItem =>
    [alt [expression, "as", expression, .ahead (words [",", ")", ":"])] (blameTarget .assignment 2)]
  | .invalidForTarget => [alt [.opt ASYNC, "for", starExpressions] (blameTarget .loop 2)]
  | .invalidGroup =>
    [alt ["(", starredExpression, ")"] (blameAt 1),
     alt ["(", "**", expression, ")"] (blameAt 1)]
  | .invalidImportFromTargets => [alt [importFromAsNames, ",", NEWLINE] blameLast]
  | .invalidWithStmt =>
    [alt [.opt ASYNC, "with", .sepBy "," (.seq [expression, .opt (.seq ["as",
       starTarget])]), NEWLINE] blameLast,
     alt [.opt ASYNC, "with", "(", .sepBy "," (.seq [expressions, .opt (.seq ["as",
       starTarget])]), .opt ",", ")", NEWLINE] blameLast]
  | .invalidWithStmtIndent =>
    [alt [.opt ASYNC, "with", .sepBy "," (.seq [expression, .opt (.seq ["as",
       starTarget])]), ":", NEWLINE, .notAhead INDENT] blameLast,
     alt [.opt ASYNC, "with", "(", .sepBy "," (.seq [expressions, .opt (.seq ["as",
       starTarget])]), .opt ",", ")", ":", NEWLINE, .notAhead INDENT] blameLast]
  | .invalidTryStmt =>
    [alt ["try", ":", NEWLINE, .notAhead INDENT] blameLast,
     alt ["try", ":", block, .notAhead (words ["except", "finally"])] blameLast,
     alt ["try", ":", .star block, .choice [.seq [.plus exceptBlock, exceptStarBlock],
       .seq [.plus exceptStarBlock, exceptBlock]], .star block] blameLast]
  | .invalidExceptStmt =>
    [alt ["except", .opt "*", expression, ",", expressions, .opt (.seq ["as", NAME]),
      ":"] (blameAt 2),
     alt ["except", .opt "*", expression, .opt (.seq ["as", NAME]), NEWLINE] blameLast,
     alt ["except", NEWLINE] blameLast,
     alt ["except", "*", .choice [NEWLINE, ":"]] blameLast]
  | .invalidFinallyStmt => [alt ["finally", ":", NEWLINE, .notAhead INDENT] blameLast]
  | .invalidExceptStmtIndent =>
    [alt ["except", expression, .opt (.seq ["as", NAME]), ":", NEWLINE, .notAhead INDENT] blameLast,
     alt ["except", ":", NEWLINE, .notAhead INDENT] blameLast]
  | .invalidExceptStarStmtIndent =>
    [alt ["except", "*", expression, .opt (.seq ["as", NAME]), ":",
      NEWLINE, .notAhead INDENT] blameLast]
  | .invalidMatchStmt =>
    [alt [.soft "match", subjectExpr, NEWLINE] blameLast,
     alt [.soft "match", subjectExpr, ":", NEWLINE, .notAhead INDENT] blameLast]
  | .invalidCaseBlock =>
    [alt [.soft "case", patterns, .opt guard, NEWLINE] blameLast,
     alt [.soft "case", patterns, .opt guard, ":", NEWLINE, .notAhead INDENT] blameLast]
  | .invalidAsPattern =>
    [alt [orPattern, "as", .soft "_"] (blameAt 2),
     alt [orPattern, "as", .notAhead NAME, expression] (blameAt 3)]
  | .invalidClassPattern => [alt [nameOrAttr, "(", invalidClassArgumentPattern] (blameAt 2)]
  | .invalidClassArgumentPattern =>
    [alt [.opt (.seq [positionalPatterns, ","]), keywordPatterns, ",", positionalPatterns] (pick 3)]
  | .invalidIfStmt =>
    [alt ["if", namedExpression, NEWLINE] blameLast,
     alt ["if", namedExpression, ":", NEWLINE, .notAhead INDENT] blameLast]
  | .invalidElifStmt =>
    [alt ["elif", namedExpression, NEWLINE] blameLast,
     alt ["elif", namedExpression, ":", NEWLINE, .notAhead INDENT] blameLast]
  | .invalidElseStmt => [alt ["else", ":", NEWLINE, .notAhead INDENT] blameLast]
  | .invalidWhileStmt =>
    [alt ["while", namedExpression, NEWLINE] blameLast,
     alt ["while", namedExpression, ":", NEWLINE, .notAhead INDENT] blameLast]
  | .invalidForStmt =>
    [alt [.opt ASYNC, "for", starTargets, "in", starExpressions, NEWLINE] blameLast,
     alt [.opt ASYNC, "for", starTargets, "in", starExpressions, ":",
     NEWLINE, .notAhead INDENT] blameLast]
  | .invalidDefRaw =>
    [alt [.opt ASYNC, "def", NAME, "(", .opt params, ")", .opt (.seq ["->",
       expression]), ":", NEWLINE, .notAhead INDENT] blameLast]
  | .invalidClassDefRaw =>
    [alt ["class", NAME, .opt (.seq ["(", .opt arguments, ")"]), NEWLINE] blameLast,
     alt ["class", NAME, .opt (.seq ["(", .opt arguments, ")"]), ":",
     NEWLINE, .notAhead INDENT] blameLast]
  | .invalidDoubleStarredKvpairs =>
    [alt [.sepBy "," doubleStarredKvpair, ",", invalidKvpair] drop,
     alt [expression, ":", "*", bitwiseOr] (blameAt 2),
     alt [expression, ":", .ahead (words ["\x7d", ","])] (blameAt 1)]
  | .invalidKvpair =>
    [alt [expression, .notAhead ":"] (blameAt 0),
     alt [expression, ":", "*", bitwiseOr] (blameAt 2),
     alt [expression, ":", .ahead (words ["\x7d", ","])] (blameAt 1)]

end AddonAudit.Source
