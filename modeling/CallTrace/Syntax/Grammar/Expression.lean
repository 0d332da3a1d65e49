import CallTrace.Syntax.Grammar.Phrase

/-!
# The grammar of expressions

The levels of precedence follow one another from the loosest, a conditional
expression or a lambda, to the tightest, an atom.  Displays, comprehensions and
parenthesised expressions begin alike and are told apart by forks; the
construction that a call or a parenthesis turns out to be is never read twice.
-/

namespace CallTrace.Syntax.Grammar

open Phrase (commaList atLeastOne inParens meaning nothing)

/-! ## Operators -/

/-- An operator with two operands that groups to the left. -/
def leftGrouping (operand : Phrase) (operators : List (Sign × Operation)) : Phrase :=
  .grow operand
    [.close .left (some .binOp) (.seq
      [.alt (operators.map fun (s, o) => .seq [.sign s, meaning o]), .as .right operand])]

/-- An operator before its operand. -/
def before (p : Phrase) (o : Operation) (operand : Phrase) : Phrase :=
  .node .unaryOp (.seq [p, meaning o, .as .operand operand])

/-- Operands with the same word between them. -/
def wordJoined (operand : Phrase) (word : Keyword) (o : Operation) : Phrase :=
  .fork operand
    [.close .values (some .boolOp) (.seq
      [meaning o, atLeastOne (.seq [.keyword word, .as .values operand])]),
     .keep]

def awaited : Phrase :=
  .alt [.node .awaitExpr (.seq [.keyword .awaitWord, .as .value (.rule .primary)]), .rule .primary]

def power : Phrase :=
  .fork awaited
    [.close .left (some .binOp)
      (.seq [.sign .doubleStar, meaning .power, .as .right (.rule .factor)]),
     .keep]

def factor : Phrase :=
  .alt [before (.sign .plus) .plus (.rule .factor), before (.sign .minus) .minus (.rule .factor),
        before (.sign .tilde) .invert (.rule .factor), power]

def term : Phrase :=
  leftGrouping (.rule .factor)
    [(.star, .multiply), (.slash, .divide), (.doubleSlash, .floorDivide), (.percent, .modulo),
     (.atSign, .matrixMultiply)]

def sum : Phrase := leftGrouping term [(.plus, .add), (.minus, .subtract)]

def shift : Phrase := leftGrouping sum [(.shiftLeft, .shiftLeft), (.shiftRight, .shiftRight)]

def bitwiseAnd : Phrase := leftGrouping shift [(.ampersand, .bitAnd)]

def bitwiseXor : Phrase := leftGrouping bitwiseAnd [(.caret, .bitXor)]

def bitwiseOr : Phrase := leftGrouping bitwiseXor [(.bar, .bitOr)]

/-- A comparing operator. -/
def comparison : Phrase :=
  .alt
    [.seq [.sign .equal, meaning .equal],
     .seq [.sign .notEqual, meaning .notEqual],
     .seq [.sign .lessEqual, meaning .lessEqual],
     .seq [.sign .less, meaning .less],
     .seq [.sign .greaterEqual, meaning .greaterEqual],
     .seq [.sign .greater, meaning .greater],
     .seq [.keyword .notWord, .keyword .inWord, meaning .notInside],
     .seq [.keyword .inWord, meaning .inside],
     .seq [.keyword .isWord, .keyword .notWord, meaning .notSame],
     .seq [.keyword .isWord, meaning .same]]

def compared : Phrase :=
  .fork bitwiseOr
    [.close .left (some .compare)
      (atLeastOne (.seq [comparison, .as .comparators bitwiseOr])),
     .keep]

def inversion : Phrase :=
  .alt [before (.keyword .notWord) .negate (.rule .inversion), compared]

def conjunction : Phrase := wordJoined (.rule .inversion) .andWord .both

def disjunction : Phrase := wordJoined conjunction .orWord .either

/-! ## Whole expressions -/

/-- Any name as an expression. -/
def nameExpression : Phrase := .node .nameExpr (.name .name)

/-- An expression, or a name that is bound to one on the way. -/
def namedExpression : Phrase :=
  .alt
    [.node .namedExpr (.seq
      [.as .target nameExpression, .sign .walrus, .as .value (.rule .expression)]),
     .seq [.rule .expression, .absent (.sign .walrus)]]

/-- An expression that stands for several items. -/
def starredBy (p : Phrase) : Phrase := .node .starred (.seq [.sign .star, .as .value p])

/-- More items after the first, each after a comma, and the comma that may end them. -/
def moreItems (role : Role) (p : Phrase) : Phrase :=
  .seq [.many (.seq [.sign .comma, .as role p]), .opt (.sign .comma)]

/-- A comma that makes a tuple of the item before it, and the items after it. -/
def afterComma (role : Role) (p : Phrase) : Phrase :=
  .seq [.sign .comma, .opt (.seq [.as role p, moreItems role p])]

/-- An item, or a tuple of items without parentheses. -/
def openTuple (item : Phrase) : Phrase :=
  .fork item [.close .elements (some .tupleDisplay) (afterComma .elements item), .keep]

/-- An expression or an unpacked one; commas make a tuple. -/
def starExpressions : Phrase := openTuple (.alt [starredBy bitwiseOr, .rule .expression])

/-- An item of a display. -/
def displayItem : Phrase := .alt [starredBy bitwiseOr, namedExpression]

def yieldExpression : Phrase :=
  .alt
    [.node .yieldFrom (.seq
      [.keyword .yieldWord, .keyword .fromWord, .as .value (.rule .expression)]),
     .node .yieldExpr (.seq [.keyword .yieldWord, .opt (.as .value starExpressions)])]

/-- What may stand on the right of an assignment. -/
def assignedValue : Phrase := .alt [yieldExpression, starExpressions]

/-! ## Targets and comprehensions -/

/-- What a loop or an assignment may bind at one place. -/
def starTarget : Phrase :=
  .alt [starredBy (.check .assignable (.rule .primary)), .check .assignable (.rule .primary)]

/-- What a loop or an assignment may bind. -/
def starTargets : Phrase := openTuple starTarget

/-- One `for` of a comprehension with its conditions. -/
def forClause : Phrase :=
  .node .comprehension (.seq
    [.alt [.seq [.keyword .asyncWord, .emit (.leaf .asynchronous (.count 1))],
           .emit (.leaf .asynchronous (.count 0))],
     .keyword .forWord, .as .target starTargets,
     .keyword .inWord, .as .iterable disjunction,
     .many (.seq [.keyword .ifWord, .as .conditions disjunction])])

/-- The clauses of a comprehension. -/
def forClauses : Phrase := .as .generators (atLeastOne forClause)

/-! ## Atoms -/

/-- A constant that some tokens stand for. -/
def constantFor (p : Phrase) (value : Leaf) : Phrase :=
  .node .constant (.seq [p, .emit (.leaf .value value)])

def trueConstant : Phrase := constantFor (.keyword .trueWord) (.truth true)

def falseConstant : Phrase := constantFor (.keyword .falseWord) (.truth false)

def noneConstant : Phrase := constantFor (.keyword .noneWord) .nothing

/-- A tuple, a generator expression, or an expression in parentheses. -/
def parenthesized : Phrase :=
  .alt
    [.node .tupleDisplay (.seq [.sign .leftParen, .sign .rightParen]),
     .fork (.seq [.sign .leftParen, starredBy bitwiseOr])
       [.close .elements (some .tupleDisplay)
         (.seq [afterComma .elements displayItem, .sign .rightParen])],
     inParens yieldExpression,
     .fork (.seq [.sign .leftParen, namedExpression])
       [.close .unset none (.sign .rightParen),
        .close .elements (some .tupleDisplay)
          (.seq [afterComma .elements displayItem, .sign .rightParen]),
        .close .element (some .generatorExp) (.seq [forClauses, .sign .rightParen])]]

/-- A list or a list comprehension. -/
def bracketed : Phrase :=
  .alt
    [.node .listDisplay (.seq [.sign .leftBracket, .sign .rightBracket]),
     .fork (.seq [.sign .leftBracket, starredBy bitwiseOr])
       [.close .elements (some .listDisplay)
         (.seq [moreItems .elements displayItem, .sign .rightBracket])],
     .fork (.seq [.sign .leftBracket, namedExpression])
       [.close .elements (some .listDisplay)
          (.seq [moreItems .elements displayItem, .sign .rightBracket]),
        .close .element (some .listComp) (.seq [forClauses, .sign .rightBracket])]]

/-- A key with its value, or a mapping to be unpacked. -/
def dictItem : Phrase :=
  .alt
    [.seq [.sign .doubleStar, .emit (.leaf .key .absent), .as .values bitwiseOr],
     .seq [.as .key (.rule .expression), .sign .colon, .as .values (.rule .expression)]]

/-- The end of a dictionary after its first item. -/
def dictRest : Phrase :=
  .seq [.many (.seq [.sign .comma, dictItem]), .opt (.sign .comma), .sign .rightBrace]

/-- The end of a set after its first item. -/
def setRest : Phrase := .seq [moreItems .elements displayItem, .sign .rightBrace]

/-- The end of a set comprehension after its element. -/
def setCompRest : Phrase := .seq [forClauses, .sign .rightBrace]

/-- A dictionary, a set, or a comprehension of either. -/
def braced : Phrase :=
  .alt
    [.node .dictDisplay (.seq [.sign .leftBrace, .sign .rightBrace]),
     .node .dictDisplay (.seq [.sign .leftBrace, .ahead (.sign .doubleStar), dictItem, dictRest]),
     .fork (.seq [.sign .leftBrace, starredBy bitwiseOr])
       [.close .elements (some .setDisplay) setRest],
     .fork (.seq [.sign .leftBrace, .ahead (.seq [.name .unset, .sign .walrus]), namedExpression])
       [.close .elements (some .setDisplay) setRest,
        .close .element (some .setComp) setCompRest],
     .fork (.seq [.sign .leftBrace, .rule .expression])
       [.more .key (.seq [.sign .colon, .as .values (.rule .expression)])
         [.close .unset (some .dictDisplay) dictRest,
          .close .unset (some .dictComp) setCompRest],
        .close .elements (some .setDisplay) setRest,
        .close .element (some .setComp) setCompRest]]

def atom : Phrase :=
  .alt
    [nameExpression, trueConstant, falseConstant, noneConstant, .strings, .number, parenthesized,
     bracketed, braced, constantFor (.sign .ellipsis) .ellipsis]

/-! ## Calls and subscripts -/

/-- An argument that belongs to a parameter by its place. -/
def placedArgument : Phrase :=
  .alt [starredBy (.rule .expression), .seq [namedExpression, .absent (.sign .equals)]]

/-- An argument that belongs to a parameter by name. -/
def namedArgument : Phrase :=
  .as .keywords (.node .keywordArg (.seq
    [.name .name, .sign .equals, .as .value (.rule .expression)]))

/-- Arguments by name that a mapping gives. -/
def unpackedArguments : Phrase :=
  .as .keywords (.node .keywordArg (.seq
    [.sign .doubleStar, .emit (.leaf .name .absent), .as .value (.rule .expression)]))

/-- Arguments from the first that is given by name. -/
def laterArguments : Phrase :=
  let mixed := .alt [namedArgument, starredBy (.rule .expression)]
  let last := commaList (.alt [namedArgument, unpackedArguments])
  .alt [.seq [commaList mixed, .opt (.seq [.sign .comma, last])], last]

/-- All arguments; those by place get no role here. -/
def arguments : Phrase :=
  .seq
    [.alt [.seq [commaList placedArgument, .opt (.seq [.sign .comma, laterArguments])],
           laterArguments],
     .opt (.sign .comma)]

/-- The parentheses of a call; a generator expression may do without parentheses of its own if it is
the only argument. -/
def callArguments : Phrase :=
  .as .arguments (.alt
    [.seq [.sign .leftParen, .sign .rightParen],
     .seq
       [.ahead (.seq [.sign .leftParen, .alt [.sign .star, .sign .doubleStar,
         .seq [.name .unset, .sign .equals]]]),
        inParens arguments],
     .fork (.seq [.sign .leftParen, namedExpression])
       [.close .element (some .generatorExp) (.seq [forClauses, .sign .rightParen]),
        .close .unset none (.seq
          [.many (.seq [.sign .comma, placedArgument]),
           .opt (.seq [.sign .comma, laterArguments]), .opt (.sign .comma), .sign .rightParen])]])

/-- The bounds of a slice after the first. -/
def sliceBounds : Phrase :=
  .seq [.sign .colon, .opt (.as .upper (.rule .expression)),
        .opt (.seq [.sign .colon, .opt (.as .stride (.rule .expression))])]

/-- A slice or a single index. -/
def sliceItem : Phrase :=
  .alt
    [.node .sliceExpr sliceBounds,
     .seq [.ahead (.seq [.name .unset, .sign .walrus]), namedExpression],
     .fork (.rule .expression) [.close .lower (some .sliceExpr) sliceBounds, .keep]]

/-- What stands between the brackets of a subscript. -/
def sliceItems : Phrase :=
  let item := .alt [starredBy (.rule .expression), sliceItem]
  .alt
    [.node .tupleDisplay (.seq
      [.as .elements (starredBy (.rule .expression)), moreItems .elements item]),
     .fork sliceItem [.close .elements (some .tupleDisplay) (afterComma .elements item), .keep]]

/-- An atom with its attributes, calls and subscripts. -/
def primary : Phrase :=
  .grow atom
    [.close .value (some .attributeOf) (.seq [.sign .dot, .name .name]),
     .close .function (some .call) callArguments,
     .close .value (some .subscript) (.seq
       [.sign .leftBracket, .as .index sliceItems, .sign .rightBracket])]

/-! ## Parameters and lambdas -/

/-- What ends a parameter: a comma, or the sign that closes the parameters. -/
def separator (closer : Sign) : Phrase := .alt [.sign .comma, .ahead (.sign closer)]

/-- A parameter without a default. -/
def plainParameter (parameter : Phrase) (closer : Sign) : Phrase :=
  .seq [parameter, separator closer]

/-- A parameter with a default. -/
def defaultParameter (parameter : Phrase) (closer : Sign) : Phrase :=
  .seq [parameter, .sign .equals, .as .defaults (.rule .expression), separator closer]

/-- A parameter that is given by name only. -/
def namedParameter (parameter : Phrase) (closer : Sign) : Phrase :=
  .seq
    [.as .keywordOnly parameter,
     .alt [.seq [.sign .equals, .as .keywordDefaults (.rule .expression)],
           .emit (.leaf .keywordDefaults .absent)],
     separator closer]

/-- The parameter that takes the arguments left over by name. -/
def doubleStarParameter (parameter : Phrase) (closer : Sign) : Phrase :=
  .seq [.sign .doubleStar, .as .keywordVariadic parameter, separator closer]

/-- Parameters from a star on. -/
def starParameters (parameter starParameter : Phrase) (closer : Sign) : Phrase :=
  .alt
    [.seq
      [.sign .star, .as .variadic starParameter, separator closer,
       .many (namedParameter parameter closer), .opt (doubleStarParameter parameter closer)],
     .seq
      [.sign .star, .sign .comma, atLeastOne (namedParameter parameter closer),
       .opt (doubleStarParameter parameter closer)],
     doubleStarParameter parameter closer]

/-- The parameters of a function, up to the sign that closes them.  A slash ends those that are
given by place only; after one with a default, every one given by place has a default. -/
def parameterList (parameter starParameter : Phrase) (closer : Sign) : Phrase :=
  let plain := plainParameter parameter closer
  let withDefault := defaultParameter parameter closer
  let tail := .opt (starParameters parameter starParameter closer)
  let slash := .seq [.sign .slash, separator closer]
  .node .parameters (.alt
    [.fork (atLeastOne plain)
      [.close .positionalOnly none (.seq
        [slash, .as .positional (.many plain), .as .positional (.many withDefault), tail]),
       .more .unset (atLeastOne withDefault)
        [.close .positionalOnly none (.seq [slash, .as .positional (.many withDefault), tail]),
         .close .positional none tail],
       .close .positional none tail],
     .fork (atLeastOne withDefault)
      [.close .positionalOnly none (.seq [slash, .as .positional (.many withDefault), tail]),
       .close .positional none tail],
     tail])

/-- The parameters of a lambda, which have no annotations. -/
def lambdaParameters : Phrase :=
  let parameter := .node .parameter (.name .name)
  parameterList parameter parameter .colon

/-- The parameters of a definition. -/
def definitionParameters : Phrase :=
  let annotated (p : Phrase) : Phrase :=
    .node .parameter (.seq [.name .name, .opt (.seq [.sign .colon, .as .hint p])])
  parameterList (annotated (.rule .expression))
    (annotated (.alt [starredBy bitwiseOr, .rule .expression])) .rightParen

def lambda : Phrase :=
  .node .lambda (.seq
    [.keyword .lambdaWord, .as .arguments lambdaParameters, .sign .colon,
     .as .body (.rule .expression)])

/-- A conditional expression, a lambda, or a disjunction. -/
def expression : Phrase :=
  .alt
    [lambda,
     .fork disjunction
       [.close .body (some .ifExp) (.seq
         [.keyword .ifWord, .as .test disjunction, .keyword .elseWord,
          .as .otherwise (.rule .expression)]),
        .keep]]

end CallTrace.Syntax.Grammar
