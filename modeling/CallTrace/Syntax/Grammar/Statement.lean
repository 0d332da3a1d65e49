import CallTrace.Syntax.Grammar.Pattern

/-!
# The grammar of statements

A block is either indented under its header or stands on the header's own line.
The words `match` and `case` are reserved only where a match statement can be
read; everywhere else they are names.
-/

namespace CallTrace.Syntax.Grammar

open Phrase (commaList atLeastOne inParens)

/-! ## Simple statements -/

/-- An assignment that only gives a name its type, or also a value. -/
def hinted (target : Phrase) (isSimple : Nat) : Phrase :=
  .node .annAssign (.seq
    [.as .target target, .sign .colon, .as .hint (.rule .expression),
     .emit (.leaf .simple (.count isSimple)),
     .opt (.seq [.sign .equals, .as .value assignedValue])])

/-- The signs that assign and compute. -/
def computingSign : Phrase :=
  .alt ([(.plusEquals, .add), (.minusEquals, .subtract), (.starEquals, .multiply),
         (.atEquals, .matrixMultiply), (.slashEquals, .divide), (.percentEquals, .modulo),
         (.ampersandEquals, .bitAnd), (.barEquals, .bitOr), (.caretEquals, .bitXor),
         (.shiftLeftEquals, .shiftLeft), (.shiftRightEquals, .shiftRight),
         (.doubleStarEquals, .power), (.doubleSlashEquals, .floorDivide)].map
        fun (s, o) => .seq [.sign s, .meaning o])

/-- A target that is not several. -/
def singleTarget : Phrase := .check .single (.rule .primary)

def assignment : Phrase :=
  .alt
    [.seq [.ahead (.seq [.name .unset, .sign .colon]), hinted nameExpression 1],
     hinted singleTarget 0,
     .node .assign (.seq
       [.as .targets (atLeastOne (.seq [starTargets, .sign .equals])), .as .value assignedValue,
        .absent (.sign .equals)]),
     .node .augAssign (.seq
       [.as .target singleTarget, computingSign, .as .value assignedValue])]

/-- A name with the names of the modules that it lies in. -/
def modulePath : Phrase := .seq [.name .name, .many (.seq [.sign .dot, .name .name])]

/-- Another name for what is imported. -/
def alternateName : Phrase := .opt (.seq [.keyword .asWord, .name .alternate])

/-- What an import from a module names. -/
def importedNames : Phrase :=
  let item := .as .names (.node .importedName (.seq [.name .name, alternateName]))
  .alt
    [inParens (.seq [commaList item, .opt (.sign .comma)]),
     .seq [commaList item, .absent (.sign .comma)],
     .as .names (.node .importedName (.seq
       [.sign .star, .emit (.leaf .name (.word ['*']))]))]

/-- The points before a module's name; each leads one package up. -/
def importPoint : Phrase :=
  .alt [.seq [.sign .dot, .emit (.leaf .level (.count 1))],
        .seq [.sign .ellipsis, .emit (.leaf .level (.count 3))]]

def importStatement : Phrase :=
  .alt
    [.node .importStmt (.seq
      [.keyword .importWord,
       commaList (.as .names (.node .importedName (.seq [modulePath, alternateName])))]),
     .node .importFrom (.seq
      [.keyword .fromWord, .many importPoint, modulePath, .keyword .importWord, importedNames]),
     .node .importFrom (.seq
      [.keyword .fromWord, atLeastOne importPoint, .keyword .importWord, importedNames])]

/-- A statement that is one word and perhaps expressions after it. -/
def wordStatement (kind : Kind) (word : Keyword) (rest : List Phrase) : Phrase :=
  .node kind (.seq (.keyword word :: rest))

def deletion : Phrase :=
  let target := .check .deletable (.rule .primary)
  .seq
    [wordStatement .deleteStmt .delWord [.as .targets target, moreItems .targets target],
     .ahead (.alt [.sign .semicolon, .newline])]

def simpleStatement : Phrase :=
  .alt
    [assignment,
     .node .exprStmt (.as .value starExpressions),
     wordStatement .returnStmt .returnWord [.opt (.as .value starExpressions)],
     importStatement,
     wordStatement .raiseStmt .raiseWord
       [.opt (.seq [.as .raised (.rule .expression),
         .opt (.seq [.keyword .fromWord, .as .cause (.rule .expression)])])],
     wordStatement .passStmt .passWord [],
     deletion,
     .node .exprStmt (.as .value yieldExpression),
     wordStatement .assertStmt .assertWord
       [.as .test (.rule .expression), .opt (.seq [.sign .comma, .as .message (.rule .expression)])],
     wordStatement .breakStmt .breakWord [],
     wordStatement .continueStmt .continueWord [],
     wordStatement .globalStmt .globalWord [commaList (.name .names)],
     wordStatement .nonlocalStmt .nonlocalWord [commaList (.name .names)]]

/-- A logical line of simple statements. -/
def simpleStatements : Phrase :=
  .seq [simpleStatement, .many (.seq [.sign .semicolon, simpleStatement]),
        .opt (.sign .semicolon), .newline]

/-! ## Compound statements -/

/-- The statements that belong to a header. -/
def block : Phrase :=
  .alt [.seq [.newline, .indent, atLeastOne (.rule .statement), .dedent], simpleStatements]

/-- A colon and the block after it. -/
def suite (role : Role) : Phrase := .seq [.sign .colon, .as role block]

def elseSuite : Phrase := .seq [.keyword .elseWord, suite .otherwise]

def definitionRest : Phrase :=
  .seq
    [.keyword .defWord, .name .name, .sign .leftParen, .as .arguments definitionParameters,
     .sign .rightParen, .opt (.seq [.sign .arrow, .as .returns (.rule .expression)]), suite .body]

def definition : Phrase :=
  .alt [.node .functionDef definitionRest,
        .node .asyncFunctionDef (.seq [.keyword .asyncWord, definitionRest])]

def classDefinition : Phrase :=
  .node .classDef (.seq
    [.keyword .classWord, .name .name,
     .opt (inParens (.opt (.as .bases arguments))), suite .body])

/-- A definition with its decorators. -/
def decorated : Phrase :=
  .adorn (.as .decorators (atLeastOne (.seq [.sign .atSign, namedExpression, .newline])))
    (.alt [definition, classDefinition])

/-- The test and the block of a conditional, and what stands after them. -/
def conditionalRest : Phrase :=
  .seq [.as .test namedExpression, suite .body, .opt (.alt [.as .otherwise (.rule .elifTail), elseSuite])]

def elifTail : Phrase := .node .ifStmt (.seq [.keyword .elifWord, conditionalRest])

def conditional : Phrase := .node .ifStmt (.seq [.keyword .ifWord, conditionalRest])

def whileLoop : Phrase :=
  .node .whileStmt (.seq
    [.keyword .whileWord, .as .test namedExpression, suite .body, .opt elseSuite])

def forLoopRest : Phrase :=
  .seq
    [.keyword .forWord, .as .target starTargets, .keyword .inWord, .as .iterable starExpressions,
     suite .body, .opt elseSuite]

def forLoop : Phrase :=
  .alt [.node .forStmt forLoopRest, .node .asyncFor (.seq [.keyword .asyncWord, forLoopRest])]

/-- A context manager, and what it is bound to. -/
def contextItem : Phrase :=
  .as .items (.fork (.rule .expression)
    [.close .context (some .withItem) (.seq
      [.keyword .asWord, .as .variables starTarget,
       .ahead (.alt [.sign .comma, .sign .rightParen, .sign .colon])]),
     .close .context (some .withItem) .nothing])

/-- Context managers in parentheses or without; parentheses that are part of the first manager
leave the colon out of reach. -/
def contextItems : Phrase :=
  .alt
    [.seq [inParens (.seq [commaList contextItem, .opt (.sign .comma)]), .ahead (.sign .colon)],
     commaList contextItem]

def withRest : Phrase := .seq [.keyword .withWord, contextItems, suite .body]

def withBlock : Phrase :=
  .alt [.node .withStmt withRest, .node .asyncWith (.seq [.keyword .asyncWord, withRest])]

/-- A handler that asks for an exception. -/
def askingHandler (opening : List Phrase) : Phrase :=
  .node .exceptHandler (.seq
    (opening ++ [.as .caught (.rule .expression), .opt (.seq [.keyword .asWord, .name .name]),
      suite .body]))

def handler : Phrase :=
  .alt [askingHandler [.keyword .exceptWord],
        .node .exceptHandler (.seq [.keyword .exceptWord, suite .body])]

def groupHandler : Phrase := askingHandler [.keyword .exceptWord, .sign .star]

def finallySuite : Phrase := .seq [.keyword .finallyWord, suite .cleanup]

def tryBlock : Phrase :=
  let after (h : Phrase) : Phrase :=
    .seq [.as .handlers (atLeastOne h), .opt elseSuite, .opt finallySuite]
  .fork (.seq [.keyword .tryWord, suite .body])
    [.close .unset (some .tryStmt) finallySuite,
     .close .unset (some .tryStmt) (after handler),
     .close .unset (some .tryStar) (after groupHandler)]

/-- One case of a match statement. -/
def matchedCase : Phrase :=
  .node .matchCase (.seq
    [.soft ['c', 'a', 's', 'e'], .as .pattern casePattern,
     .opt (.seq [.keyword .ifWord, .as .guardTest namedExpression]), suite .body])

/-- What a match statement looks at. -/
def matchSubject : Phrase :=
  .alt
    [.fork (starredBy bitwiseOr)
       [.close .elements (some .tupleDisplay) (afterComma .elements displayItem)],
     .fork namedExpression
       [.close .elements (some .tupleDisplay) (afterComma .elements displayItem), .keep]]

def matchBlock : Phrase :=
  .node .matchStmt (.seq
    [.soft ['m', 'a', 't', 'c', 'h'], .as .subject matchSubject, .sign .colon, .newline, .indent,
     .as .cases (atLeastOne matchedCase), .dedent])

/-- A compound statement, or a line of simple ones. -/
def statement : Phrase :=
  .alt
    [definition, decorated, conditional, classDefinition, withBlock, forLoop, tryBlock, whileLoop,
     matchBlock, simpleStatements]

/-- A whole program. -/
def program : Phrase :=
  .node .moduleBody (.seq [.as .body (.many (.rule .statement)), .finish])

end CallTrace.Syntax.Grammar
