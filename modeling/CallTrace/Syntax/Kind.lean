/-!
# Kinds of syntax

Every node of a syntax tree has a kind, and every item of a node plays a role
in it.  `Kind.fields` lists the roles that a kind of node knows, in the order in
which its items stand; that order is the language's, and not always the order of
the text.
-/

namespace CallTrace.Syntax

/-- The part that an item plays in the node that holds it. -/
inductive Role
  | unset
  | body | name | arguments | decorators | returns | bases | keywords | value | targets | target
  | operation | hint | simple | iterable | otherwise | test | items | subject | cases | raised
  | cause | handlers | cleanup | message | names | level | values | left | right | operand | key
  | elements | element | generators | comparators | function | conversion | formatSpec | index
  | lower | upper | stride | conditions | asynchronous | caught | positionalOnly | positional
  | variadic | keywordOnly | keywordDefaults | keywordVariadic | defaults | alternate | context
  | variables | pattern | guardTest | patterns | remainder | matchedClass | keywordNames
  | keywordPatterns
  deriving DecidableEq, Repr

/-- The kind of a node. -/
inductive Kind
  | moduleBody | functionDef | asyncFunctionDef | classDef | returnStmt | deleteStmt | assign
  | augAssign | annAssign | forStmt | asyncFor | whileStmt | ifStmt | withStmt | asyncWith
  | matchStmt | raiseStmt | tryStmt | tryStar | assertStmt | importStmt | importFrom | globalStmt
  | nonlocalStmt | exprStmt | passStmt | breakStmt | continueStmt | boolOp | namedExpr | binOp
  | unaryOp | lambda | ifExp | dictDisplay | setDisplay | listComp | setComp | dictComp
  | generatorExp | awaitExpr | yieldExpr | yieldFrom | compare | call | formattedValue
  | joinedStr | constant | attributeOf | subscript | starred | nameExpr | listDisplay
  | tupleDisplay | sliceExpr | comprehension | exceptHandler | parameters | parameter
  | keywordArg | importedName | withItem | matchCase | matchValue | matchSingleton
  | matchSequence | matchMapping | matchClass | matchStar | matchAs | matchOr
  deriving DecidableEq, Repr

namespace Kind

/-- The name by which the language knows a kind of node. -/
def name : Kind → String
  | .moduleBody => "Module"
  | .functionDef => "FunctionDef"
  | .asyncFunctionDef => "AsyncFunctionDef"
  | .classDef => "ClassDef"
  | .returnStmt => "Return"
  | .deleteStmt => "Delete"
  | .assign => "Assign"
  | .augAssign => "AugAssign"
  | .annAssign => "AnnAssign"
  | .forStmt => "For"
  | .asyncFor => "AsyncFor"
  | .whileStmt => "While"
  | .ifStmt => "If"
  | .withStmt => "With"
  | .asyncWith => "AsyncWith"
  | .matchStmt => "Match"
  | .raiseStmt => "Raise"
  | .tryStmt => "Try"
  | .tryStar => "TryStar"
  | .assertStmt => "Assert"
  | .importStmt => "Import"
  | .importFrom => "ImportFrom"
  | .globalStmt => "Global"
  | .nonlocalStmt => "Nonlocal"
  | .exprStmt => "Expr"
  | .passStmt => "Pass"
  | .breakStmt => "Break"
  | .continueStmt => "Continue"
  | .boolOp => "BoolOp"
  | .namedExpr => "NamedExpr"
  | .binOp => "BinOp"
  | .unaryOp => "UnaryOp"
  | .lambda => "Lambda"
  | .ifExp => "IfExp"
  | .dictDisplay => "Dict"
  | .setDisplay => "Set"
  | .listComp => "ListComp"
  | .setComp => "SetComp"
  | .dictComp => "DictComp"
  | .generatorExp => "GeneratorExp"
  | .awaitExpr => "Await"
  | .yieldExpr => "Yield"
  | .yieldFrom => "YieldFrom"
  | .compare => "Compare"
  | .call => "Call"
  | .formattedValue => "FormattedValue"
  | .joinedStr => "JoinedStr"
  | .constant => "Constant"
  | .attributeOf => "Attribute"
  | .subscript => "Subscript"
  | .starred => "Starred"
  | .nameExpr => "Name"
  | .listDisplay => "List"
  | .tupleDisplay => "Tuple"
  | .sliceExpr => "Slice"
  | .comprehension => "comprehension"
  | .exceptHandler => "ExceptHandler"
  | .parameters => "arguments"
  | .parameter => "arg"
  | .keywordArg => "keyword"
  | .importedName => "alias"
  | .withItem => "withitem"
  | .matchCase => "match_case"
  | .matchValue => "MatchValue"
  | .matchSingleton => "MatchSingleton"
  | .matchSequence => "MatchSequence"
  | .matchMapping => "MatchMapping"
  | .matchClass => "MatchClass"
  | .matchStar => "MatchStar"
  | .matchAs => "MatchAs"
  | .matchOr => "MatchOr"

/-- The roles of a node's items, in the order in which they stand. -/
def fields : Kind → List Role
  | .moduleBody => [.body]
  | .functionDef | .asyncFunctionDef => [.name, .arguments, .body, .decorators, .returns]
  | .classDef => [.name, .bases, .keywords, .body, .decorators]
  | .returnStmt | .exprStmt | .awaitExpr | .yieldExpr | .yieldFrom | .constant | .starred
    | .matchValue | .matchSingleton => [.value]
  | .deleteStmt => [.targets]
  | .assign => [.targets, .value]
  | .augAssign => [.target, .operation, .value]
  | .annAssign => [.target, .hint, .value, .simple]
  | .forStmt | .asyncFor => [.target, .iterable, .body, .otherwise]
  | .whileStmt | .ifStmt | .ifExp => [.test, .body, .otherwise]
  | .withStmt | .asyncWith => [.items, .body]
  | .matchStmt => [.subject, .cases]
  | .raiseStmt => [.raised, .cause]
  | .tryStmt | .tryStar => [.body, .handlers, .otherwise, .cleanup]
  | .assertStmt => [.test, .message]
  | .importStmt | .globalStmt | .nonlocalStmt => [.names]
  | .importFrom => [.name, .names, .level]
  | .passStmt | .breakStmt | .continueStmt => []
  | .boolOp => [.operation, .values]
  | .namedExpr => [.target, .value]
  | .binOp => [.left, .operation, .right]
  | .unaryOp => [.operation, .operand]
  | .lambda => [.arguments, .body]
  | .dictDisplay => [.key, .values]
  | .setDisplay | .listDisplay | .tupleDisplay => [.elements]
  | .listComp | .setComp | .generatorExp => [.element, .generators]
  | .dictComp => [.key, .values, .generators]
  | .compare => [.left, .operation, .comparators]
  | .call => [.function, .arguments, .keywords]
  | .formattedValue => [.value, .conversion, .formatSpec]
  | .joinedStr => [.values]
  | .attributeOf => [.value, .name]
  | .subscript => [.value, .index]
  | .nameExpr | .matchStar => [.name]
  | .sliceExpr => [.lower, .upper, .stride]
  | .comprehension => [.target, .iterable, .conditions, .asynchronous]
  | .exceptHandler => [.caught, .name, .body]
  | .parameters =>
    [.positionalOnly, .positional, .variadic, .keywordOnly, .keywordDefaults, .keywordVariadic, .defaults]
  | .parameter => [.name, .hint]
  | .keywordArg => [.name, .value]
  | .importedName => [.name, .alternate]
  | .withItem => [.context, .variables]
  | .matchCase => [.pattern, .guardTest, .body]
  | .matchSequence | .matchOr => [.patterns]
  | .matchMapping => [.key, .patterns, .remainder]
  | .matchClass => [.matchedClass, .patterns, .keywordNames, .keywordPatterns]
  | .matchAs => [.pattern, .name]

/-- Whether nodes of the kind record the piece of source that they cover. -/
def isPlaced : Kind → Bool
  | .moduleBody | .comprehension | .parameters | .withItem | .matchCase => false
  | _ => true

/-- The place of a role among a kind's fields. -/
def rank (kind : Kind) (role : Role) : Nat :=
  kind.fields.idxOf role

/-- Whether nodes of the kind define a function by a statement. -/
def isDefinition (kind : Kind) : Bool :=
  kind = .functionDef || kind = .asyncFunctionDef

/-- Whether nodes of the kind are scopes of their own. -/
def isScope (kind : Kind) : Bool :=
  kind.isDefinition || kind = .moduleBody || kind = .classDef || kind = .lambda

end Kind

end CallTrace.Syntax
