/-!
# Reserved words and signs

The words that no name may be, and the signs that a program is punctuated with.
Each has one spelling; a sign is recognised by the longest spelling that the
text begins with.
-/

namespace CallTrace.Syntax

/-- A reserved word. -/
inductive Keyword
  | falseWord | noneWord | trueWord | andWord | asWord | assertWord | asyncWord | awaitWord
  | breakWord | classWord | continueWord | defWord | delWord | elifWord | elseWord | exceptWord
  | finallyWord | forWord | fromWord | globalWord | ifWord | importWord | inWord | isWord
  | lambdaWord | nonlocalWord | notWord | orWord | passWord | raiseWord | returnWord | tryWord
  | whileWord | withWord | yieldWord
  deriving DecidableEq, Repr

/-- The spellings of the reserved words. -/
def Keyword.spellings : List (List Char × Keyword) :=
  [(['F', 'a', 'l', 's', 'e'], .falseWord),
   (['N', 'o', 'n', 'e'], .noneWord),
   (['T', 'r', 'u', 'e'], .trueWord),
   (['a', 'n', 'd'], .andWord),
   (['a', 's'], .asWord),
   (['a', 's', 's', 'e', 'r', 't'], .assertWord),
   (['a', 's', 'y', 'n', 'c'], .asyncWord),
   (['a', 'w', 'a', 'i', 't'], .awaitWord),
   (['b', 'r', 'e', 'a', 'k'], .breakWord),
   (['c', 'l', 'a', 's', 's'], .classWord),
   (['c', 'o', 'n', 't', 'i', 'n', 'u', 'e'], .continueWord),
   (['d', 'e', 'f'], .defWord),
   (['d', 'e', 'l'], .delWord),
   (['e', 'l', 'i', 'f'], .elifWord),
   (['e', 'l', 's', 'e'], .elseWord),
   (['e', 'x', 'c', 'e', 'p', 't'], .exceptWord),
   (['f', 'i', 'n', 'a', 'l', 'l', 'y'], .finallyWord),
   (['f', 'o', 'r'], .forWord),
   (['f', 'r', 'o', 'm'], .fromWord),
   (['g', 'l', 'o', 'b', 'a', 'l'], .globalWord),
   (['i', 'f'], .ifWord),
   (['i', 'm', 'p', 'o', 'r', 't'], .importWord),
   (['i', 'n'], .inWord),
   (['i', 's'], .isWord),
   (['l', 'a', 'm', 'b', 'd', 'a'], .lambdaWord),
   (['n', 'o', 'n', 'l', 'o', 'c', 'a', 'l'], .nonlocalWord),
   (['n', 'o', 't'], .notWord),
   (['o', 'r'], .orWord),
   (['p', 'a', 's', 's'], .passWord),
   (['r', 'a', 'i', 's', 'e'], .raiseWord),
   (['r', 'e', 't', 'u', 'r', 'n'], .returnWord),
   (['t', 'r', 'y'], .tryWord),
   (['w', 'h', 'i', 'l', 'e'], .whileWord),
   (['w', 'i', 't', 'h'], .withWord),
   (['y', 'i', 'e', 'l', 'd'], .yieldWord)]

/-- The reserved word with a given spelling. -/
def Keyword.ofSpelling? (text : List Char) : Option Keyword :=
  Keyword.spellings.lookup text

/-- A sign of punctuation or an operator. -/
inductive Sign
  | leftParen | rightParen | leftBracket | rightBracket | leftBrace | rightBrace | colon | comma
  | semicolon | plus | minus | star | slash | bar | ampersand | less | greater | equals | dot
  | percent | tilde | caret | atSign | equal | notEqual | lessEqual | greaterEqual | lessGreater
  | shiftLeft | shiftRight | doubleStar | doubleSlash | arrow | walrus | plusEquals | minusEquals
  | starEquals | slashEquals | percentEquals | ampersandEquals | barEquals | caretEquals
  | atEquals | shiftLeftEquals | shiftRightEquals | doubleStarEquals | doubleSlashEquals
  | ellipsis
  deriving DecidableEq, Repr

/-- The spellings of the signs, longer ones first. -/
def Sign.spellings : List (List Char × Sign) :=
  [(['<', '<', '='], .shiftLeftEquals),
   (['>', '>', '='], .shiftRightEquals),
   (['*', '*', '='], .doubleStarEquals),
   (['/', '/', '='], .doubleSlashEquals),
   (['.', '.', '.'], .ellipsis),
   (['=', '='], .equal),
   (['!', '='], .notEqual),
   (['<', '='], .lessEqual),
   (['>', '='], .greaterEqual),
   (['<', '>'], .lessGreater),
   (['<', '<'], .shiftLeft),
   (['>', '>'], .shiftRight),
   (['*', '*'], .doubleStar),
   (['/', '/'], .doubleSlash),
   (['-', '>'], .arrow),
   ([':', '='], .walrus),
   (['+', '='], .plusEquals),
   (['-', '='], .minusEquals),
   (['*', '='], .starEquals),
   (['/', '='], .slashEquals),
   (['%', '='], .percentEquals),
   (['&', '='], .ampersandEquals),
   (['|', '='], .barEquals),
   (['^', '='], .caretEquals),
   (['@', '='], .atEquals),
   (['('], .leftParen),
   ([')'], .rightParen),
   (['['], .leftBracket),
   ([']'], .rightBracket),
   (['{'], .leftBrace),
   (['}'], .rightBrace),
   ([':'], .colon),
   ([','], .comma),
   ([';'], .semicolon),
   (['+'], .plus),
   (['-'], .minus),
   (['*'], .star),
   (['/'], .slash),
   (['|'], .bar),
   (['&'], .ampersand),
   (['<'], .less),
   (['>'], .greater),
   (['='], .equals),
   (['.'], .dot),
   (['%'], .percent),
   (['~'], .tilde),
   (['^'], .caret),
   (['@'], .atSign)]

/-- The sign that a text begins with, and its spelling. -/
def Sign.atStart? (text : List Char) : Option (List Char × Sign) :=
  Sign.spellings.find? fun spelling => spelling.1.isPrefixOf text

/-- The closing bracket that an opening bracket asks for. -/
def Sign.closer? : Sign → Option Sign
  | .leftParen => some .rightParen
  | .leftBracket => some .rightBracket
  | .leftBrace => some .rightBrace
  | _ => none

/-- Whether the sign closes a bracket. -/
def Sign.isCloser (s : Sign) : Bool :=
  s = .rightParen || s = .rightBracket || s = .rightBrace

end CallTrace.Syntax
