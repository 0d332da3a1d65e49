import CallTrace.Syntax.Grammar.Expression

/-!
# The grammar of match patterns

A name alone captures, a dotted name compares, and an underscore takes anything.
Parentheses group one pattern, or make a sequence where a comma stands in them.
-/

namespace CallTrace.Syntax.Grammar

open Phrase (commaList atLeastOne inParens)

/-- A number with the sign that may stand before it. -/
def signedNumber : Phrase :=
  .alt [.number, before (.sign .minus) .minus .number]

/-- A number with a real and an imaginary part. -/
def complexNumber : Phrase :=
  let real := .check .realNumber .number
  .fork (.alt [real, before (.sign .minus) .minus real])
    [.close .left (some .binOp) (.seq
      [.alt [.seq [.sign .plus, .meaning .add], .seq [.sign .minus, .meaning .subtract]],
       .as .right (.check .imaginaryNumber .number)])]

/-- A constant expression other than a truth value. -/
def literalValue : Phrase :=
  .alt [.seq [signedNumber, .absent (.alt [.sign .plus, .sign .minus])], complexNumber, .strings]

/-- One of the three named constants. -/
def namedConstant (p : Keyword → Leaf → Phrase) : Phrase :=
  .alt [p .noneWord .nothing, p .trueWord (.truth true), p .falseWord (.truth false)]

def literalPattern : Phrase :=
  .alt
    [.node .matchValue (.as .value literalValue),
     namedConstant fun word value =>
       .node .matchSingleton (.seq [.keyword word, .emit (.leaf .value value)])]

/-- A name that a pattern binds. -/
def captureName (role : Role) : Phrase :=
  .seq [.absent (.soft ['_']), .name role,
        .absent (.alt [.sign .dot, .sign .leftParen, .sign .equals])]

/-- A name with at least one attribute. -/
def dottedName : Phrase :=
  .seq
    [.ahead (.seq [.name .unset, .sign .dot]),
     .grow nameExpression [.close .value (some .attributeOf) (.seq [.sign .dot, .name .name])]]

/-- A name with any number of attributes. -/
def nameOrDotted : Phrase := .alt [dottedName, nameExpression]

def valuePattern : Phrase :=
  .node .matchValue (.seq
    [.as .value dottedName, .absent (.alt [.sign .dot, .sign .leftParen, .sign .equals])])

/-- A pattern for the items of a sequence that no other pattern takes. -/
def starPattern : Phrase :=
  .node .matchStar (.seq [.sign .star, .alt [captureName .name, .soft ['_']]])

/-- An item of a sequence. -/
def sequenceItem : Phrase := .alt [starPattern, .rule .pattern]

/-- A sequence in parentheses, or a pattern in parentheses. -/
def parenthesizedPattern : Phrase :=
  .alt
    [.node .matchSequence (.seq [.sign .leftParen, .sign .rightParen]),
     .fork (.seq [.sign .leftParen, starPattern])
       [.close .patterns (some .matchSequence)
         (.seq [afterComma .patterns sequenceItem, .sign .rightParen])],
     .fork (.seq [.sign .leftParen, .rule .pattern])
       [.close .unset none (.sign .rightParen),
        .close .patterns (some .matchSequence)
          (.seq [afterComma .patterns sequenceItem, .sign .rightParen])]]

def bracketedPattern : Phrase :=
  .node .matchSequence (.seq
    [.sign .leftBracket,
     .opt (.seq [.as .patterns sequenceItem, moreItems .patterns sequenceItem]),
     .sign .rightBracket])

/-- A key with the pattern for its value. -/
def mappingItem : Phrase :=
  .seq
    [.as .key (.alt [literalValue, namedConstant fun word value => constantFor (.keyword word) value,
       dottedName]),
     .sign .colon, .as .patterns (.rule .pattern)]

/-- The name for the rest of a mapping. -/
def mappingRest : Phrase := .seq [.sign .doubleStar, captureName .remainder]

def mappingPattern : Phrase :=
  .node .matchMapping (.seq
    [.sign .leftBrace,
     .opt (.alt
       [.seq [mappingRest, .opt (.sign .comma)],
        .seq [commaList mappingItem, .opt (.seq [.sign .comma, mappingRest]),
              .opt (.sign .comma)]]),
     .sign .rightBrace])

/-- A pattern for an attribute by its name. -/
def keywordPattern : Phrase :=
  .seq [.name .keywordNames, .sign .equals, .as .keywordPatterns (.rule .pattern)]

def classPattern : Phrase :=
  let placed := commaList (.as .patterns (.rule .pattern))
  let named := commaList keywordPattern
  .node .matchClass (.seq
    [.as .matchedClass nameOrDotted, .sign .leftParen,
     .alt
       [.sign .rightParen,
        .seq [placed, .opt (.seq [.sign .comma, named]), .opt (.sign .comma), .sign .rightParen],
        .seq [named, .opt (.sign .comma), .sign .rightParen]]])

/-- A pattern without alternatives and without a name for the whole. -/
def closedPattern : Phrase :=
  .alt
    [literalPattern,
     .node .matchAs (captureName .name),
     .node .matchAs (.soft ['_']),
     valuePattern, parenthesizedPattern, bracketedPattern, mappingPattern, classPattern]

def alternativePatterns : Phrase :=
  .fork closedPattern
    [.close .patterns (some .matchOr)
       (atLeastOne (.seq [.sign .bar, .as .patterns closedPattern])),
     .keep]

def pattern : Phrase :=
  .fork alternativePatterns
    [.close .pattern (some .matchAs) (.seq [.keyword .asWord, captureName .name]), .keep]

/-- The pattern of a case; commas make a sequence without brackets. -/
def casePattern : Phrase :=
  .alt
    [.fork starPattern
       [.close .patterns (some .matchSequence) (afterComma .patterns sequenceItem)],
     .fork (.rule .pattern)
       [.close .patterns (some .matchSequence) (afterComma .patterns sequenceItem), .keep]]

end CallTrace.Syntax.Grammar
