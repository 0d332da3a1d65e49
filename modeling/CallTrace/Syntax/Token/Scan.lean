import CallTrace.Syntax.Token

/-!
# From text to tokens

The scanner reads a text whose line endings are all `\n` and whose last line
ends.  It goes by steps: at the start of a line it measures the indentation,
within a line it takes one lexeme, blank, comment or line break at a time.

Indentation is measured twice, with tabs that advance to multiples of eight and
with tabs of one column, and the two measures must agree about every step;
so the layout of a program does not depend on the width of a tab.  A form feed
starts both measures again.  Lines without a lexeme, and lines inside brackets,
take no part in it.

Every step takes text away or begins the work within a line, so twice the
length of the text bounds the number of steps.
-/

namespace CallTrace.Syntax

/-- The width of an indentation with wide tabs and with narrow ones. -/
structure Indent where
  wide : Nat
  narrow : Nat
  deriving DecidableEq, Repr

namespace Indent

def zero : Indent := ⟨0, 0⟩

/-- The indentation after one more character of it. -/
def step (i : Indent) (c : Char) : Indent :=
  if c = '\t' then ⟨(i.wide / 8 + 1) * 8, i.narrow + 1⟩
  else if c = '\x0c' then zero
  else ⟨i.wide + 1, i.narrow + 1⟩

/-- The deepest indentation that a program may have. -/
def levelLimit : Nat := 99

end Indent

/-- Whether the character is a blank within a line. -/
def isSpace (c : Char) : Bool :=
  c = ' ' || c = '\t' || c = '\x0c'

/-- Measures the blanks at the start of a line.  A line that goes on after a backslash has the
indentation that stood before the first backslash, unless none did. -/
def measure (indent : Indent) (held : Nat) (place : Position) :
    List Char → Option (Indent × Position × List Char)
  | '\\' :: '\n' :: rest =>
    if rest.isEmpty then none
    else measure indent (if held = 0 then indent.wide else held) (place.step '\n') rest
  | c :: rest =>
    if c = '\\' then none
    else if isSpace c then measure (indent.step c) held (place.step c) rest
    else some (if held = 0 then indent else ⟨held, held⟩, place, c :: rest)
  | [] => some (if held = 0 then indent else ⟨held, held⟩, place, [])

/-- The steps that lead from the open levels, innermost first, to an indentation, and the levels
that are open then. -/
def stepsTo (levels : List Indent) (indent : Indent) : Option (List Lexeme × List Indent) :=
  let current := levels.headD .zero
  if current.wide < indent.wide then
    if levels.length < Indent.levelLimit ∧ current.narrow < indent.narrow then
      some ([.indent], indent :: levels)
    else none
  else
    let kept := levels.dropWhile fun level => indent.wide < level.wide
    if kept.headD .zero = indent then
      some (List.replicate (levels.length - kept.length) .dedent, kept)
    else none

/-! ## Lexemes -/

/-- The rest of a literal after its opening mark, up to the same mark on the same line. -/
def closeSingle (mark : Char) : List Char → Option (List Char × List Char)
  | [] => none
  | '\\' :: c :: rest => (closeSingle mark rest).map fun (body, left) => ('\\' :: c :: body, left)
  | c :: rest =>
    if c = mark then some ([c], rest)
    else if c = '\n' ∨ c = '\\' then none
    else (closeSingle mark rest).map fun (body, left) => (c :: body, left)

/-- The rest of a literal after three opening marks, up to three such marks. -/
def closeTriple (mark : Char) : List Char → Option (List Char × List Char)
  | [] => none
  | '\\' :: c :: rest => (closeTriple mark rest).map fun (body, left) => ('\\' :: c :: body, left)
  | c :: rest =>
    if c = mark ∧ [mark, mark].isPrefixOf rest then some ([mark, mark, mark], rest.drop 2)
    else if c = '\\' then none
    else (closeTriple mark rest).map fun (body, left) => (c :: body, left)

/-- A string literal from its first mark on, and what is left. -/
def scanQuoted : List Char → Option (List Char × List Char)
  | a :: b :: c :: rest =>
    if b = a ∧ c = a then (closeTriple a rest).map fun (body, left) => (a :: b :: c :: body, left)
    else (closeSingle a (b :: c :: rest)).map fun (body, left) => (a :: body, left)
  | a :: rest => (closeSingle a rest).map fun (body, left) => (a :: body, left)
  | [] => none

def isQuote (c : Char) : Bool := c = '\'' || c = '"'

/-- The words that may stand before a string literal. -/
def isLiteralMark (word : List Char) : Bool :=
  [['b'], ['u'], ['r'], ['f'], ['b', 'r'], ['r', 'b'], ['f', 'r'], ['r', 'f']].contains
    (word.map Char.toLower)

/-- The lexeme that a text begins with, its spelling, and what is left. -/
def scanLexeme (text : List Char) : Option (Lexeme × List Char × List Char) :=
  match text with
  | [] => none
  | c :: rest =>
    if Unicode.mayStart c then
      let word := text.takeWhile Unicode.mayContinue
      let left := text.dropWhile Unicode.mayContinue
      if isLiteralMark word && left.head?.any isQuote then
        (scanQuoted left).map fun (body, left) => (.string (word ++ body), word ++ body, left)
      else if Unicode.isIdentifier word then
        match Keyword.ofSpelling? word with
        | some k => some (.keyword k, word, left)
        | none => some (.name word, word, left)
      else none
    else if isQuote c then
      (scanQuoted text).map fun (body, left) => (.string body, body, left)
    else if Numeral.isDecimal c || (c = '.' && rest.head?.any Numeral.isDecimal) then
      match Numeral.scan text with
      | none => none
      | some (spelling, left) =>
        (Numeral.ofSpelling? spelling).map fun value => (.number value, spelling, left)
    else match Sign.atStart? text with
      | none => none
      | some (spelling, sign) => some (.sign sign, spelling, text.drop spelling.length)

/-! ## The scanner -/

/-- The most brackets that may be open at once. -/
def bracketLimit : Nat := 200

/-- The closing brackets awaited, innermost first, after a lexeme. -/
def awaited (closers : List Sign) : Lexeme → Option (List Sign)
  | .sign s =>
    match s.closer? with
    | some closer => if closers.length < bracketLimit then some (closer :: closers) else none
    | none =>
      if s.isCloser then
        match closers with
        | [] => none
        | closer :: rest => if s = closer then some rest else none
      else some closers
  | _ => some closers

/-- Where the scanner stands in a line. -/
inductive Stage
  | lineStart
  | within (blankLine : Bool)
  deriving DecidableEq, Repr

/-- The scanner between two steps; the tokens found so far are held last first. -/
structure Scanner where
  stage : Stage
  levels : List Indent
  closers : List Sign
  place : Position
  text : List Char
  found : List Token

/-- What a step of the scanner comes to. -/
inductive Progress
  | more (s : Scanner)
  | done (tokens : List Token)
  | refused

namespace Scanner

def start (text : List Char) : Scanner :=
  ⟨.lineStart, [], [], .origin, text, []⟩

/-- Adds a token that takes no text. -/
def mark (s : Scanner) (lexeme : Lexeme) : Scanner :=
  { s with found := ⟨lexeme, s.place, s.place⟩ :: s.found }

/-- Measures a line's indentation and marks the steps to it. -/
def beginLine (s : Scanner) : Progress :=
  match measure .zero 0 s.place s.text with
  | none => .refused
  | some (indent, place, text) =>
    let blankLine := text.head? = some '#' || text.head? = some '\n'
    let s := { s with stage := .within blankLine, place, text }
    if blankLine || !s.closers.isEmpty then .more s
    else match stepsTo s.levels indent with
      | none => .refused
      | some (steps, levels) => .more (steps.foldl mark { s with levels })

/-- Takes one lexeme. -/
def takeLexeme (s : Scanner) : Progress :=
  match scanLexeme s.text with
  | none => .refused
  | some (lexeme, spelling, text) =>
    match awaited s.closers lexeme with
    | none => .refused
    | some closers =>
      let stop := s.place.advance spelling
      .more { s with closers, place := stop, text,
                     found := ⟨lexeme, s.place, stop⟩ :: s.found }

/-- One step within a line. -/
def goOn (s : Scanner) (blankLine : Bool) : Progress :=
  match s.text with
  | [] => if s.closers.isEmpty then .done (s.mark .finish).found.reverse else .refused
  | c :: rest =>
    if isSpace c then .more { s with place := s.place.step c, text := rest }
    else if c = '#' then
      let comment := s.text.takeWhile (· ≠ '\n')
      .more { s with place := s.place.advance comment, text := s.text.dropWhile (· ≠ '\n') }
    else if c = '\n' then
      let ended := if blankLine || !s.closers.isEmpty then s else s.mark .newline
      .more { ended with stage := .lineStart, place := s.place.step c, text := rest }
    else if c = '\\' then
      match rest with
      | '\n' :: d :: more => .more { s with place := s.place.step '\n', text := d :: more }
      | _ => .refused
    else s.takeLexeme

/-- One step. -/
def step (s : Scanner) : Progress :=
  match s.stage with
  | .lineStart => s.beginLine
  | .within blankLine => s.goOn blankLine

/-- All steps, as long as the fuel lasts. -/
def run : Nat → Scanner → Option (List Token)
  | 0, _ => none
  | fuel + 1, s =>
    match s.step with
    | .more s => run fuel s
    | .done tokens => some tokens
    | .refused => none

end Scanner

/-- The tokens of a text whose lines all end in `\n`. -/
def scanTokens (text : List Char) : Option (List Token) :=
  (Scanner.start text).run (2 * text.length + 4)

end CallTrace.Syntax
