import CallTrace.Syntax.Token.Scan
import CallTrace.Syntax.Tree

/-!
# String literals

Adjacent literals make one constant.  A literal may be marked as raw, as bytes,
as Unicode or as formatted; bytes and texts do not mix.  `unescape` reads the
escapes of a literal that is not raw.

In a formatted literal the text between braces is an expression with an
optional conversion and an optional format, which may itself hold fields, one
level deep.  A doubled brace stands for one brace.  How an expression is read is
given from outside, as the function `expression`; it gets the text between the
braces in parentheses of its own.  All nodes inside take the place of the whole
literal.
-/

namespace CallTrace.Syntax.Literal

/-! ## Escapes -/

/-- The code point that an escape by a single letter or sign stands for. -/
def signEscape (c : Char) : Option Nat :=
  if c = '\\' ∨ c = '\'' ∨ c = '"' then some c.toNat
  else if c = 'b' then some 8
  else if c = 't' then some 9
  else if c = 'n' then some 10
  else if c = 'v' then some 11
  else if c = 'f' then some 12
  else if c = 'r' then some 13
  else if c = 'a' then some 7
  else none

/-- The number that hexadecimal digits name, if all of them are digits. -/
def hexNumber (digits : List Char) : Option Nat :=
  if digits.all Numeral.isHexadecimal then some (Text.ofDigits 16 digits) else none

/-- Cuts a number to what its place can hold. -/
def fit (isBytes : Bool) (n : Nat) : Nat :=
  if isBytes then n % 256 else n

/-- Whether an escape has the given letter, which bytes have no escape by. -/
def isWide (isBytes : Bool) (letter c : Char) : Bool :=
  c = letter && !isBytes

/-- The code points, or bytes, that the body of a literal stands for; an unknown escape stands for
itself, a broken one for nothing. -/
def unescape (isBytes : Bool) : List Char → Option (List Nat)
  | [] => some []
  | ['\\'] => some ['\\'.toNat]
  | '\\' :: c :: rest =>
    if c = '\n' then unescape isBytes rest
    else match signEscape c with
      | some n => (unescape isBytes rest).map (n :: ·)
      | none =>
        if Numeral.isOctal c then
          match rest with
          | a :: b :: more =>
            if Numeral.isOctal a then
              if Numeral.isOctal b then
                (unescape isBytes more).map (fit isBytes (Text.ofDigits 8 [c, a, b]) :: ·)
              else (unescape isBytes (b :: more)).map (Text.ofDigits 8 [c, a] :: ·)
            else (unescape isBytes (a :: b :: more)).map (Text.ofDigits 8 [c] :: ·)
          | [a] =>
            if Numeral.isOctal a then some [Text.ofDigits 8 [c, a]]
            else (unescape isBytes [a]).map (Text.ofDigits 8 [c] :: ·)
          | [] => some [Text.ofDigits 8 [c]]
        else if c = 'x' then
          match rest with
          | d₁ :: d₂ :: more =>
            match hexNumber [d₁, d₂] with
            | some n => (unescape isBytes more).map (n :: ·)
            | none => none
          | _ => none
        else if isWide isBytes 'u' c then
          match rest with
          | d₁ :: d₂ :: d₃ :: d₄ :: more =>
            match hexNumber [d₁, d₂, d₃, d₄] with
            | some n => (unescape isBytes more).map (n :: ·)
            | none => none
          | _ => none
        else if isWide isBytes 'U' c then
          match rest with
          | d₁ :: d₂ :: d₃ :: d₄ :: d₅ :: d₆ :: d₇ :: d₈ :: more =>
            match hexNumber [d₁, d₂, d₃, d₄, d₅, d₆, d₇, d₈] with
            | some n => if n < 0x110000 then (unescape isBytes more).map (n :: ·) else none
            | none => none
          | _ => none
        else if isWide isBytes 'N' c then none
        else (unescape isBytes rest).map ('\\'.toNat :: c.toNat :: ·)
  | c :: rest => (unescape isBytes rest).map (c.toNat :: ·)

/-! ## One literal -/

/-- What stands before the quotes of a literal. -/
structure Mark where
  isRaw : Bool
  isBytes : Bool
  isFormatted : Bool
  isUnicode : Bool

/-- The mark that a word stands for. -/
def Mark.ofWord (word : List Char) : Mark :=
  let has (a b : Char) := word.contains a || word.contains b
  ⟨has 'r' 'R', has 'b' 'B', has 'f' 'F', word.contains 'u'⟩

/-- What stands between the quotes of a literal. -/
def unquoted : List Char → List Char
  | a :: b :: c :: rest =>
    if a = b ∧ b = c then rest.take (rest.length - 3) else (b :: c :: rest).dropLast
  | _ :: rest => rest.dropLast
  | [] => []

/-- The mark of a literal and its body. -/
def parts (spelling : List Char) : Mark × List Char :=
  (Mark.ofWord (spelling.takeWhile (!isQuote ·)), unquoted (spelling.dropWhile (!isQuote ·)))

/-- The code points of a body, read by its escapes or as it stands. -/
def codes (isRaw : Bool) (text : List Char) : Option (List Nat) :=
  if isRaw then some (text.map Char.toNat) else unescape false text

/-- The bytes of a body, which is ASCII. -/
def byteValues (isRaw : Bool) (text : List Char) : Option (List Nat) :=
  if text.all (·.toNat < 128) then
    if isRaw then some (text.map Char.toNat) else unescape true text
  else none

/-! ## Formatted literals -/

/-- A stretch of text or a field of a formatted literal. -/
inductive Piece
  | text (codes : List Nat)
  | field (value : Tree)

/-- Text up to a brace. -/
structure Stretch where
  text : List Char
  /-- What is left, from the brace on or after both of a pair. -/
  left : List Char
  /-- Whether the text ends with the one brace that a pair stands for. -/
  isDoubled : Bool

def isBrace (c : Char) : Bool := c = '\x7b' || c = '\x7d'

/-- Adds text at the front. -/
def Stretch.prepend (text : List Char) (s : Stretch) : Stretch :=
  { s with text := text ++ s.text }

/-- What a brace comes to: outside formats, a pair of braces is one brace, and a closing one alone
is refused. -/
def atBrace (isNested : Bool) (c : Char) (rest : List Char) : Option Stretch :=
  if isNested then some ⟨[], c :: rest, false⟩
  else match rest with
    | d :: more =>
      if d = c then some ⟨[c], more, true⟩
      else if c = '\x7d' then none else some ⟨[], c :: rest, false⟩
    | [] => if c = '\x7d' then none else some ⟨[], c :: rest, false⟩

/-- Takes text up to the next brace; an escape keeps no brace from counting. -/
def takeStretch (isRaw isNested : Bool) : List Char → Option Stretch
  | [] => some ⟨[], [], false⟩
  | [c] => if isBrace c then atBrace isNested c [] else some ⟨[c], [], false⟩
  | c :: d :: rest =>
    if isBrace c then atBrace isNested c (d :: rest)
    else if c = '\\' ∧ ¬isRaw then
      if isBrace d then (atBrace isNested d rest).map (·.prepend [c])
      else (takeStretch isRaw isNested rest).map (·.prepend [c, d])
    else (takeStretch isRaw isNested (d :: rest)).map (·.prepend [c])

/-- The closing bracket for an opening one. -/
def closerOf (c : Char) : Option Char :=
  if c = '(' then some ')' else if c = '[' then some ']'
  else if c = '\x7b' then some '\x7d' else none

/-- Whether the character may end a field's expression. -/
def endsField (c : Char) : Bool :=
  ['!', ':', '\x7d', '=', '<', '>'].contains c

/-- A quoted stretch that a field's expression is in: its mark, and whether it has three. -/
structure Quoting where
  mark : Char
  isTriple : Bool

/-- The text of a field's expression, and what is left from its end on.  Quoted text and brackets
are stepped over; backslashes and comments are refused. -/
def takeField (quoting : Option Quoting) (closers : List Char) :
    List Char → Option (List Char × List Char)
  | [] => none
  | c :: rest =>
    let goOn (taken : List Char) (r : Option (List Char × List Char)) :=
      r.map fun (text, left) => (taken ++ text, left)
    if c = '\\' then none
    else match quoting with
      | some q =>
        if c = q.mark then
          if q.isTriple then
            match rest with
            | a :: b :: more =>
              if a = c ∧ b = c then goOn [c, a, b] (takeField none closers more)
              else goOn [c] (takeField quoting closers (a :: b :: more))
            | _ => none
          else goOn [c] (takeField none closers rest)
        else goOn [c] (takeField quoting closers rest)
      | none =>
        if isQuote c then
          match rest with
          | a :: b :: more =>
            if a = c ∧ b = c then goOn [c, a, b] (takeField (some ⟨c, true⟩) closers more)
            else goOn [c] (takeField (some ⟨c, false⟩) closers (a :: b :: more))
          | [a] => goOn [c] (takeField (some ⟨c, false⟩) closers [a])
          | [] => none
        else match closerOf c with
          | some closer =>
            if closers.length < bracketLimit then goOn [c] (takeField none (closer :: closers) rest)
            else none
          | none =>
            if c = '#' then none
            else if closers.isEmpty && endsField c then
              match rest with
              | a :: more =>
                if a = '=' ∧ (c = '!' ∨ c = '=' ∨ c = '<' ∨ c = '>') then
                  goOn [c, a] (takeField none closers more)
                else if c = '<' ∨ c = '>' then goOn [c] (takeField none closers (a :: more))
                else some ([], c :: a :: more)
              | [] => if c = '<' ∨ c = '>' then none else some ([], [c])
            else if c = ')' ∨ c = ']' ∨ c = '\x7d' then
              match closers with
              | closer :: outer => if c = closer then goOn [c] (takeField none outer rest) else none
              | [] => none
            else goOn [c] (takeField none closers rest)

/-- The conversion of a field, if it has one, and what is left. -/
def takeConversion : List Char → Option (Option Char × List Char)
  | '!' :: c :: rest => if c = 's' ∨ c = 'r' ∨ c = 'a' then some (some c, rest) else none
  | ['!'] => none
  | text => some (none, text)

/-- The node of a field. -/
def fieldNode (place : Span) (value : Tree) (conversion : Option Char) (format : Option Tree) :
    Tree :=
  let mark := match conversion with
    | some c => Tree.leaf .conversion (.count c.toNat)
    | none => Tree.leaf .conversion .absent
  Tree.make .formattedValue place
    (value.assume .value :: mark :: (format.map (·.assume .formatSpec)).toList)

/-- Joins stretches of text that stand side by side, and drops empty ones. -/
def joinPieces : List Piece → List Piece
  | [] => []
  | .field t :: rest => .field t :: joinPieces rest
  | .text codes :: rest =>
    match joinPieces rest with
    | .text more :: others => .text (codes ++ more) :: others
    | others => if codes.isEmpty then others else .text codes :: others

/-- The constant of a text. -/
def textNode (place : Span) (isUnicode : Bool) (codes : List Nat) : Tree :=
  Tree.make .constant place [.leaf .value (.text codes isUnicode)]

/-- The node of a formatted literal. -/
def joined (place : Span) (isUnicode : Bool) (pieces : List Piece) : Tree :=
  Tree.make .joinedStr place <| (joinPieces pieces).map fun
    | .text codes => (textNode place isUnicode codes).assume .values
    | .field value => value.assume .values

/-- Whether a field's expression shows nothing. -/
def isVoid (text : List Char) : Bool :=
  text.all fun c => isSpace c || c = '\n'

def isAsciiBlank (c : Char) : Bool :=
  isSpace c || c = '\n' || c = '\r' || c = '\x0b'

/-- How deep fields may be nested in formats. -/
def fieldDepth : Nat := 2

/-- The pieces of a formatted literal, or of a format within one, and what is left.  A field that is
written with an equals sign shows its own text first. -/
def takePieces (expression : List Char → Option Tree) (place : Span) (isUnicode isRaw : Bool) :
    Nat → Nat → List Char → Option (List Piece × List Char)
  | 0, _, _ => none
  | fuel + 1, depth, text => do
    let stretch ← takeStretch isRaw (0 < depth) text
    let head := Piece.text (← codes isRaw stretch.text)
    if stretch.isDoubled then
      let (more, left) ← takePieces expression place isUnicode isRaw fuel depth stretch.left
      return (head :: more, left)
    match stretch.left with
    | '\x7b' :: rest =>
      if fieldDepth ≤ depth then none
      let (source, rest) ← takeField none [] rest
      if isVoid source then none
      let value ← expression ('(' :: source ++ [')'])
      let (shown, rest) :=
        match rest with
        | '=' :: more =>
          let blanks := more.takeWhile isAsciiBlank
          (some (source ++ '=' :: blanks), more.drop blanks.length)
        | _ => (none, rest)
      let (conversion, rest) ← takeConversion rest
      let (format, rest) ←
        match rest with
        | ':' :: more =>
          (takePieces expression place isUnicode isRaw fuel (depth + 1) more).map
            fun (pieces, left) => (some (joined place isUnicode pieces), left)
        | _ => some (none, rest)
      let conversion :=
        if shown.isSome && format.isNone then conversion.or (some 'r') else conversion
      match rest with
      | '\x7d' :: rest =>
        let node := fieldNode place (value.relocate place) conversion format
        let shownPieces := (shown.map fun s => Piece.text (s.map Char.toNat)).toList
        let (more, left) ← takePieces expression place isUnicode isRaw fuel depth rest
        return (head :: (shownPieces ++ Piece.field node :: more), left)
      | _ => none
    | left => return ([head], left)

/-! ## Adjacent literals -/

/-- The pieces of one literal that is no bytes. -/
def piecesOf (expression : List Char → Option Tree) (place : Span) (isUnicode : Bool)
    (literal : Mark × List Char) : Option (List Piece) :=
  let (mark, body) := literal
  if mark.isFormatted then
    match takePieces expression place isUnicode mark.isRaw (body.length + 1) 0 body with
    | some (pieces, []) => some pieces
    | _ => none
  else (codes mark.isRaw body).map fun c => [.text c]

/-- The node of adjacent literals with the given spellings. -/
def toNode? (expression : List Char → Option Tree) (place : Span) (spellings : List (List Char)) :
    Option Tree :=
  let literals := spellings.map parts
  if literals.all (·.1.isBytes) then do
    let values ← literals.mapM fun (mark, body) => byteValues mark.isRaw body
    return Tree.make .constant place [.leaf .value (.bytes values.flatten)]
  else if literals.any (·.1.isBytes) then none
  else do
    let isUnicode := literals.head?.any (·.1.isUnicode)
    let pieces ← literals.mapM (piecesOf expression place isUnicode)
    if literals.any (·.1.isFormatted) then return joined place isUnicode pieces.flatten
    else
      let all := pieces.flatten.flatMap fun
        | .text codes => codes
        | .field _ => []
      return textNode place isUnicode all

end CallTrace.Syntax.Literal
