import CallTrace.Text.Digits
import CallTrace.Unicode.Identifier

/-!
# Numerals

A numeral is decimal, or binary, octal or hexadecimal after `0b`, `0o`, `0x`;
single underscores may stand between its digits.  A decimal one may have a
fraction, an exponent and the mark `j` of an imaginary number.

A numeral takes as much text as it can, and what follows must not look like
part of it: either a character that no name holds, or one of the few words that
may stand right after a number.  A whole number does not begin with zeros
unless it is zero.

`append_digitRun` says that a run of digits and the text left after it are the
text that was scanned.
-/

namespace CallTrace.Syntax

/-- The value of a numeral; a decimal fraction is `digits · 10 ^ exponent`. -/
inductive Numeral
  | integer (value : Nat)
  | real (digits : Nat) (exponent : Int)
  | imaginary (digits : Nat) (exponent : Int)
  deriving DecidableEq, Repr

namespace Numeral

def isDecimal (c : Char) : Bool := '0' ≤ c && c ≤ '9'

def isHexadecimal (c : Char) : Bool := (Text.digitValue? c).isSome

def isOctal (c : Char) : Bool := '0' ≤ c && c ≤ '7'

def isBinary (c : Char) : Bool := c = '0' || c = '1'

/-- Digits with single underscores between them, and what is left; an underscore needs a digit
after it. -/
def digitRun (digit : Char → Bool) : List Char → Option (List Char × List Char)
  | [] => none
  | d :: rest =>
    if digit d then
      match rest with
      | '_' :: more => (digitRun digit more).map fun (run, left) => (d :: '_' :: run, left)
      | c :: more =>
        if digit c then (digitRun digit (c :: more)).map fun (run, left) => (d :: run, left)
        else some ([d], c :: more)
      | [] => some ([d], [])
    else none

/-- Nothing is lost by scanning digits. -/
theorem append_digitRun {digit : Char → Bool} {text run left : List Char}
    (h : digitRun digit text = some (run, left)) : run ++ left = text := by
  fun_induction digitRun digit text generalizing run left with
  | case1 => simp at h
  | case2 d hd more ih =>
    obtain ⟨⟨r, l⟩, hr, he⟩ := Option.map_eq_some_iff.1 h
    simp only [Prod.mk.injEq] at he
    obtain ⟨rfl, rfl⟩ := he
    simp [ih hr]
  | case3 d hd c more _ hc ih =>
    obtain ⟨⟨r, l⟩, hr, he⟩ := Option.map_eq_some_iff.1 h
    simp only [Prod.mk.injEq] at he
    obtain ⟨rfl, rfl⟩ := he
    simp [ih hr]
  | case4 d hd c more _ hc =>
    simp only [Option.some.injEq, Prod.mk.injEq] at h
    obtain ⟨rfl, rfl⟩ := h
    rfl
  | case5 d hd => simp_all
  | case6 => simp at h

/-- The words that may follow a number without a blank, whole. -/
def followingWords : List (List Char) :=
  [['a', 'n', 'd'], ['e', 'l', 's', 'e'], ['f', 'o', 'r'], ['o', 'r'], ['n', 'o', 't']]

/-- The words that may follow a number even when more letters follow them. -/
def followingStems : List (List Char) :=
  [['i', 'f'], ['i', 'n'], ['i', 's']]

/-- Whether a text cannot be mistaken for more of the numeral before it. -/
def mayFollow (text : List Char) : Bool :=
  match text with
  | [] => true
  | c :: _ =>
    !Unicode.mayContinue c || followingStems.any (·.isPrefixOf text) ||
      followingWords.any fun word =>
        word.isPrefixOf text && !((text.drop word.length).head?.any Unicode.mayContinue)

/-- A point and the digits after it, if the text begins with a point. -/
def fraction : List Char → Option (List Char × List Char)
  | '.' :: rest =>
    if rest.head?.any isDecimal then
      (digitRun isDecimal rest).map fun (run, left) => ('.' :: run, left)
    else some (['.'], rest)
  | text => some ([], text)

/-- An exponent, if the text begins with one; a letter `e` without digits is left alone, but a sign
after it asks for digits. -/
def exponentPart : List Char → Option (List Char × List Char)
  | e :: s :: rest =>
    if e = 'e' ∨ e = 'E' then
      if s = '+' ∨ s = '-' then
        (digitRun isDecimal rest).map fun (run, left) => (e :: s :: run, left)
      else if isDecimal s then
        (digitRun isDecimal (s :: rest)).map fun (run, left) => (e :: run, left)
      else some ([], e :: s :: rest)
    else some ([], e :: s :: rest)
  | text => some ([], text)

/-- The mark of an imaginary number, if the text begins with it. -/
def imaginaryMark : List Char → List Char × List Char
  | 'j' :: rest => (['j'], rest)
  | 'J' :: rest => (['J'], rest)
  | text => ([], text)

/-- A decimal numeral and what is left. -/
def scanDecimal (text : List Char) : Option (List Char × List Char) := do
  let (whole, rest) ← if text.head? = some '.' then some ([], text) else digitRun isDecimal text
  let (part, rest) ← fraction rest
  let (power, rest) ← exponentPart rest
  let (mark, rest) := imaginaryMark rest
  let isWhole := part.isEmpty && power.isEmpty && mark.isEmpty
  if isWhole && whole.head? = some '0' && whole.any (fun c => isDecimal c && c ≠ '0') then none
  else some (whole ++ part ++ power ++ mark, rest)

/-- A numeral after its mark of base, and what is left. -/
def scanRadix (digit : Char → Bool) : List Char → Option (List Char × List Char)
  | '_' :: rest => (digitRun digit rest).map fun (run, left) => ('_' :: run, left)
  | rest => digitRun digit rest

/-- The digits of the base that a letter after a zero stands for. -/
def radixOf (letter : Char) : Option (Nat × (Char → Bool)) :=
  if letter = 'x' ∨ letter = 'X' then some (16, isHexadecimal)
  else if letter = 'o' ∨ letter = 'O' then some (8, isOctal)
  else if letter = 'b' ∨ letter = 'B' then some (2, isBinary)
  else none

/-- The longest numeral at the start of a text, and what is left. -/
def scan (text : List Char) : Option (List Char × List Char) := do
  let decimalNumeral := scanDecimal text
  let (spelling, rest) ←
    match text with
    | '0' :: letter :: rest =>
      match radixOf letter with
      | some (_, digit) => (scanRadix digit rest).map fun (run, left) => ('0' :: letter :: run, left)
      | none => decimalNumeral
    | _ => decimalNumeral
  if mayFollow rest then some (spelling, rest) else none

/-- The digits and the exponent of a decimal spelling, trailing zeros of the digits dropped. -/
def decimalValue (spelling : List Char) : Nat × Int :=
  let mantissa := spelling.takeWhile fun c => c ≠ 'e' && c ≠ 'E'
  let power := (spelling.drop mantissa.length).drop 1
  let whole := mantissa.takeWhile (· ≠ '.')
  let part := (mantissa.drop whole.length).drop 1
  let significant := ((whole ++ part).reverse.dropWhile (· = '0')).reverse
  let dropped : Int := (whole ++ part).length - significant.length
  let exponent : Int :=
    match power with
    | '-' :: digits => -(Text.ofDigits 10 digits : Int)
    | '+' :: digits => Text.ofDigits 10 digits
    | digits => Text.ofDigits 10 digits
  if significant.isEmpty then (0, 0)
  else (Text.ofDigits 10 significant, exponent - part.length + dropped)

/-- The most digits that a decimal whole number may have. -/
def digitLimit : Nat := 4300

/-- The value of a spelling; a whole number of too many digits has none. -/
def ofSpelling? (spelling : List Char) : Option Numeral :=
  let plain := spelling.filter (· ≠ '_')
  let decimalNumeral :=
    if plain.any fun c => c = 'j' || c = 'J' then
      let (digits, exponent) := decimalValue plain.dropLast
      some (.imaginary digits exponent)
    else if plain.any fun c => c = '.' || c = 'e' || c = 'E' then
      let (digits, exponent) := decimalValue plain
      some (.real digits exponent)
    else if plain.head? ≠ some '0' && digitLimit < plain.length then none
    else some (.integer (Text.ofDigits 10 plain))
  match plain with
  | '0' :: letter :: rest =>
    match radixOf letter with
    | some (base, _) => some (.integer (Text.ofDigits base rest))
    | none => decimalNumeral
  | _ => decimalNumeral

/-- Whether the number has an imaginary part only. -/
def isImaginary : Numeral → Bool
  | .imaginary _ _ => true
  | _ => false

end Numeral

end CallTrace.Syntax
