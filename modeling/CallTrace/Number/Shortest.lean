import CallTrace.Number.Binary64

/-!
# The shortest text of a number

A binary64 number is written with the fewest significant digits that are read
back as it; of several such decimals the nearest one is taken.

The decimals that are read back lie in an interval around the number: it reaches
half way to each neighbour, and its ends belong to it if the mantissa is even.
On the grid of decimals with a given count of digits only the two neighbours of
the number have to be tried, since if any point of the grid lies in the interval
then one of these does.
-/

namespace CallTrace.Binary64

/-- A decimal: a whole number of digits times a power of ten. -/
structure Decimal where
  digits : Nat
  exponent : Int
  deriving DecidableEq, Repr

/-- The count of digits that is always enough. -/
def digitBound : Nat := 17

/-- The decimals that are read back as a number, in quarters of its last binary place: those from
`low` to `high`, with or without these ends. -/
structure Interval where
  low : Nat
  high : Nat
  isClosed : Bool
  deriving DecidableEq, Repr

/-- The interval of a number; below a power of two the neighbours lie closer. -/
def interval (mantissa : Nat) (exponent : Int) : Interval :=
  let isBoundary := mantissa * 2 = mantissaBound && leastExponent < exponent
  ⟨4 * mantissa - (if isBoundary then 1 else 2), 4 * mantissa + 2, mantissa % 2 = 0⟩

/-- Whether a quotient lies in an interval. -/
def Interval.holds (i : Interval) (num den : Nat) : Bool :=
  if i.isClosed then i.low * den ≤ num && num ≤ i.high * den
  else i.low * den < num && num < i.high * den

/-- The power of ten at or below a positive quotient. -/
def decimalOrder (num den : Nat) : Int :=
  let e : Int := (Text.decimal num).length - (Text.decimal den).length
  let (n, d) := scale 10 num den (-e)
  if d ≤ n then e else e - 1

/-- The distance of two whole numbers. -/
def distance (a b : Nat) : Nat := (a - b) + (b - a)

/-- The decimal on the grid of a power of ten that is read back as the number and nearest to it. -/
def onGrid? (mantissa : Nat) (exponent grid : Int) : Option Decimal :=
  let i := interval mantissa exponent
  -- one step of the grid, in quarters of the last binary place
  let (a, b) := scale 10 1 1 grid
  let (stepNum, stepDen) := scale 2 a b (2 - exponent)
  let value := 4 * mantissa
  let below := value * stepDen / stepNum
  let candidates := [below, below + 1].filter fun c => i.holds (c * stepNum) stepDen
  let far (c : Nat) : Nat := distance (c * stepNum) (value * stepDen)
  match candidates with
  | [c] => some ⟨c, grid⟩
  | [c, d] =>
    some ⟨if far c < far d || (far c = far d && c % 2 = 0) then c else d, grid⟩
  | _ => none

/-- A decimal without zeros at the end. -/
def Decimal.trimmed (d : Decimal) : Nat → Decimal
  | 0 => d
  | fuel + 1 =>
    if d.digits ≠ 0 ∧ d.digits % 10 = 0 then Decimal.trimmed ⟨d.digits / 10, d.exponent + 1⟩ fuel
    else d

/-- The shortest decimal that is read back as a positive number. -/
def shortest (mantissa : Nat) (exponent : Int) : Decimal :=
  let (n, d) := scale 2 mantissa 1 exponent
  let order := decimalOrder n d
  let found := (List.range digitBound).findSome? fun k : Nat => onGrid? mantissa exponent (order - k)
  (found.getD ⟨0, 0⟩).trimmed digitBound

/-- The least decimal order that is written without an exponent. -/
def leastPositional : Int := -4

/-- The decimal order from which on numbers are written with an exponent. -/
def positionalBound : Int := 16

/-- An exponent as it is written: a sign and at least two digits. -/
def exponentText (e : Int) : List Char :=
  let digits := Text.decimal e.natAbs
  'e' :: (if e < 0 then '-' else '+') :: (if digits.length < 2 then '0' :: digits else digits)

/-- A decimal as it is written: with a point and at least one digit after it, or, for very large and
very small ones, with an exponent. -/
def Decimal.text (d : Decimal) : List Char :=
  let digits := Text.decimal d.digits
  let order : Int := d.exponent + digits.length - 1
  if order < leastPositional ∨ positionalBound ≤ order then
    let fraction := digits.drop 1
    digits.take 1 ++ (if fraction.isEmpty then [] else '.' :: fraction) ++ exponentText order
  else if order < 0 then
    ['0', '.'] ++ List.replicate (-order - 1).toNat '0' ++ digits
  else if 0 ≤ d.exponent then
    digits ++ List.replicate d.exponent.toNat '0' ++ ['.', '0']
  else
    let whole := order.toNat + 1
    digits.take whole ++ '.' :: digits.drop whole

/-- The text of a number. -/
def text : Binary64 → List Char
  | .infinite negative => (if negative then ['-'] else []) ++ ['i', 'n', 'f']
  | .finite negative mantissa exponent =>
    (if negative then ['-'] else []) ++
      (if mantissa = 0 then ['0', '.', '0'] else (shortest mantissa exponent).text)

end CallTrace.Binary64
