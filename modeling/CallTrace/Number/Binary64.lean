import CallTrace.Text.Digits

/-!
# Binary64 numbers

A number is a sign and a mantissa below `2 ^ 53` times a power of two that is at
least `2 ^ -1074`, or it is infinite.  A decimal numeral stands for the nearest
such number, and of two that are equally near for the one with the even
mantissa.

Quotients are rounded in whole numbers only, so nothing is lost before the one
rounding.
-/

namespace CallTrace

/-- A binary64 number other than the undefined one. -/
inductive Binary64
  | infinite (negative : Bool)
  /-- The mantissa times two to the exponent. -/
  | finite (negative : Bool) (mantissa : Nat) (exponent : Int)
  deriving DecidableEq, Repr

namespace Binary64

/-- The least exponent. -/
def leastExponent : Int := -1074

/-- The greatest exponent. -/
def greatestExponent : Int := 971

/-- The bound of the mantissas, two to the power 53. -/
def mantissaBound : Nat := Nat.pow 2 53

/-- A quotient rounded to the nearest whole number, a half to the even neighbour. -/
def roundHalfEven (num den : Nat) : Nat :=
  let q := num / den
  let r := num % den
  if 2 * r < den then q
  else if den < 2 * r then q + 1
  else if q % 2 = 0 then q else q + 1

/-- A quotient times a power, as a quotient. -/
def scale (base num den : Nat) (exponent : Int) : Nat × Nat :=
  if exponent < 0 then (num, den * Nat.pow base (-exponent).toNat)
  else (num * Nat.pow base exponent.toNat, den)

/-- The exponent with which a positive quotient has a full mantissa, if it is not too small. -/
def fittingExponent (num den : Nat) : Int :=
  let e : Int := (num.log2 : Int) - den.log2 - 53
  let (n, d) := scale 2 num den (-e)
  max leastExponent (if mantissaBound * d ≤ n then e + 1 else e)

/-- The number nearest to a quotient. -/
def ofQuotient (negative : Bool) (num den : Nat) : Binary64 :=
  if num = 0 then .finite negative 0 leastExponent
  else
    let e := fittingExponent num den
    let (n, d) := scale 2 num den (-e)
    let m := roundHalfEven n d
    let (m, e) := if m = mantissaBound then (m / 2, e + 1) else (m, e)
    if greatestExponent < e then .infinite negative else .finite negative m e

/-- Decimal orders of magnitude from here on are infinite, and down to its negative are nothing. -/
def orderBound : Int := 400

/-- The number nearest to a whole number times a power of ten. -/
def ofDecimal (negative : Bool) (digits : Nat) (exponent : Int) : Binary64 :=
  let order := (Text.decimal digits).length + exponent
  if digits = 0 ∨ order < -orderBound then .finite negative 0 leastExponent
  else if orderBound < order then .infinite negative
  else
    let (n, d) := scale 10 digits 1 exponent
    ofQuotient negative n d

/-- A whole number with its sign. -/
def signedValue : List Char → Int
  | '-' :: digits => -(Text.ofDigits 10 digits : Int)
  | '+' :: digits => Text.ofDigits 10 digits
  | digits => Text.ofDigits 10 digits

/-- The number that a decimal numeral stands for, which may have a sign, a fraction and an exponent. -/
def ofNumeral (text : List Char) : Binary64 :=
  let negative := text.head? = some '-'
  let body := if negative then text.drop 1 else text
  let isMark (c : Char) : Bool := c = 'e' || c = 'E'
  let mantissa := body.takeWhile (!isMark ·)
  let exponent := signedValue (body.drop (mantissa.length + 1))
  let whole := mantissa.takeWhile (· != '.')
  let fraction := mantissa.drop (whole.length + 1)
  ofDecimal negative (Text.ofDigits 10 (whole ++ fraction)) (exponent - fraction.length)

/-- Whether the number is not zero. -/
def isNonzero : Binary64 → Bool
  | .infinite _ => true
  | .finite _ m _ => m != 0

end Binary64

end CallTrace
