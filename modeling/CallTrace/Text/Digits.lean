/-!
# Numbers in digits

Reading and writing of whole numbers in bases up to sixteen.
-/

namespace CallTrace.Text

/-- The value of a digit, hexadecimal ones of either case included. -/
def digitValue? (c : Char) : Option Nat :=
  let n := c.toNat
  if 48 ≤ n ∧ n ≤ 57 then some (n - 48)
  else if 97 ≤ n ∧ n ≤ 102 then some (n - 87)
  else if 65 ≤ n ∧ n ≤ 70 then some (n - 55)
  else none

/-- The number that digits name in a base. -/
def ofDigits (base : Nat) (digits : List Char) : Nat :=
  digits.foldl (fun n c => base * n + (digitValue? c).getD 0) 0

/-- The lower-case hexadecimal digit of a value below 16. -/
def hexDigit (n : Nat) : Char :=
  if n < 10 then Char.ofNat (48 + n) else Char.ofNat (87 + n)

/-- A number in hexadecimal with exactly the given count of digits. -/
def hexPadded : Nat → Nat → List Char
  | 0, _ => []
  | count + 1, n => hexPadded count (n / 16) ++ [hexDigit (n % 16)]

/-- A decimal numeral. -/
def decimal (n : Nat) : List Char :=
  Nat.toDigits 10 n

/-- A whole number in decimal, with its sign if it is negative. -/
def decimalInt (i : Int) : List Char :=
  if i < 0 then '-' :: decimal i.natAbs else decimal i.natAbs

/-- A written hexadecimal digit is read back. -/
theorem digitValue_hexDigit {n : Nat} (h : n < 16) : digitValue? (hexDigit n) = some n := by
  have all : ∀ m ∈ List.range 16, digitValue? (hexDigit m) = some m := by decide
  exact all n (List.mem_range.2 h)

end CallTrace.Text
