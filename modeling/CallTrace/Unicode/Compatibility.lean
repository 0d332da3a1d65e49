import CallTrace.Unicode.CombiningClass
import CallTrace.Unicode.Composition
import CallTrace.Unicode.Decomposition

/-!
# The normal form of identifiers

Two spellings of an identifier are the same name when their compatibility
normal forms agree.  `normalize` decomposes every character, puts the marks on
each letter in the order of their classes, and composes again.  ASCII texts are
their own normal forms.
-/

namespace CallTrace.Unicode

/-- The parts of a Hangul syllable: a leading consonant, a vowel and perhaps a final consonant. -/
def hangulParts (n : Nat) : List Nat :=
  let i := n - 0xac00
  let final := i % 28
  [0x1100 + i / 588, 0x1161 + i % 588 / 28] ++ if final = 0 then [] else [0x11a7 + final]

/-- The full compatibility decomposition of a code point. -/
def decompose (n : Nat) : List Nat :=
  if 0xac00 ≤ n ∧ n ≤ 0xd7a3 then hangulParts n
  else match blockOf n decompositions with
    | none => [n]
    | some b => b.rows.getD (n - b.first) [n]

/-- Puts a mark before the marks of a higher class at the front of a list. -/
def insertMark (k n : Nat) : List Nat → List Nat
  | [] => [n]
  | m :: rest => if k < combiningClass m then m :: insertMark k n rest else n :: m :: rest

/-- The marks on each letter in the order of their classes; the list is held last character first. -/
def orderMarks (reversed : List Nat) : List Nat → List Nat
  | [] => reversed.reverse
  | n :: rest =>
    let k := combiningClass n
    orderMarks (if k = 0 then n :: reversed else insertMark k n reversed) rest

/-- The syllable that two Hangul parts make. -/
def hangulPair (a b : Nat) : Option Nat :=
  if 0x1100 ≤ a ∧ a ≤ 0x1112 ∧ 0x1161 ≤ b ∧ b ≤ 0x1175 then
    some (0xac00 + ((a - 0x1100) * 21 + (b - 0x1161)) * 28)
  else if 0xac00 ≤ a ∧ a ≤ 0xd7a3 ∧ (a - 0xac00) % 28 = 0 ∧ 0x11a8 ≤ b ∧ b ≤ 0x11c2 then
    some (a + (b - 0x11a7))
  else none

/-- The code point that two code points compose into. -/
def composePair (a b : Nat) : Option Nat :=
  match hangulPair a b with
  | some n => some n
  | none =>
    match blockOf a compositions with
    | none => none
    | some block => block.rows.findSome? fun row =>
      match row with
      | [second, composite] => if second = b then some composite else none
      | _ => none

/-- Composes what follows a letter with it, passing over the marks held back in `skipped`. -/
def composeOnto (letter : Nat) (skipped : List Nat) (lastClass : Nat) : List Nat → List Nat
  | [] => letter :: skipped.reverse
  | n :: rest =>
    let k := combiningClass n
    match if skipped.isEmpty || lastClass < k then composePair letter n else none with
    | some composite => composeOnto composite skipped lastClass rest
    | none =>
      if k = 0 then letter :: (skipped.reverse ++ composeOnto n [] 0 rest)
      else composeOnto letter (n :: skipped) k rest

/-- Composes every letter with the marks on it. -/
def composeAll : List Nat → List Nat
  | [] => []
  | n :: rest => if combiningClass n = 0 then composeOnto n [] 0 rest else n :: composeAll rest

/-- The compatibility normal form of a text. -/
def normalize (text : List Char) : List Char :=
  if text.all (·.toNat < 128) then text
  else
    let codes := text.flatMap fun c => decompose c.toNat
    (composeAll (orderMarks [] codes)).map Char.ofNat

/-- An ASCII text is its own normal form. -/
theorem normalize_of_ascii {text : List Char} (h : ∀ c ∈ text, c.toNat < 128) :
    normalize text = text := by
  have : text.all (·.toNat < 128) = true := by simpa using h
  simp [normalize, this]

end CallTrace.Unicode
