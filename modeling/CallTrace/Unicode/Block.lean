import CallTrace.Text.Digits

/-!
# Tables of code points

A table maps code points to short lists of code points.  It is kept as blocks
of consecutive code points in ascending order; a block's entries are written in
hexadecimal, the items of an entry joined by points.
-/

namespace CallTrace.Unicode

/-- The entries of the code points from `first` to `last`, some on a line, separated by single
spaces. -/
structure Block where
  first : Nat
  last : Nat
  entries : List String

/-- The parts of a text between the occurrences of a separator. -/
def partsAt (separator : Char) : List Char → List (List Char)
  | [] => [[]]
  | c :: rest =>
    match partsAt separator rest with
    | [] => [[c]]
    | part :: parts => if c = separator then [] :: part :: parts else (c :: part) :: parts

/-- The entries of a block, in order. -/
def Block.rows (b : Block) : List (List Nat) :=
  b.entries.flatMap fun line =>
    (partsAt ' ' line.toList).map fun row => (partsAt '.' row).map (Text.ofDigits 16)

/-- The block that holds a code point; the search stops at the first block above it. -/
def blockOf (n : Nat) : List Block → Option Block
  | [] => none
  | b :: rest => if n < b.first then none else if n ≤ b.last then some b else blockOf n rest

/-- A block that is found holds the code point. -/
theorem blockOf_bounds {n : Nat} {table : List Block} {b : Block} (h : blockOf n table = some b) :
    b.first ≤ n ∧ n ≤ b.last := by
  induction table with
  | nil => simp [blockOf] at h
  | cons a rest ih =>
    unfold blockOf at h
    split at h
    · simp at h
    · split at h
      · cases h; omega
      · exact ih h

end CallTrace.Unicode
