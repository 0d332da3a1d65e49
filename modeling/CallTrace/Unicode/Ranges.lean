/-!
# Sets of code points

A property of characters is written as the ascending ends of its ranges,
`[first₁, last₁, first₂, last₂, …]`, ASCII left out.
-/

namespace CallTrace.Unicode

/-- Whether a code point lies in one of the ranges; the search stops at the first range above it. -/
def inRanges : List Nat → Nat → Bool
  | first :: last :: rest, n => if n < first then false else n ≤ last || inRanges rest n
  | _, _ => false

/-- The code points of the first range are in the set. -/
theorem inRanges_first {first last n : Nat} (rest : List Nat) (h : first ≤ n) (k : n ≤ last) :
    inRanges (first :: last :: rest) n = true := by
  have : ¬ n < first := by omega
  simp [inRanges, this, k]

end CallTrace.Unicode
