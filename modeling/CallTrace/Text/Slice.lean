/-!
# Slices with signed ends

A slice names its ends by whole numbers: a negative end counts from the end of
the list, and an end beyond the list means the list's end.
-/

namespace CallTrace.Text

/-- The place in a list of the given length that a signed number names. -/
def place (length : Nat) (i : Int) : Nat :=
  min length (if i < 0 then (i + length).toNat else i.toNat)

/-- The items from the place of `start` up to the place of `stop`. -/
def slice (items : List α) (start stop : Int) : List α :=
  (items.take (place items.length stop)).drop (place items.length start)

/-- The items from the place of `start` on. -/
def sliceFrom (items : List α) (start : Int) : List α :=
  items.drop (place items.length start)

theorem place_natCast (length n : Nat) : place length (n : Int) = min length n := by
  unfold place
  rw [if_neg (by omega)]
  rfl

end CallTrace.Text
