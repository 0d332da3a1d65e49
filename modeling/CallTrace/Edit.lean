import CallTrace.Text.Digits
import CallTrace.Text.Slice

/-!
# Edits

An edit puts a text in place of a range of characters; a range without
characters is an insertion.  Edits are made in one pass over the text that they
all refer to, from left to right; at one offset their orders decide, and equal
orders keep the order in which they were given.  Two edits must not overlap.

`insert_perm` and `sort_perm` say that sorting loses no edit.
-/

namespace CallTrace

/-- A text to be put in place of a range of characters. -/
structure Edit where
  start : Int
  stop : Int
  text : List Char
  order : List Int
  deriving DecidableEq, Repr

/-- An edit begins before the end of the one before it. -/
structure Overlap where
  offset : Int
  deriving DecidableEq, Repr

/-- What an overlap is reported as. -/
def Overlap.message (o : Overlap) : List Char :=
  "overlapping edit at offset ".toList ++ Text.decimalInt o.offset

namespace Edit

/-- The order of an edit that is given none. -/
def usualOrder : List Int := [1, 0]

/-- Compares orders item by item; an order that goes on is greater. -/
def orderLe : List Int → List Int → Bool
  | [], _ => true
  | _ :: _, [] => false
  | a :: as, b :: bs => if a < b then true else if b < a then false else orderLe as bs

/-- Whether an edit may stand before another. -/
def le (a b : Edit) : Bool :=
  a.start < b.start || (a.start = b.start && orderLe a.order b.order)

/-- Puts an edit before the first that it may stand before. -/
def insert (e : Edit) : List Edit → List Edit
  | [] => [e]
  | f :: rest => if e.le f then e :: f :: rest else f :: insert e rest

/-- The edits in the order in which they are made. -/
def sort : List Edit → List Edit
  | [] => []
  | e :: rest => insert e (sort rest)

/-- Makes sorted edits on the part of a text that begins at `position`. -/
def applyFrom (text : List Char) (position : Int) : List Edit → Except Overlap (List Char)
  | [] => .ok (Text.sliceFrom text position)
  | e :: rest =>
    if e.start < position then .error ⟨e.start⟩
    else match applyFrom text e.stop rest with
      | .error overlap => .error overlap
      | .ok after => .ok (Text.slice text position e.start ++ e.text ++ after)

/-- Makes edits on a text. -/
def apply (text : List Char) (edits : List Edit) : Except Overlap (List Char) :=
  applyFrom text 0 (sort edits)

theorem insert_perm (e : Edit) (edits : List Edit) : (insert e edits).Perm (e :: edits) := by
  induction edits with
  | nil => rfl
  | cons f rest ih =>
    rw [insert]
    split
    · rfl
    · exact (ih.cons f).trans (.swap e f rest)

theorem sort_perm (edits : List Edit) : (sort edits).Perm edits := by
  induction edits with
  | nil => rfl
  | cons e rest ih => exact (insert_perm e (sort rest)).trans (ih.cons e)

end Edit

end CallTrace
