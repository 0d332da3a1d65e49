import CallTrace.Text.Utf8

/-!
# Positions

A position is a line, counted from one, and a column, counted in the bytes of
the line's UTF-8 form.  A span runs from the first character of a piece of
source to the place just after its last.
-/

namespace CallTrace.Syntax

/-- A place in a source text. -/
structure Position where
  line : Nat
  column : Nat
  deriving DecidableEq, Repr, Inhabited

/-- A piece of a source text. -/
structure Span where
  start : Position
  stop : Position
  deriving DecidableEq, Repr, Inhabited

namespace Position

/-- The first place of a text. -/
def origin : Position := ⟨1, 0⟩

/-- The place after a character that stands at this place. -/
def step (p : Position) (c : Char) : Position :=
  if c = '\n' then ⟨p.line + 1, 0⟩ else ⟨p.line, p.column + c.utf8Size⟩

/-- The place after a text that begins at this place. -/
def advance (p : Position) (text : List Char) : Position :=
  text.foldl step p

theorem advance_append (p : Position) (a b : List Char) :
    p.advance (a ++ b) = (p.advance a).advance b :=
  List.foldl_append

/-- A text without line ending moves the column alone. -/
theorem advance_of_not_mem {p : Position} {text : List Char} (h : '\n' ∉ text) :
    p.advance text = ⟨p.line, p.column + Text.bytes text⟩ := by
  induction text generalizing p with
  | nil => rfl
  | cons c rest ih =>
    have hc : c ≠ '\n' := fun e => h (e ▸ List.mem_cons_self)
    have hr : '\n' ∉ rest := fun m => h (List.mem_cons_of_mem _ m)
    show (p.step c).advance rest = _
    rw [ih hr, step, if_neg hc]
    simp [Text.bytes, Nat.add_assoc]

end Position

end CallTrace.Syntax
