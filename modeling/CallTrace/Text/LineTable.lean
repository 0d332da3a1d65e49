import CallTrace.Syntax.Position
import CallTrace.Text.Line
import CallTrace.Text.Utf8
import CallTrace.Unicode.Blank

/-!
# The line table of a text

A table knows where each physical line of a text begins.  Lines are numbered
from one; a line past the end is empty and begins where the text ends, so that
what is put before it comes last.

`lineStart_succ` says that a line begins where the line before it ends.
-/

namespace CallTrace.Text

/-- A physical line and the offset where it begins. -/
structure Line where
  start : Nat
  text : List Char
  deriving DecidableEq, Repr

/-- Pairs lines with the offsets where they begin. -/
def layLines (start : Nat) : List (List Char) → List Line
  | [] => []
  | line :: lines => ⟨start, line⟩ :: layLines (start + line.length) lines

/-- A text with its physical lines. -/
structure LineTable where
  text : List Char
  lines : List Line
  deriving DecidableEq, Repr

namespace LineTable

def ofText (text : List Char) : LineTable :=
  ⟨text, layLines 0 (splitLines text)⟩

/-- How many lines there are. -/
def count (t : LineTable) : Nat :=
  t.lines.length

/-- The text of a line with its ending. -/
def line (t : LineTable) (n : Nat) : List Char :=
  if n = 0 then [] else t.lines[n - 1]?.elim [] Line.text

/-- Where a line begins. -/
def lineStart (t : LineTable) (n : Nat) : Nat :=
  t.lines[n - 1]?.elim t.text.length Line.start

/-- The blanks that a line begins with, form feeds left out. -/
def indentOf (t : LineTable) (n : Nat) : List Char :=
  ((t.line n).takeWhile fun c => c = ' ' || c = '\t' || c = '\x0c').filter (· ≠ '\x0c')

/-- Where indentation may be put into a line: a form feed starts the indentation again, so it goes
after the form feeds that the line begins with. -/
def shiftPoint (t : LineTable) (n : Nat) : Nat :=
  t.lineStart n + ((t.line n).takeWhile (· = '\x0c')).length

/-- Whether a line shows nothing. -/
def isBlank (t : LineTable) (n : Nat) : Bool :=
  Unicode.allBlank (t.line n)

/-- The offset of a position.  Positions of syntax are never inside a character. -/
def offset (t : LineTable) (p : Syntax.Position) : Nat :=
  t.lineStart p.line + wholeCharsWithin (t.line p.line) p.column

/-- The text between two positions. -/
def between (t : LineTable) (start stop : Nat) : List Char :=
  (t.text.take stop).drop start

/-- Whether only blanks stand before a position on its line. -/
def atLineStart (t : LineTable) (p : Syntax.Position) : Bool :=
  Unicode.allBlank (t.between (t.lineStart p.line) (t.offset p))

end LineTable

theorem getElem?_layLines (start : Nat) (lines : List (List Char)) (n : Nat) :
    (layLines start lines)[n]? =
      lines[n]?.map fun line => ⟨start + (lines.take n).flatten.length, line⟩ := by
  induction lines generalizing start n with
  | nil => simp [layLines]
  | cons line lines ih =>
    cases n with
    | zero => simp [layLines]
    | succ n => simp [layLines, ih, Nat.add_assoc]

/-- A line begins after the text of the lines before it. -/
theorem LineTable.lineStart_ofText (text : List Char) (n : Nat) :
    (ofText text).lineStart n = ((splitLines text).take (n - 1)).flatten.length := by
  simp only [lineStart, ofText, getElem?_layLines]
  by_cases h : n - 1 < (splitLines text).length
  · simp [List.getElem?_eq_getElem h]
  · rw [List.getElem?_eq_none (by omega), List.take_of_length_le (by omega), flatten_splitLines]
    rfl

/-- Each line begins where the line before it ends. -/
theorem LineTable.lineStart_succ (text : List Char) {n : Nat} (h : 0 < n) :
    (ofText text).lineStart (n + 1) =
      (ofText text).lineStart n + ((ofText text).line n).length := by
  obtain ⟨m, rfl⟩ : ∃ m, n = m + 1 := ⟨n - 1, by omega⟩
  rw [lineStart_ofText, lineStart_ofText, line, if_neg (by omega), ofText]
  simp only [Nat.add_sub_cancel, getElem?_layLines, List.take_add_one, List.flatten_append,
    List.length_append]
  cases (splitLines text)[m]? <;> simp

end CallTrace.Text
