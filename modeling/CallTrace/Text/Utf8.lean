/-!
# Columns in bytes

Columns count the bytes of a line's UTF-8 form.  `bytes` is the length of that
form, and `charsWithin` goes back: it says how many characters the first so
many bytes hold, and refuses a column that falls inside a character.
-/

namespace CallTrace.Text

/-- How many bytes a text takes in UTF-8. -/
def bytes : List Char → Nat
  | [] => 0
  | c :: rest => c.utf8Size + bytes rest

/-- How many characters the first `column` bytes hold; columns past the end count all of them. -/
def charsWithin : List Char → Nat → Option Nat
  | _, 0 => some 0
  | [], _ + 1 => some 0
  | c :: rest, column =>
    if c.utf8Size ≤ column then (charsWithin rest (column - c.utf8Size)).map (· + 1) else none

/-- How many whole characters the first `column` bytes hold. -/
def wholeCharsWithin : List Char → Nat → Nat
  | [], _ => 0
  | c :: rest, column =>
    if c.utf8Size ≤ column then wholeCharsWithin rest (column - c.utf8Size) + 1 else 0

/-- Where a column is no character's middle, the two counts agree. -/
theorem wholeCharsWithin_of_charsWithin {text : List Char} {column n : Nat}
    (h : charsWithin text column = some n) : wholeCharsWithin text column = n := by
  induction text generalizing column n with
  | nil => cases column <;> simp_all [charsWithin, wholeCharsWithin]
  | cons c rest ih =>
    cases column with
    | zero =>
      have hc : ¬ c.utf8Size ≤ 0 := Nat.not_le.2 (Char.utf8Size_pos c)
      rw [charsWithin] at h
      rw [wholeCharsWithin, if_neg hc, Option.some.inj h]
    | succ k =>
      unfold charsWithin at h
      split at h
      · rename_i hk
        obtain ⟨m, hm, rfl⟩ := Option.map_eq_some_iff.1 h
        simp [wholeCharsWithin, hk, ih hm]
      · simp at h

end CallTrace.Text
