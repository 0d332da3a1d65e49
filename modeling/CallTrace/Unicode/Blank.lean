/-!
# Blank characters

The characters that count as white space when a text is stripped or a word is
sought: the ASCII blanks with the four information separators, and the spaces
of Unicode.
-/

namespace CallTrace.Unicode

/-- White space, in the wide sense. -/
def isBlank (c : Char) : Bool :=
  let n := c.toNat
  (9 ≤ n && n ≤ 13) || (28 ≤ n && n ≤ 32) || n = 0x85 || n = 0xa0 || n = 0x1680 ||
    (0x2000 ≤ n && n ≤ 0x200a) || n = 0x2028 || n = 0x2029 || n = 0x202f || n = 0x205f || n = 0x3000

/-- Whether a text shows nothing. -/
def allBlank (text : List Char) : Bool :=
  text.all isBlank

/-- Every character that core takes for white space is blank. -/
theorem isBlank_of_isWhitespace {c : Char} (h : c.isWhitespace = true) : isBlank c = true := by
  simp only [Char.isWhitespace, Bool.or_eq_true, decide_eq_true_eq] at h
  rcases h with ((h | h) | h) | h <;> subst h <;> decide

end CallTrace.Unicode
