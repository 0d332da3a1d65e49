/-!
# Physical lines

A text is cut into the lines that a tokenizer counts: a line ends at `\n`, at
`\r\n` or at a lone `\r`, and the ending belongs to its line.  Form feeds and
the other separators of Unicode end no line.

`flatten_splitLines` says that nothing is lost by the cut, and
`splitLines_ne_nil` that no line is empty.
-/

namespace CallTrace.Text

/-- The lines of a text, each with its ending; only the last may lack one. -/
def splitLines : List Char → List (List Char)
  | [] => []
  | '\r' :: '\n' :: rest => ['\r', '\n'] :: splitLines rest
  | c :: rest =>
    if c = '\n' ∨ c = '\r' then [c] :: splitLines rest
    else match splitLines rest with
      | [] => [[c]]
      | line :: lines => (c :: line) :: lines

/-- Writes every line ending as `\n`. -/
def normalizeNewlines : List Char → List Char
  | [] => []
  | '\r' :: '\n' :: rest => '\n' :: normalizeNewlines rest
  | c :: rest => (if c = '\r' then '\n' else c) :: normalizeNewlines rest

/-- The text with a line ending at its end, unless it is empty or has one. -/
def terminated (text : List Char) : List Char :=
  match text.getLast? with
  | none => text
  | some c => if c = '\n' ∨ c = '\r' then text else text ++ ['\n']

/-- The lines of a text, laid end to end, are the text. -/
theorem flatten_splitLines (text : List Char) : (splitLines text).flatten = text := by
  fun_induction splitLines text with
  | case1 => rfl
  | case2 rest ih => simp [ih]
  | case3 c rest _ _ ih => simp [ih]
  | case4 c rest _ _ h ih => simp_all
  | case5 c rest _ _ line lines h ih => simp_all

/-- No line is empty. -/
theorem splitLines_ne_nil (text : List Char) : ∀ line ∈ splitLines text, line ≠ [] := by
  fun_induction splitLines text with
  | case1 => simp
  | case2 rest ih => simpa using ih
  | case3 c rest _ _ ih => simpa using ih
  | case4 c rest _ _ h ih => simp
  | case5 c rest _ _ line lines h ih =>
    rw [h] at ih
    intro l hl
    rcases List.mem_cons.1 hl with rfl | hl
    · simp
    · exact ih l (List.mem_cons_of_mem _ hl)

end CallTrace.Text
