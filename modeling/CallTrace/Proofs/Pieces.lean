import Mathlib
import CallTrace.Proofs.Columns
import CallTrace.Proofs.Gaps

/-!
# Lines as pieces of a text

The lines of a text are cut as the text is read: without their endings they are the pieces between the line
feeds of the text as it is read (`map_body_splitLines`), where a piece behind the last line feed counts
only if there is something in it.

With what a line may end with (`ending_of_mem`, `ending_ne_nil_of_mem`), and with what stands between the
offsets where two lines begin (`between_lineStart`), this is the whole line table (`splitLines_pieces`).
-/

namespace CallTrace.Text

open Syntax

/-! ## A line and its ending -/

/-- A line without its ending. -/
def lineBody (line : List Char) : List Char :=
  line.takeWhile fun c => !isLineEnd c

/-- What a line ends with, from its first character that ends a line on. -/
def lineEnding (line : List Char) : List Char :=
  line.dropWhile fun c => !isLineEnd c

/-- The endings that a line may have. -/
def endings : List (List Char) := [['\n'], ['\r'], ['\r', '\n']]

theorem isLineEnd_eq_true_iff {c : Char} : isLineEnd c = true ↔ c = '\n' ∨ c = '\r' := by
  simp [isLineEnd]

theorem lineBody_of_isLineEnd {c : Char} (h : isLineEnd c = true) (rest : List Char) :
    lineBody (c :: rest) = [] :=
  List.takeWhile_cons_of_neg (by simp [h])

theorem lineBody_cons {c : Char} (h : isLineEnd c = false) (rest : List Char) :
    lineBody (c :: rest) = c :: lineBody rest :=
  List.takeWhile_cons_of_pos (by simp [h])

theorem lineEnding_of_isLineEnd {c : Char} (h : isLineEnd c = true) (rest : List Char) :
    lineEnding (c :: rest) = c :: rest :=
  List.dropWhile_cons_of_neg (by simp [h])

theorem lineEnding_cons {c : Char} (h : isLineEnd c = false) (rest : List Char) :
    lineEnding (c :: rest) = lineEnding rest :=
  List.dropWhile_cons_of_pos (by simp [h])

/-- A line has one ending, or none. -/
theorem ending_of_mem (text : List Char) :
    ∀ line ∈ splitLines text, lineEnding line ∈ [] :: endings := by
  fun_induction splitLines text with
  | case1 => simp
  | case2 rest ih => exact List.forall_mem_cons.2 ⟨by decide, ih⟩
  | case3 c rest _ hc ih =>
    refine List.forall_mem_cons.2 ⟨?_, ih⟩
    rcases hc with rfl | rfl <;> decide
  | case4 c rest _ hc _ _ =>
    have hend : isLineEnd c = false := by simpa [isLineEnd] using hc
    rw [List.forall_mem_singleton, lineEnding_cons hend]
    exact List.mem_cons_self
  | case5 c rest _ hc line lines hlines ih =>
    have hend : isLineEnd c = false := by simpa [isLineEnd] using hc
    rw [hlines, List.forall_mem_cons] at ih
    exact List.forall_mem_cons.2 ⟨by rw [lineEnding_cons hend]; exact ih.1, ih.2⟩

/-- Only the last line may have no ending. -/
theorem ending_ne_nil_of_mem (text : List Char) :
    ∀ line ∈ (splitLines text).dropLast, lineEnding line ≠ [] := by
  -- A line in front of others is not the last one.
  have cons {line : List Char} {lines : List (List Char)} (hline : lineEnding line ≠ [])
      (hlines : ∀ l ∈ lines.dropLast, lineEnding l ≠ []) :
      ∀ l ∈ (line :: lines).dropLast, lineEnding l ≠ [] := by
    cases lines with
    | nil => simp
    | cons next lines => exact List.forall_mem_cons.2 ⟨hline, hlines⟩
  fun_induction splitLines text with
  | case1 => simp
  | case2 rest ih => exact cons (by decide) ih
  | case3 c rest _ hc ih =>
    refine cons ?_ ih
    rw [lineEnding_of_isLineEnd (isLineEnd_eq_true_iff.2 hc)]
    exact List.cons_ne_nil c []
  | case4 c rest _ _ _ _ => simp
  | case5 c rest _ hc line lines hlines ih =>
    have hend : isLineEnd c = false := by simpa [isLineEnd] using hc
    rw [hlines] at ih
    cases lines with
    | nil => simp
    | cons next lines =>
      obtain ⟨hfirst, hothers⟩ := List.forall_mem_cons.1 ih
      exact List.forall_mem_cons.2 ⟨by rwa [lineEnding_cons hend], hothers⟩

/-! ## Pieces -/

/-- The pieces of a text between its line feeds; nothing behind the last line feed is no piece. -/
def pieces (text : List Char) : List (List Char) :=
  if (text.splitOn '\n').getLast? = some [] then (text.splitOn '\n').dropLast else text.splitOn '\n'

theorem pieces_nil : pieces [] = [] := by
  rw [pieces, List.splitOn_nil]
  rfl

theorem pieces_newline (text : List Char) : pieces ('\n' :: text) = [] :: pieces text := by
  have hsplit : ('\n' :: text).splitOn '\n' = [] :: text.splitOn '\n' := by
    simp [List.splitOn_eq_splitOnP, List.splitOnP_cons_eq_if_modifyHead]
  obtain ⟨piece, others, hpieces⟩ := List.exists_cons_of_ne_nil (List.splitOn_ne_nil '\n' text)
  rw [pieces, pieces, hsplit, hpieces, List.getLast?_cons_cons]
  split <;> rfl

/-- A character in front belongs to the first piece. -/
theorem pieces_cons {c : Char} (hc : c ≠ '\n') (text : List Char) :
    pieces (c :: text) = match pieces text with
      | [] => [[c]]
      | piece :: others => (c :: piece) :: others := by
  have hsplit : (c :: text).splitOn '\n' = (text.splitOn '\n').modifyHead (c :: ·) := by
    simp [List.splitOn_eq_splitOnP, List.splitOnP_cons_eq_if_modifyHead, hc]
  obtain ⟨piece, others, hpieces⟩ := List.exists_cons_of_ne_nil (List.splitOn_ne_nil '\n' text)
  rw [pieces, pieces, hsplit, hpieces, List.modifyHead_cons]
  cases others with
  | nil => cases piece <;> simp
  | cons next others =>
    rw [List.getLast?_cons_cons, List.getLast?_cons_cons]
    split <;> simp

/-- Lines without their endings are the pieces of the text as it is read. -/
theorem map_body_splitLines (text : List Char) :
    (splitLines text).map lineBody = pieces (normalizeNewlines text) := by
  fun_induction splitLines text with
  | case1 => exact pieces_nil.symm
  | case2 rest ih =>
    rw [normalizeNewlines, pieces_newline, List.map_cons, ih, lineBody_of_isLineEnd rfl]
  | case3 c rest hpair hc ih =>
    have hbreak : (if c = '\r' then '\n' else c) = '\n' := by
      rcases hc with rfl | rfl <;> rfl
    rw [normalizeNewlines.eq_3 _ _ hpair, hbreak, pieces_newline, List.map_cons, ih,
      lineBody_of_isLineEnd (isLineEnd_eq_true_iff.2 hc)]
  | case4 c rest hpair hc hnil ih =>
    obtain ⟨hn, hr⟩ := not_or.1 hc
    have hend : isLineEnd c = false := by simp [isLineEnd, hn, hr]
    rw [hnil] at ih
    rw [normalizeNewlines.eq_3 _ _ hpair, if_neg hr, pieces_cons hn, ← ih, List.map_singleton,
      lineBody_cons hend]
    rfl
  | case5 c rest hpair hc line lines hlines ih =>
    obtain ⟨hn, hr⟩ := not_or.1 hc
    have hend : isLineEnd c = false := by simp [isLineEnd, hn, hr]
    rw [hlines] at ih
    rw [normalizeNewlines.eq_3 _ _ hpair, if_neg hr, pieces_cons hn, ← ih, List.map_cons,
      lineBody_cons hend, List.map_cons]

/-! ## The line table -/

/-- What stands between the offsets where a line and the next one begin is the line. -/
theorem between_lineStart (text : List Char) {n : Nat} (hn : 0 < n) :
    (LineTable.ofText text).between ((LineTable.ofText text).lineStart n)
      ((LineTable.ofText text).lineStart (n + 1)) = (LineTable.ofText text).line n := by
  have hnext := LineTable.lineStart_succ text hn
  obtain ⟨rest, hrest⟩ := line_isPrefix text hn
  rw [LineTable.between, hnext, List.drop_take, Nat.add_sub_cancel_left]
  show (text.drop _).take _ = _
  rw [← hrest, List.take_left]

/-- Lines laid end to end are the text.  None is empty, each has at most one ending, at its end, and only the
last may have none.  Without endings they are the pieces of the text as it is read; and a line stands
between the offset where it begins and the one where the next begins. -/
theorem splitLines_pieces (text : List Char) :
    (splitLines text).flatten = text ∧
    (∀ line ∈ splitLines text, line ≠ [] ∧ (∀ c ∈ lineBody line, c ≠ '\n' ∧ c ≠ '\r') ∧
      ∃ ending ∈ [] :: endings, line = lineBody line ++ ending) ∧
    (∀ line ∈ (splitLines text).dropLast, ∃ ending ∈ endings, line = lineBody line ++ ending) ∧
    (splitLines text).map lineBody = pieces (normalizeNewlines text) ∧
    (LineTable.ofText text).count = (splitLines text).length ∧
    ∀ n, 1 ≤ n → n ≤ (LineTable.ofText text).count →
      (splitLines text)[n - 1]? = some ((LineTable.ofText text).line n) ∧
      (LineTable.ofText text).between ((LineTable.ofText text).lineStart n)
        ((LineTable.ofText text).lineStart (n + 1)) = (LineTable.ofText text).line n := by
  have hsplit (line : List Char) : line = lineBody line ++ lineEnding line :=
    List.takeWhile_append_dropWhile.symm
  refine ⟨flatten_splitLines text, fun line hline => ?_, fun line hline => ?_,
    map_body_splitLines text, count_ofText text, fun n h₁ h₂ => ⟨?_, between_lineStart text h₁⟩⟩
  · refine ⟨splitLines_ne_nil text line hline, fun c hc => ?_, _, ending_of_mem text line hline, hsplit line⟩
    have hend : isLineEnd c = false := by simpa using List.mem_takeWhile_imp hc
    simpa [isLineEnd] using hend
  · have hmem := ending_of_mem text line (List.mem_of_mem_dropLast hline)
    rw [List.mem_cons] at hmem
    exact ⟨_, hmem.resolve_left (ending_ne_nil_of_mem text line hline), hsplit line⟩
  · obtain ⟨m, rfl⟩ : ∃ m, n = m + 1 := ⟨n - 1, by omega⟩
    rw [count_ofText] at h₂
    rw [LineTable.line, if_neg (Nat.succ_ne_zero m), Nat.add_sub_cancel, lines_ofText,
      List.getElem?_eq_getElem (by omega)]
    rfl

/-- A text with every ending, and without one on its last line. -/
example : splitLines ("a\r\nb\rc\n\n\rd".toList) =
    ["a\r\n".toList, "b\r".toList, "c\n".toList, "\n".toList, "\r".toList, "d".toList] := by
  decide

end CallTrace.Text
