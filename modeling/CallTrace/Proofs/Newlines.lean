import Mathlib
import CallTrace.Proofs.Lines

/-!
# Line endings

A text and the text as it is read have the same lines but for their endings.  `offsetOf text` leads
from the offsets of the one to those of the other: what stands between two such offsets is read as
what stands between the places (`normalizeNewlines_slice`), no line ending is cut there
(`normalizeNewlines_take`), and lines begin where lines begin (`offsetOf_line`).

`normalizeNewlines_append` says that a text is read piece by piece, if no line ending is cut.
-/

namespace CallTrace.Text

open Syntax

/-- A line ending is not cut where the first text ends and the second begins. -/
def IsSeam (front back : List Char) : Prop :=
  front.getLast? = some '\r' → back.head? ≠ some '\n'

theorem IsSeam.take {front back : List Char} (h : IsSeam front back) (n : Nat) :
    IsSeam front (back.take n) := by
  intro hlast hhead
  cases n with
  | zero => cases hhead
  | succ n =>
    cases back with
    | nil => cases hhead
    | cons c rest => exact h hlast hhead

theorem IsSeam.append {front middle back : List Char} (h₁ : IsSeam front (middle ++ back))
    (h₂ : IsSeam middle back) : IsSeam (front ++ middle) back := by
  cases middle with
  | nil => rwa [List.append_nil]
  | cons c middle =>
    intro hlast
    rw [List.getLast?_append_of_ne_nil _ (List.cons_ne_nil c middle)] at hlast
    exact h₂ hlast

theorem isSeam_of_not_mem {front back : List Char} (h : '\r' ∉ front) : IsSeam front back :=
  fun hlast _ => h (List.mem_of_getLast? hlast)

/-- A text is read piece by piece. -/
theorem normalizeNewlines_append {front back : List Char} (h : IsSeam front back) :
    normalizeNewlines (front ++ back) = normalizeNewlines front ++ normalizeNewlines back := by
  have tail {c : Char} {rest : List Char} (h : IsSeam (c :: rest) back) : IsSeam rest back := by
    intro hlast
    cases rest with
    | nil => cases hlast
    | cons d rest => exact h (by rwa [List.getLast?_cons_cons])
  fun_induction normalizeNewlines front with
  | case1 => rfl
  | case2 rest ih =>
    rw [List.cons_append, List.cons_append, normalizeNewlines, ih (tail (tail h)), List.cons_append]
  | case3 c rest hne ih =>
    have hpair : ∀ more, c = '\r' → rest ++ back = '\n' :: more → False := by
      rintro more rfl heq
      cases rest with
      | nil => exact h rfl (by rw [← List.nil_append back, heq]; rfl)
      | cons d rest => exact hne rest rfl (by rw [(List.cons.inj heq).1])
    rw [List.cons_append, normalizeNewlines.eq_3 _ _ hpair, ih (tail h), List.cons_append]

theorem normalizeNewlines_of_not_mem {text : List Char} (h : '\r' ∉ text) :
    normalizeNewlines text = text := by
  fun_induction normalizeNewlines text with
  | case1 => rfl
  | case2 rest ih => exact absurd List.mem_cons_self h
  | case3 c rest hne ih =>
    have hc : c ≠ '\r' := fun e => h (e ▸ List.mem_cons_self)
    rw [if_neg hc, ih fun hr => h (List.mem_cons_of_mem c hr)]

/-- A text that is read as a text without line endings is read as it is. -/
theorem eq_normalizeNewlines {text : List Char} (h : '\n' ∉ normalizeNewlines text) :
    text = normalizeNewlines text := by
  fun_induction normalizeNewlines text with
  | case1 => rfl
  | case2 rest ih => exact absurd List.mem_cons_self h
  | case3 c rest hne ih =>
    rw [List.mem_cons, not_or] at h
    rw [← ih h.2, if_neg]
    rintro rfl
    exact h.1 rfl

theorem not_mem_normalizeNewlines (text : List Char) : '\r' ∉ normalizeNewlines text := by
  fun_induction normalizeNewlines text with
  | case1 => exact List.not_mem_nil
  | case2 rest ih => simpa using ih
  | case3 c rest hne ih =>
    rw [List.mem_cons, not_or]
    refine ⟨?_, ih⟩
    split
    · decide
    · rename_i hc
      exact fun e => hc e.symm

theorem normalizeNewlines_normalizeNewlines (text : List Char) :
    normalizeNewlines (normalizeNewlines text) = normalizeNewlines text :=
  normalizeNewlines_of_not_mem (not_mem_normalizeNewlines text)

/-- A text shows what it is read as. -/
theorem allBlank_normalizeNewlines (text : List Char) :
    Unicode.allBlank (normalizeNewlines text) = Unicode.allBlank text := by
  have hnewline : Unicode.isBlank '\n' = true := by decide
  have hreturn : Unicode.isBlank '\r' = true := by decide
  fun_induction normalizeNewlines text with
  | case1 => rfl
  | case2 rest ih =>
    rw [Unicode.allBlank, Unicode.allBlank] at *
    rw [List.all_cons, List.all_cons, List.all_cons, ih, hnewline, hreturn]
    rfl
  | case3 c rest hne ih =>
    rw [Unicode.allBlank, Unicode.allBlank] at *
    rw [List.all_cons, List.all_cons, ih]
    by_cases hc : c = '\r'
    · rw [if_pos hc, hc, hnewline, hreturn]
    · rw [if_neg hc]

/-- Characters other than line endings are the same in a text and in the text as it is read. -/
theorem mem_normalizeNewlines_iff {c : Char} (hn : c ≠ '\n') (hr : c ≠ '\r') {text : List Char} :
    c ∈ normalizeNewlines text ↔ c ∈ text := by
  fun_induction normalizeNewlines text with
  | case1 => rfl
  | case2 rest ih => simp [hn, hr, ih]
  | case3 d rest hne ih =>
    rw [List.mem_cons, List.mem_cons, ih]
    split
    · rename_i hd
      simp [hn, hr, hd]
    · rfl

/-- What a text begins with, up to the first line ending at most, is the same in the text as it is
read. -/
theorem takeWhile_normalizeNewlines {p : Char → Bool} (hn : p '\n' = false) (hr : p '\r' = false)
    (text : List Char) : (normalizeNewlines text).takeWhile p = text.takeWhile p := by
  fun_induction normalizeNewlines text with
  | case1 => rfl
  | case2 rest ih => simp [hn, hr]
  | case3 c rest hne ih =>
    by_cases hc : c = '\r'
    · simp [hc, hn, hr]
    · rw [if_neg hc, List.takeWhile_cons, List.takeWhile_cons, ih]

theorem isPrefixOf_normalizeNewlines {word : List Char} (hn : '\n' ∉ word) (hr : '\r' ∉ word)
    (text : List Char) : word.isPrefixOf (normalizeNewlines text) = word.isPrefixOf text := by
  induction word generalizing text with
  | nil => rfl
  | cons c word ih =>
    simp only [List.mem_cons, not_or] at hn hr
    cases text with
    | nil => rfl
    | cons d rest =>
      have hne : (c == '\n') = false := beq_eq_false_iff_ne.2 (Ne.symm hn.1)
      have hne' : (c == '\r') = false := beq_eq_false_iff_ne.2 (Ne.symm hr.1)
      rw [normalizeNewlines.eq_def]
      split
      · cases ‹_›
      · rename_i heq
        obtain ⟨rfl, -⟩ := List.cons.inj heq
        simp only [List.isPrefixOf, hne, hne', Bool.false_and]
      · rename_i heq
        obtain ⟨rfl, rfl⟩ := List.cons.inj heq
        by_cases hd : d = '\r'
        · rw [if_pos hd, hd]
          simp only [List.isPrefixOf, hne, hne', Bool.false_and]
        · rw [if_neg hd, List.isPrefixOf, List.isPrefixOf, ih hn.2 hr.2]

theorem dropWhile_normalizeNewlines (text : List Char) :
    (normalizeNewlines text).dropWhile Unicode.isBlank =
      normalizeNewlines (text.dropWhile Unicode.isBlank) := by
  have hnewline : Unicode.isBlank '\n' = true := by decide
  have hreturn : Unicode.isBlank '\r' = true := by decide
  fun_induction normalizeNewlines text with
  | case1 => rfl
  | case2 rest ih =>
    rw [List.dropWhile_cons_of_pos hnewline, List.dropWhile_cons_of_pos hreturn,
      List.dropWhile_cons_of_pos hnewline, ih]
  | case3 c rest hne ih =>
    by_cases hc : c = '\r'
    · subst hc
      rw [if_pos rfl, List.dropWhile_cons_of_pos hnewline, List.dropWhile_cons_of_pos hreturn, ih]
    · rw [if_neg hc]
      by_cases hb : Unicode.isBlank c = true
      · rw [List.dropWhile_cons_of_pos hb, List.dropWhile_cons_of_pos hb, ih]
      · rw [List.dropWhile_cons_of_neg hb, List.dropWhile_cons_of_neg hb,
          normalizeNewlines.eq_3 _ _ hne, if_neg hc]

theorem head?_normalizeNewlines (text : List Char) :
    (normalizeNewlines text).head? = text.head?.map fun c => if c = '\r' then '\n' else c := by
  fun_cases normalizeNewlines text with
  | case1 => rfl
  | case2 rest => rfl
  | case3 c rest hne => rfl

/-- What is asked of the first character, if it does not tell line endings apart. -/
theorem any_head?_normalizeNewlines {p : Char → Bool} (hp : p '\n' = p '\r') (text : List Char) :
    (normalizeNewlines text).head?.any p = text.head?.any p := by
  rw [head?_normalizeNewlines]
  cases text.head? with
  | none => rfl
  | some c =>
    by_cases hc : c = '\r'
    · simp [hc, hp]
    · simp [hc]

theorem getLast?_normalizeNewlines (text : List Char) : (normalizeNewlines text).getLast? =
    text.getLast?.map fun c => if c = '\r' then '\n' else c := by
  fun_induction normalizeNewlines text with
  | case1 => rfl
  | case2 rest ih =>
    simp only [List.getLast?_cons, ih]
    cases rest.getLast? <;> simp
  | case3 c rest hne ih =>
    simp only [List.getLast?_cons, ih]
    cases rest.getLast? <;> simp

/-- A text as it is read gets the ending that the text gets. -/
theorem terminated_normalizeNewlines (text : List Char) :
    terminated (normalizeNewlines text) = normalizeNewlines (terminated text) := by
  rw [terminated, terminated, getLast?_normalizeNewlines]
  cases hlast : text.getLast? with
  | none => rfl
  | some c =>
    simp only [Option.map_some]
    by_cases hr : c = '\r'
    · simp [hr]
    by_cases hn : c = '\n'
    · simp [hn]
    · have hseam : IsSeam text ['\n'] := by
        rw [IsSeam, hlast]
        exact fun h => absurd (Option.some.inj h) hr
      simp only [hr, hn, if_false, or_self]
      rw [normalizeNewlines_append hseam]
      rfl

/-! ## Lines -/

theorem head?_flatten {lines : List (List Char)} (h : ∀ line ∈ lines, line ≠ []) :
    lines.flatten.head? = lines.head?.bind List.head? := by
  cases lines with
  | nil => rfl
  | cons line lines =>
    cases line with
    | nil => exact absurd rfl (h [] List.mem_cons_self)
    | cons c rest => rfl

/-- No line ending is cut between two lines. -/
theorem isChain_splitLines (text : List Char) : (splitLines text).IsChain IsSeam := by
  fun_induction splitLines text with
  | case1 => exact .nil
  | case2 rest ih =>
    refine ih.cons fun line _ hlast => ?_
    cases hlast
  | case3 c rest hne hc ih =>
    refine ih.cons fun line hline hlast hhead => ?_
    obtain rfl : c = '\r' := Option.some.inj hlast
    have hrest : rest.head? = some '\n' := by
      rw [← flatten_splitLines rest, head?_flatten (splitLines_ne_nil rest), hline]
      exact hhead
    cases rest with
    | nil => cases hrest
    | cons d rest => exact hne rest rfl (by rw [Option.some.inj hrest])
  | case4 c rest hne hc hnil ih => exact .singleton _
  | case5 c rest hne hc line lines hlines ih =>
    have hline : line ≠ [] := splitLines_ne_nil rest line (hlines ▸ List.mem_cons_self)
    rw [hlines, List.isChain_cons] at ih
    refine ih.2.cons fun next hnext hlast => ih.1 next hnext ?_
    cases line with
    | nil => exact absurd rfl hline
    | cons d line => rwa [List.getLast?_cons_cons] at hlast

theorem splitLines_plain {rows : List Row} (hs : ∀ r ∈ rows, r.IsSound) :
    splitLines (rows.map Row.plain).flatten = rows.map Row.plain := by
  have row {body : List Char} (hb : ∀ c ∈ body, c ≠ '\n' ∧ c ≠ '\r') :
      splitLines (body ++ ['\n']) = [body ++ ['\n']] := by
    induction body with
    | nil => rfl
    | cons c body ih =>
      have hc := hb c List.mem_cons_self
      rw [List.cons_append, splitLines.eq_3 _ _ fun _ h _ => hc.2 h, if_neg (not_or.2 hc),
        ih fun d hd => hb d (List.mem_cons_of_mem c hd)]
  induction rows with
  | nil => rfl
  | cons r rows ih =>
    rw [List.map_cons, List.flatten_cons, splitLines_append (Or.inr (by simp [Row.plain])),
      ih fun q hq => hs q (List.mem_cons_of_mem r hq), Row.plain, row (hs r List.mem_cons_self).1]
    rfl

theorem normalizeNewlines_whole {r : Row} (h : r.IsSound) : normalizeNewlines r.whole = r.plain := by
  have hr : '\r' ∉ r.body := fun hm => (h.1 _ hm).2 rfl
  rw [Row.whole, normalizeNewlines_append (isSeam_of_not_mem hr), normalizeNewlines_of_not_mem hr,
    Row.plain]
  rcases h.2 with he | he | he <;> rw [he] <;> rfl

/-- Lines up to a place are read as the lines as they are read up to it, and no ending is cut there. -/
theorem normalizeNewlines_take_rows {rows : List Row} (hs : ∀ r ∈ rows, r.IsSound)
    (hc : (rows.map Row.whole).IsChain IsSeam) : ∀ k,
    normalizeNewlines ((rows.map Row.whole).flatten.take (rowOffset rows k)) =
        (rows.map Row.plain).flatten.take k ∧
      IsSeam ((rows.map Row.whole).flatten.take (rowOffset rows k))
        ((rows.map Row.whole).flatten.drop (rowOffset rows k)) := by
  induction rows with
  | nil => intro k; simp [rowOffset, IsSeam, normalizeNewlines]
  | cons r rows ih =>
    intro k
    have hr := hs r List.mem_cons_self
    have hs' : ∀ q ∈ rows, q.IsSound := fun q hq => hs q (List.mem_cons_of_mem r hq)
    rw [List.map_cons, List.isChain_cons] at hc
    have hbody : '\r' ∉ r.body.take k := fun hm => (hr.1 _ (List.mem_of_mem_take hm)).2 rfl
    have hw := body_lt_length_whole hr
    rcases Nat.lt_or_ge r.body.length k with hk | hk
    · have hseam : IsSeam r.whole (rows.map Row.whole).flatten := by
        intro hlast hhead
        have hne : ∀ line ∈ rows.map Row.whole, line ≠ [] := by
          intro line hline
          obtain ⟨q, hq, rfl⟩ := List.mem_map.1 hline
          have := body_lt_length_whole (hs' q hq)
          exact List.ne_nil_of_length_pos (by omega)
        rw [head?_flatten hne, Option.bind_eq_some_iff] at hhead
        obtain ⟨line, hline, hhead⟩ := hhead
        exact hc.1 line hline hlast hhead
      obtain ⟨hread, hcut⟩ := ih hs' hc.2 (k - (r.body.length + 1))
      have hplain : (r.plain ++ (rows.map Row.plain).flatten).take k =
          r.plain ++ (rows.map Row.plain).flatten.take (k - (r.body.length + 1)) := by
        rw [List.take_append, List.take_of_length_le (by rw [length_plain]; omega), length_plain]
      rw [rowOffset_cons_of_lt hk, List.map_cons, List.flatten_cons, List.take_length_add_append,
        List.drop_length_add_append, normalizeNewlines_append (hseam.take _), hread,
        normalizeNewlines_whole hr, List.map_cons, List.flatten_cons, hplain]
      exact ⟨rfl, .append (by rwa [List.take_append_drop]) hcut⟩
    · rw [rowOffset_cons_of_le hk, List.map_cons, List.flatten_cons, Row.whole, List.append_assoc,
        List.take_append_of_le_length hk, normalizeNewlines_of_not_mem hbody, List.map_cons,
        List.flatten_cons, Row.plain, List.append_assoc, List.take_append_of_le_length hk]
      exact ⟨rfl, isSeam_of_not_mem hbody⟩

/-- Within a line, offsets go with places. -/
theorem rowOffset_line {rows : List Row} : ∀ {m j : Nat}, m ≤ rows.length →
    j ≤ (bodyAt rows m).length → rowOffset rows (((rows.map Row.plain).take m).flatten.length + j) =
      ((rows.map Row.whole).take m).flatten.length + j := by
  induction rows with
  | nil =>
    intro m j hm hj
    obtain rfl : j = 0 := Nat.le_zero.1 hj
    simp [rowOffset_zero]
  | cons r rows ih =>
    intro m j hm hj
    cases m with
    | zero => simpa using rowOffset_cons_of_le (show j ≤ r.body.length from hj)
    | succ m =>
      have hrest := ih (m := m) (j := j) (Nat.le_of_succ_le_succ hm) (by simpa [bodyAt] using hj)
      rw [List.map_cons, List.map_cons, List.take_succ_cons, List.take_succ_cons, List.flatten_cons,
        List.flatten_cons, List.length_append, List.length_append, length_plain,
        rowOffset_cons_of_lt (by omega), Nat.add_assoc (r.body.length + 1), Nat.add_sub_cancel_left,
        hrest, Nat.add_assoc]

/-! ## Places -/

section Places

variable {text : List Char} (h : IsTerminated text)

include h

theorem exists_rows_isChain : ∃ rows : List Row, (∀ r ∈ rows, r.IsSound) ∧
    (rows.map Row.whole).IsChain IsSeam ∧ splitLines text = rows.map Row.whole ∧
      normalizeNewlines text = (rows.map Row.plain).flatten := by
  obtain ⟨rows, hs, hw, hp⟩ := exists_rows text h
  exact ⟨rows, hs, hw ▸ isChain_splitLines text, hw, hp⟩

/-- What stands before a place is read as what stands before it in the text as it is read. -/
theorem normalizeNewlines_take {k : Nat} (hk : k ≤ (normalizeNewlines text).length) :
    normalizeNewlines (text.take (offsetOf text k)) = (normalizeNewlines text).take k ∧
      IsSeam (text.take (offsetOf text k)) (text.drop (offsetOf text k)) := by
  obtain ⟨rows, hs, hc, hw, hp⟩ := exists_rows_isChain h
  have htext : text = (rows.map Row.whole).flatten := by rw [← hw, flatten_splitLines]
  rw [(placeOf_eq hs hw hp hk).2.2, hp]
  conv_lhs => rw [htext]
  conv_rhs => rw [htext]
  exact normalizeNewlines_take_rows hs hc k

/-- What stands between two places is read as what stands between them in the text as it is read. -/
theorem normalizeNewlines_slice {j k : Nat} (hjk : j ≤ k) (hk : k ≤ (normalizeNewlines text).length) :
    normalizeNewlines ((text.take (offsetOf text k)).drop (offsetOf text j)) =
      ((normalizeNewlines text).take k).drop j := by
  obtain ⟨hj, hseam⟩ := normalizeNewlines_take h (hjk.trans hk)
  have hle := offsetOf_le h hjk hk
  have hsplit : text.take (offsetOf text k) =
      text.take (offsetOf text j) ++ (text.take (offsetOf text k)).drop (offsetOf text j) := by
    conv_lhs => rw [← List.take_append_drop (offsetOf text j) (text.take (offsetOf text k)),
      List.take_take, Nat.min_eq_left hle]
  have hread := (normalizeNewlines_take h hk).1
  rw [hsplit, normalizeNewlines_append (by rw [List.drop_take]; exact hseam.take _), hj] at hread
  have hlength : ((normalizeNewlines text).take j).length = j := by
    rw [List.length_take, Nat.min_eq_left (hjk.trans hk)]
  rw [← hread, List.drop_left' hlength]

/-- No carriage return stands before a place that comes right after no line ending. -/
theorem getLast?_take_offsetOf {k : Nat} (hk : k ≤ (normalizeNewlines text).length)
    (hne : ∀ j, k = j + 1 → (normalizeNewlines text)[j]? ≠ some '\n') :
    (text.take (offsetOf text k)).getLast? ≠ some '\r' := by
  intro hlast
  have hread := getLast?_normalizeNewlines (text.take (offsetOf text k))
  rw [(normalizeNewlines_take h hk).1, hlast, Option.map_some, if_pos rfl] at hread
  cases k with
  | zero => cases hread
  | succ j =>
    refine hne j rfl ?_
    rw [List.getLast?_eq_getElem?, List.length_take, Nat.min_eq_left hk, Nat.add_sub_cancel,
      List.getElem?_take_of_lt (Nat.lt_succ_self j)] at hread
    exact hread

theorem normalizeNewlines_drop {k : Nat} (hk : k ≤ (normalizeNewlines text).length) :
    normalizeNewlines (text.drop (offsetOf text k)) = (normalizeNewlines text).drop k := by
  have hslice := normalizeNewlines_slice h hk le_rfl
  rwa [offsetOf_length h, List.take_length, List.take_length] at hslice

/-- A text that is as it is read has the offsets of its places. -/
theorem offsetOf_normalizeNewlines {k : Nat} (hk : k ≤ (normalizeNewlines text).length) :
    offsetOf (normalizeNewlines text) k = k := by
  have hread := normalizeNewlines_normalizeNewlines text
  have hends : IsTerminated (normalizeNewlines text) := by
    rw [IsTerminated, terminated_normalizeNewlines, h]
  have htake := (normalizeNewlines_take hends (hread.symm ▸ hk)).1
  have hplain : '\r' ∉ (normalizeNewlines text).take (offsetOf (normalizeNewlines text) k) :=
    fun hm => not_mem_normalizeNewlines text (List.mem_of_mem_take hm)
  rw [hread, normalizeNewlines_of_not_mem hplain] at htake
  have hlength := congrArg List.length htake
  rwa [List.length_take, List.length_take, Nat.min_eq_left (offsetOf_le_length hends (hread.symm ▸ hk)),
    Nat.min_eq_left hk] at hlength

/-- The lines of a text as it is read are the lines of the text as they are read. -/
theorem line_normalizeNewlines (n : Nat) : (LineTable.ofText (normalizeNewlines text)).line n =
    normalizeNewlines ((LineTable.ofText text).line n) := by
  obtain ⟨rows, hs, hw, hp⟩ := exists_rows text h
  rw [LineTable.line, LineTable.line]
  split
  · rfl
  rw [lines_ofText, lines_ofText, hp, splitLines_plain hs, hw, List.getElem?_map, List.getElem?_map]
  cases hr : rows[n - 1]? with
  | none => rfl
  | some r => exact (normalizeNewlines_whole (hs r (List.mem_of_getElem? hr))).symm

/-- Lines begin where lines begin, and what they begin with leads to the same places. -/
theorem offsetOf_line {p : Char → Bool} (hn : p '\n' = false) (hr : p '\r' = false) {n : Nat} (h₁ : 1 ≤ n)
    (h₂ : n ≤ (LineTable.ofText text).count + 1) :
    offsetOf text ((LineTable.ofText (normalizeNewlines text)).lineStart n +
        (((LineTable.ofText (normalizeNewlines text)).line n).takeWhile p).length) =
      (LineTable.ofText text).lineStart n +
        (((LineTable.ofText text).line n).takeWhile p).length := by
  obtain ⟨m, rfl⟩ : ∃ m, n = m + 1 := ⟨n - 1, by omega⟩
  obtain ⟨rows, hs, hw, hp⟩ := exists_rows text h
  have hplain : splitLines (normalizeNewlines text) = rows.map Row.plain := by
    rw [hp, splitLines_plain hs]
  rw [(lineStart_rows hw).1] at h₂
  -- What the line begins with does not reach over its ending.
  have hbody : (((LineTable.ofText (normalizeNewlines text)).line (m + 1)).takeWhile p).length ≤
      (bodyAt rows m).length := by
    rw [LineTable.line, if_neg (Nat.succ_ne_zero m), lines_ofText, hplain, List.getElem?_map, bodyAt,
      Nat.add_sub_cancel]
    cases rows[m]? with
    | none => exact le_rfl
    | some r =>
      show ((r.body ++ ['\n']).takeWhile p).length ≤ r.body.length
      rw [List.takeWhile_append]
      split
      · simp [hn]
      · exact (List.takeWhile_prefix p).length_le
  have hlength : (LineTable.ofText (normalizeNewlines text)).lineStart (m + 1) +
      (((LineTable.ofText (normalizeNewlines text)).line (m + 1)).takeWhile p).length ≤
        (normalizeNewlines text).length := by
    have hnext := LineTable.lineStart_succ (normalizeNewlines text) (show 0 < m + 1 from Nat.succ_pos m)
    have hle := lineStart_le_length (normalizeNewlines text) (m + 1 + 1)
    have hprefix := (List.takeWhile_prefix p
      (l := (LineTable.ofText (normalizeNewlines text)).line (m + 1))).length_le
    omega
  rw [(placeOf_eq hs hw hp hlength).2.2, LineTable.lineStart_ofText, LineTable.lineStart_ofText,
    hplain, hw, Nat.add_sub_cancel, rowOffset_line (by omega) hbody, line_normalizeNewlines h,
    takeWhile_normalizeNewlines hn hr]

end Places

end CallTrace.Text
