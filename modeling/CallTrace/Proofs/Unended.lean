import Mathlib
import CallTrace.Proofs.Parsed

/-!
# Texts whose last line has no ending

A text is parsed as if its last line had an ending (`Source.exists_ended`).  The ending changes the last
line alone (`splitLines_append_newline`), and no place before it, so the offsets of such places are
those in the text with the ending (`offset_terminated`), and so is what stands between them
(`between_terminated`).
-/

namespace CallTrace

open Syntax

namespace Text

/-- Columns of the front of a line do not depend on what follows. -/
theorem charsWithin_of_append {front back : List Char} {column chars : Nat}
    (h : charsWithin (front ++ back) column = some chars) (hle : chars ≤ front.length) :
    charsWithin front column = some chars := by
  induction front generalizing column chars with
  | nil =>
    obtain rfl : chars = 0 := Nat.le_zero.1 hle
    cases column <;> rfl
  | cons c front ih =>
    cases column with
    | zero => exact h
    | succ column =>
      rw [List.cons_append] at h
      unfold charsWithin at h ⊢
      split at h
      · obtain ⟨rest, hrest, rfl⟩ := Option.map_eq_some_iff.1 h
        rw [ih hrest (Nat.le_of_succ_le_succ hle)]
        simp_all
      · cases h

/-- An ending after the last line is part of that line. -/
theorem splitLines_append_newline {text : List Char} (hne : text ≠ [])
    (hlast : ∀ c, text.getLast? = some c → c ≠ '\n' ∧ c ≠ '\r') :
    ∃ front line, splitLines text = front ++ [line] ∧
      splitLines (text ++ ['\n']) = front ++ [line ++ ['\n']] := by
  fun_induction splitLines text with
  | case1 => exact absurd rfl hne
  | case2 rest ih =>
    have hrest : rest ≠ [] := by
      rintro rfl
      exact (hlast '\n' rfl).1 rfl
    obtain ⟨front, line, h₁, h₂⟩ := ih hrest fun c hc => hlast c (by
      rw [List.getLast?_cons, List.getLast?_cons, hc]; rfl)
    exact ⟨['\r', '\n'] :: front, line, by rw [h₁]; rfl, by
      rw [List.cons_append, List.cons_append, splitLines, h₂]; rfl⟩
  | case3 c rest hpair hc ih =>
    have hrest : rest ≠ [] := by
      rintro rfl
      exact not_or.2 (hlast c rfl) hc
    obtain ⟨front, line, h₁, h₂⟩ := ih hrest fun d hd => hlast d (by
      rw [List.getLast?_cons, hd]; rfl)
    have hpair' : ∀ more, c = '\r' → rest ++ ['\n'] = '\n' :: more → False := by
      intro more hr heq
      cases rest with
      | nil => exact hrest rfl
      | cons d rest => exact hpair rest hr (by rw [(List.cons.inj heq).1])
    exact ⟨[c] :: front, line, by rw [h₁]; rfl, by
      rw [List.cons_append, splitLines.eq_3 _ _ hpair', if_pos hc, h₂]; rfl⟩
  | case4 c rest hpair hc hnil ih =>
    obtain rfl := splitLines_eq_nil_iff.1 hnil
    refine ⟨[], [c], rfl, ?_⟩
    rw [List.cons_append, splitLines.eq_3 _ _ fun _ hr _ => hc (Or.inr hr), if_neg hc]
    rfl
  | case5 c rest hpair hc line lines hlines ih =>
    have hrest : rest ≠ [] := by
      rintro rfl
      cases hlines
    obtain ⟨front, last, h₁, h₂⟩ := ih hrest fun d hd => hlast d (by
      rw [List.getLast?_cons, hd]; rfl)
    rw [hlines] at h₁
    rw [List.cons_append, splitLines.eq_3 _ _ fun _ hr _ => hc (Or.inr hr), if_neg hc, h₂]
    cases front with
    | nil =>
      obtain ⟨rfl, rfl⟩ := List.cons.inj h₁
      exact ⟨[], c :: line, rfl, rfl⟩
    | cons first front =>
      obtain ⟨rfl, rfl⟩ := List.cons.inj h₁
      exact ⟨(c :: line) :: front, last, rfl, rfl⟩

/-- A line begins where it does with the ending, and is the same or the last. -/
theorem line_terminated {text : List Char} {n : Nat} (h₁ : 1 ≤ n)
    (h₂ : n ≤ (LineTable.ofText (terminated text)).count) :
    (LineTable.ofText (terminated text)).lineStart n = (LineTable.ofText text).lineStart n ∧
      ((LineTable.ofText (terminated text)).line n = (LineTable.ofText text).line n ∨
        (LineTable.ofText (terminated text)).line n = (LineTable.ofText text).line n ++ ['\n'] ∧
        (LineTable.ofText text).lineStart n + ((LineTable.ofText text).line n).length =
          text.length) := by
  obtain ⟨m, rfl⟩ : ∃ m, n = m + 1 := ⟨n - 1, by omega⟩
  rcases terminated_cases text with h | ⟨h, hne, hlast⟩
  · rw [h]
    exact ⟨rfl, Or.inl rfl⟩
  obtain ⟨front, line, hsplit, hended⟩ := splitLines_append_newline hne hlast
  have hm : m ≤ front.length := by
    rw [count_ofText, h, hended, List.length_append, List.length_singleton] at h₂
    omega
  have hline (other : List Char) : (LineTable.ofText other).line (m + 1) =
      (splitLines other)[m]?.elim [] id := by
    rw [LineTable.line, if_neg (Nat.succ_ne_zero m), Nat.add_sub_cancel, lines_ofText]
  have hstart : (LineTable.ofText text).lineStart (m + 1) = (front.take m).flatten.length := by
    rw [LineTable.lineStart_ofText, hsplit, Nat.add_sub_cancel, List.take_append_of_le_length hm]
  refine ⟨?_, ?_⟩
  · rw [hstart, LineTable.lineStart_ofText, h, hended, Nat.add_sub_cancel,
      List.take_append_of_le_length hm]
  rw [hstart, hline, hline, h, hended, hsplit]
  rcases Nat.lt_or_eq_of_le hm with hm | rfl
  · left
    rw [List.getElem?_append_left hm, List.getElem?_append_left hm]
  · right
    rw [List.getElem?_concat_length, List.getElem?_concat_length, List.take_length]
    refine ⟨rfl, ?_⟩
    have hlength := congrArg List.length (flatten_splitLines text)
    rw [hsplit, List.flatten_append, List.length_append] at hlength
    simpa using hlength

section Places

variable {text : List Char} {k : Nat} (hk : k < (normalizeNewlines (terminated text)).length)

include hk

/-- No place before the last ending is behind the text. -/
theorem offsetOf_terminated_le : offsetOf (terminated text) k ≤ text.length := by
  have hlt := offsetOf_lt (isTerminated_terminated text) hk le_rfl
  rw [offsetOf_length (isTerminated_terminated text)] at hlt
  rcases terminated_cases text with h | ⟨h, -, -⟩ <;> rw [h] at hlt ⊢
  · exact hlt.le
  · rw [List.length_append, List.length_singleton] at hlt
    omega

/-- The offset of a place before the last ending. -/
theorem offset_terminated :
    (LineTable.ofText text).offset (placeOf (terminated text) k) = offsetOf (terminated text) k := by
  have hended := isTerminated_terminated text
  have hshort := offsetOf_terminated_le hk
  obtain ⟨chars, hchars, hoffset⟩ := charsWithin_placeOf hended hk.le
  obtain ⟨hstart, hline⟩ := line_terminated (one_le_line hended hk.le) (line_le_count hended hk)
  have hcolumn : charsWithin ((LineTable.ofText text).line (placeOf (terminated text) k).line)
      (placeOf (terminated text) k).column = some chars := by
    rcases hline with hline | ⟨hline, hlength⟩ <;> rw [hline] at hchars
    · exact hchars
    · exact charsWithin_of_append hchars (by omega)
  rw [LineTable.offset, wholeCharsWithin_of_charsWithin hcolumn, hoffset, hstart]

/-- What stands before a place before the last ending. -/
theorem between_terminated (i : Nat) :
    (LineTable.ofText text).between i (offsetOf (terminated text) k) =
      (LineTable.ofText (terminated text)).between i (offsetOf (terminated text) k) := by
  have hshort := offsetOf_terminated_le hk
  show (text.take _).drop i = ((terminated text).take _).drop i
  rcases terminated_cases text with h | ⟨h, -, -⟩ <;> rw [h] at hshort ⊢
  rw [List.take_append_of_le_length hshort]

end Places

end Text

open Text

/-- A text is parsed as if its last line had an ending. -/
theorem Source.exists_ended {text : List Char} {s : Source} (h : Source.parse text = .ok s) :
    ∃ ended, Source.parse (terminated text) = .ok ended ∧ ended.tree = s.tree ∧
      s.table = .ofText text := by
  rw [Source.parse] at h
  split at h
  · cases h
  rename_i hnull
  split at h
  · cases h
  rename_i tree hparse
  obtain rfl := Except.ok.inj h
  have hnull' : ¬ (terminated text).contains '\x00' = true := by
    rcases terminated_cases text with h | ⟨h, -, -⟩ <;> rw [h]
    · exact hnull
    · simpa using hnull
  refine ⟨⟨.ofText (terminated text), tree, tree.walk.filterMap fun p => literalSpan? p.tree⟩, ?_,
    rfl, rfl⟩
  rw [Source.parse, if_neg hnull', terminated_normalizeNewlines, isTerminated_terminated,
    ← terminated_normalizeNewlines, hparse]

theorem Source.exists_parsed {text : List Char} {s : Source} (h : Source.parse text = .ok s) :
    ∃ ended tokens a b, Source.parse (terminated text) = .ok ended ∧
      Parsed (terminated text) ended tokens a b ∧ ended.tree = s.tree ∧ s.table = .ofText text := by
  obtain ⟨ended, hended, htree, htable⟩ := Source.exists_ended h
  obtain ⟨tokens, a, b, P⟩ := parsed_of_parse (isTerminated_terminated text) hended
  exact ⟨ended, tokens, a, b, hended, P, htree, htable⟩

end CallTrace
