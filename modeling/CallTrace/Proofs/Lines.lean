import Mathlib
import CallTrace.Source

/-!
# Places and offsets

A text is read with all its line endings written as `\n`, but edited as it is.  `placeOf text k` is
where the `k`-th character of the text as it is read stands, and `offsetOf text k` is the offset of
that place in the text as it is.

`offsetOf_lt` says that offsets keep the order of places, `lineStart_le_iff` that the lines of the
text as it is are those of the text as it is read, and `getElem?_offsetOf` that the characters other
than line endings are the same.
-/

namespace CallTrace.Text

open Syntax

/-- The last line of the text has an ending. -/
def IsTerminated (text : List Char) : Prop :=
  terminated text = text

theorem isTerminated_nil : IsTerminated [] := rfl

theorem isTerminated_iff {text : List Char} :
    IsTerminated text ↔ ∀ c, text.getLast? = some c → c = '\n' ∨ c = '\r' := by
  rw [IsTerminated, terminated]
  cases h : text.getLast? with
  | none => simp
  | some c =>
    by_cases hc : c = '\n' ∨ c = '\r'
    · simp [hc]
    · simp [hc]

theorem isTerminated_terminated (text : List Char) : IsTerminated (terminated text) := by
  rw [isTerminated_iff, terminated]
  cases h : text.getLast? with
  | none => simp [h]
  | some c =>
    by_cases hc : c = '\n' ∨ c = '\r'
    · simp only [hc, if_true, h, Option.some.injEq, forall_eq']
    · simp [hc]

/-- A text gets an ending, or it has one. -/
theorem terminated_cases (text : List Char) : terminated text = text ∨
    terminated text = text ++ ['\n'] ∧ text ≠ [] ∧
      ∀ c, text.getLast? = some c → c ≠ '\n' ∧ c ≠ '\r' := by
  rw [terminated]
  cases hlast : text.getLast? with
  | none => exact Or.inl rfl
  | some c =>
    by_cases hc : c = '\n' ∨ c = '\r'
    · exact Or.inl (if_pos hc)
    · refine Or.inr ⟨if_neg hc, ?_, ?_⟩
      · rintro rfl
        cases hlast
      · rintro d hd
        obtain rfl := Option.some.inj hd
        exact not_or.1 hc

theorem IsTerminated.tail {c : Char} {rest : List Char} (h : IsTerminated (c :: rest)) :
    IsTerminated rest := by
  rw [isTerminated_iff] at h ⊢
  intro d hd
  cases rest with
  | nil => simp at hd
  | cons e rest => exact h d (by rwa [List.getLast?_cons_cons])

theorem IsTerminated.append {front back : List Char} (hf : IsTerminated front) (hb : IsTerminated back) :
    IsTerminated (front ++ back) := by
  rw [isTerminated_iff] at hf hb ⊢
  intro c hc
  rw [List.getLast?_append, Option.or_eq_some_iff] at hc
  rcases hc with hc | ⟨-, hc⟩
  · exact hb c hc
  · exact hf c hc

/-! ## Lines with their endings apart -/

/-- A line without its ending, and the ending. -/
structure Row where
  body : List Char
  ending : List Char

namespace Row

/-- The line as it stands in the text. -/
def whole (r : Row) : List Char := r.body ++ r.ending

/-- The line as it is read. -/
def plain (r : Row) : List Char := r.body ++ ['\n']

/-- No ending stands within the line, and one at its end. -/
def IsSound (r : Row) : Prop :=
  (∀ c ∈ r.body, c ≠ '\n' ∧ c ≠ '\r') ∧
    (r.ending = ['\n'] ∨ r.ending = ['\r'] ∨ r.ending = ['\r', '\n'])

end Row

theorem splitLines_eq_nil_iff {text : List Char} : splitLines text = [] ↔ text = [] := by
  constructor
  · intro h
    rw [← flatten_splitLines text, h]
    rfl
  · rintro rfl
    rfl

/-- A text is cut into lines piece by piece, if each piece but the last ends a line. -/
theorem splitLines_append {front back : List Char} (h : front = [] ∨ front.getLast? = some '\n') :
    splitLines (front ++ back) = splitLines front ++ splitLines back := by
  have tail {c : Char} {text : List Char} (h : c :: text = [] ∨ (c :: text).getLast? = some '\n') :
      (text = [] → c = '\n') ∧ (text = [] ∨ text.getLast? = some '\n') := by
    rcases h with h | h
    · cases h
    · cases text with
      | nil => exact ⟨fun _ => Option.some.inj h, Or.inl rfl⟩
      | cons d text =>
        rw [List.getLast?_cons_cons] at h
        exact ⟨fun hnil => absurd hnil (List.cons_ne_nil _ _), Or.inr h⟩
  fun_induction splitLines front with
  | case1 => rfl
  | case2 text ih =>
    rw [List.cons_append, List.cons_append, splitLines, ih (tail (tail h).2).2, List.cons_append]
  | case3 c text hne hc ih =>
    have hpair : ∀ rest, c = '\r' → text ++ back = '\n' :: rest → False := by
      intro rest hr heq
      cases text with
      | nil => exact absurd ((tail h).1 rfl) (by rw [hr]; decide)
      | cons d text => exact hne text hr (by rw [(List.cons.inj heq).1])
    rw [List.cons_append, splitLines.eq_3 _ _ hpair, if_pos hc, ih (tail h).2, List.cons_append]
  | case4 c text hne hc hnil ih =>
    have htext : text = [] := splitLines_eq_nil_iff.1 hnil
    exact absurd (Or.inl ((tail h).1 htext)) hc
  | case5 c text hne hc line lines hlines ih =>
    have hpair : ∀ rest, c = '\r' → text ++ back = '\n' :: rest → False :=
      fun _ hr _ => hc (Or.inr hr)
    rw [List.cons_append, splitLines.eq_3 _ _ hpair, if_neg hc, ih (tail h).2, hlines]
    rfl

/-- The lines of a text whose last line has an ending, as they stand and as they are read. -/
theorem exists_rows (text : List Char) (h : IsTerminated text) : ∃ rows : List Row,
    (∀ r ∈ rows, r.IsSound) ∧ splitLines text = rows.map Row.whole ∧
      normalizeNewlines text = (rows.map Row.plain).flatten := by
  fun_induction splitLines text with
  | case1 => exact ⟨[], by simp, rfl, rfl⟩
  | case2 rest ih =>
    obtain ⟨rows, hs, hw, hp⟩ := ih h.tail.tail
    refine ⟨⟨[], ['\r', '\n']⟩ :: rows, ?_, ?_, ?_⟩
    · intro r hr
      rcases List.mem_cons.1 hr with rfl | hr
      · simp [Row.IsSound]
      · exact hs r hr
    · simp [hw, Row.whole]
    · simp [normalizeNewlines, hp, Row.plain]
  | case3 c rest hne hc ih =>
    obtain ⟨rows, hs, hw, hp⟩ := ih h.tail
    refine ⟨⟨[], [c]⟩ :: rows, ?_, ?_, ?_⟩
    · intro r hr
      rcases List.mem_cons.1 hr with rfl | hr
      · simp [Row.IsSound, hc]
      · exact hs r hr
    · simp [hw, Row.whole]
    · rw [normalizeNewlines, hp]
      · rcases hc with rfl | rfl <;> simp [Row.plain]
      · exact hne
  | case4 c rest hne hc hl ih =>
    obtain rfl := splitLines_eq_nil_iff.1 hl
    exact absurd ((isTerminated_iff.1 h) c rfl) hc
  | case5 c rest hne hc line lines hl ih =>
    obtain ⟨rows, hs, hw, hp⟩ := ih h.tail
    rw [hl] at hw
    cases rows with
    | nil => simp at hw
    | cons r rows =>
      rw [List.map_cons, List.cons.injEq] at hw
      refine ⟨⟨c :: r.body, r.ending⟩ :: rows, ?_, ?_, ?_⟩
      · intro q hq
        rcases List.mem_cons.1 hq with rfl | hq
        · obtain ⟨hb, he⟩ := hs r List.mem_cons_self
          refine ⟨fun d hd => ?_, he⟩
          rcases List.mem_cons.1 hd with rfl | hd
          · exact not_or.1 hc
          · exact hb d hd
        · exact hs q (List.mem_cons_of_mem r hq)
      · simp [hw, Row.whole]
      · rw [normalizeNewlines, if_neg fun e => hc (Or.inr e), hp]
        · simp [Row.plain]
        · exact hne

/-- The line that the `k`-th character of the lines as they are read stands on, counted from zero,
and how many characters of the line stand before it. -/
def locate : List Row → Nat → Nat × Nat
  | [], _ => (0, 0)
  | r :: rows, k =>
    if k ≤ r.body.length then (0, k)
    else ((locate rows (k - (r.body.length + 1))).1 + 1, (locate rows (k - (r.body.length + 1))).2)

/-- The body of a line. -/
def bodyAt (rows : List Row) (m : Nat) : List Char :=
  rows[m]?.elim [] Row.body

theorem locate_snd_le (rows : List Row) : ∀ k, (locate rows k).2 ≤ (bodyAt rows (locate rows k).1).length := by
  induction rows with
  | nil => intro k; exact Nat.zero_le _
  | cons r rows ih =>
    intro k
    rw [locate]
    split
    · simpa [bodyAt]
    · simpa [bodyAt] using ih (k - (r.body.length + 1))

theorem locate_fst_le (rows : List Row) : ∀ k, (locate rows k).1 ≤ rows.length := by
  induction rows with
  | nil => intro k; exact Nat.zero_le _
  | cons r rows ih =>
    intro k
    rw [locate]
    split
    · exact Nat.zero_le _
    · simpa using ih (k - (r.body.length + 1))

theorem locate_fst_lt (rows : List Row) :
    ∀ k, k < (rows.map Row.plain).flatten.length → (locate rows k).1 < rows.length := by
  induction rows with
  | nil => intro k hk; simp at hk
  | cons r rows ih =>
    intro k hk
    rw [locate]
    split
    · exact Nat.zero_lt_succ _
    · rename_i hr
      have := ih (k - (r.body.length + 1)) (by simp [Row.plain] at hk ⊢; omega)
      simpa using this

theorem advance_rows {rows : List Row} (hs : ∀ r ∈ rows, r.IsSound) (n : Nat) : ∀ k,
    k ≤ (rows.map Row.plain).flatten.length →
    (⟨n, 0⟩ : Position).advance (((rows.map Row.plain).flatten).take k) =
      ⟨n + (locate rows k).1, bytes ((bodyAt rows (locate rows k).1).take (locate rows k).2)⟩ := by
  induction rows generalizing n with
  | nil => intro k hk; simp [locate, bodyAt, bytes, Position.advance]
  | cons r rows ih =>
    intro k hk
    have hb : '\n' ∉ r.body := fun hm => ((hs r List.mem_cons_self).1 _ hm).1 rfl
    rw [locate]
    split
    · rename_i hr
      have htake : (((r :: rows).map Row.plain).flatten).take k = r.body.take k := by
        simp [Row.plain, List.take_append_of_le_length hr]
      rw [htake, Position.advance_of_not_mem fun hm => hb (List.mem_of_mem_take hm)]
      simp [bodyAt]
    · rename_i hr
      have htake : (((r :: rows).map Row.plain).flatten).take k =
          r.plain ++ ((rows.map Row.plain).flatten).take (k - (r.body.length + 1)) := by
        rw [List.map_cons, List.flatten_cons, List.take_append, List.take_of_length_le]
        · simp [Row.plain]
        · simp [Row.plain]
          omega
      rw [htake, Position.advance_append, Row.plain, Position.advance_append,
        Position.advance_of_not_mem hb]
      have := ih (fun q hq => hs q (List.mem_cons_of_mem r hq)) (n + 1) (k - (r.body.length + 1))
        (by simp [Row.plain] at hk ⊢; omega)
      simp only [Position.advance, List.foldl_cons, List.foldl_nil, Position.step, if_true] at this ⊢
      rw [this]
      simp [bodyAt, Nat.add_assoc, Nat.add_comm 1]

/-- The offset, in the lines as they stand, of the `k`-th character of the lines as they are read. -/
def rowOffset (rows : List Row) (k : Nat) : Nat :=
  ((rows.map Row.whole).take (locate rows k).1).flatten.length + (locate rows k).2

theorem rowOffset_cons_of_le {r : Row} {rows : List Row} {k : Nat} (h : k ≤ r.body.length) :
    rowOffset (r :: rows) k = k := by
  simp [rowOffset, locate, h]

theorem rowOffset_cons_of_lt {r : Row} {rows : List Row} {k : Nat} (h : r.body.length < k) :
    rowOffset (r :: rows) k = r.whole.length + rowOffset rows (k - (r.body.length + 1)) := by
  simp [rowOffset, locate, Nat.not_le.2 h, Nat.add_assoc]

theorem rowOffset_zero : ∀ rows : List Row, rowOffset rows 0 = 0 := by
  intro rows
  cases rows with
  | nil => rfl
  | cons r rows => exact rowOffset_cons_of_le (Nat.zero_le _)

theorem length_plain (r : Row) : r.plain.length = r.body.length + 1 := by
  simp [Row.plain]

theorem body_lt_length_whole {r : Row} (h : r.IsSound) : r.body.length < r.whole.length := by
  rcases h.2 with he | he | he <;> simp [Row.whole, he]

theorem rowOffset_lt {rows : List Row} (hs : ∀ r ∈ rows, r.IsSound) : ∀ {j k : Nat}, j < k →
    k ≤ (rows.map Row.plain).flatten.length → rowOffset rows j < rowOffset rows k := by
  induction rows with
  | nil => intro j k hjk hk; simp at hk; omega
  | cons r rows ih =>
    intro j k hjk hk
    have hw := body_lt_length_whole (hs r List.mem_cons_self)
    rw [List.map_cons, List.flatten_cons, List.length_append, length_plain] at hk
    rcases Nat.lt_or_ge r.body.length k with hrk | hrk
    · rw [rowOffset_cons_of_lt hrk]
      rcases Nat.lt_or_ge r.body.length j with hrj | hrj
      · rw [rowOffset_cons_of_lt hrj]
        have := ih (fun q hq => hs q (List.mem_cons_of_mem r hq))
          (show j - (r.body.length + 1) < k - (r.body.length + 1) by omega) (by omega)
        omega
      · rw [rowOffset_cons_of_le hrj]
        omega
    · rw [rowOffset_cons_of_le hrk, rowOffset_cons_of_le (by omega)]
      exact hjk

theorem rowStart_le_iff {rows : List Row} (hs : ∀ r ∈ rows, r.IsSound) : ∀ {m k : Nat},
    m ≤ rows.length → k ≤ (rows.map Row.plain).flatten.length →
    (((rows.map Row.whole).take m).flatten.length ≤ rowOffset rows k ↔ m ≤ (locate rows k).1) := by
  induction rows with
  | nil => intro m k hm _; simp_all [locate]
  | cons r rows ih =>
    intro m k hm hk
    have hw := body_lt_length_whole (hs r List.mem_cons_self)
    rw [List.map_cons, List.flatten_cons, List.length_append, length_plain] at hk
    cases m with
    | zero => simp
    | succ m =>
      rw [List.map_cons, List.take_succ_cons, List.flatten_cons, List.length_append, locate]
      rcases Nat.lt_or_ge r.body.length k with hrk | hrk
      · rw [rowOffset_cons_of_lt hrk, if_neg (by omega)]
        have := ih (fun q hq => hs q (List.mem_cons_of_mem r hq)) (m := m)
          (k := k - (r.body.length + 1)) (by simpa using hm) (by omega)
        simp only [Nat.add_le_add_iff_left, Nat.add_le_add_iff_right]
        exact this
      · rw [rowOffset_cons_of_le hrk, if_pos hrk]
        simp only [Nat.le_zero_eq, Nat.add_eq_zero_iff, Nat.one_ne_zero, and_false, iff_false]
        omega

theorem getElem?_rowOffset {rows : List Row} : ∀ {k : Nat} {c : Char}, c ≠ '\n' →
    (rows.map Row.plain).flatten[k]? = some c →
    (rows.map Row.whole).flatten[rowOffset rows k]? = some c ∧
      rowOffset rows (k + 1) = rowOffset rows k + 1 := by
  induction rows with
  | nil => intro k c _ h; simp at h
  | cons r rows ih =>
    intro k c hc h
    rw [List.map_cons, List.flatten_cons] at h
    rcases Nat.lt_trichotomy k r.body.length with hk | hk | hk
    · rw [rowOffset_cons_of_le hk.le, rowOffset_cons_of_le hk]
      rw [List.getElem?_append_left (by rw [length_plain]; omega), Row.plain,
        List.getElem?_append_left hk] at h
      refine ⟨?_, rfl⟩
      rw [List.map_cons, List.flatten_cons, Row.whole, List.append_assoc,
        List.getElem?_append_left hk, h]
    · subst hk
      rw [List.getElem?_append_left (by rw [length_plain]; omega), Row.plain] at h
      simp only [List.getElem?_concat_length, Option.some.injEq] at h
      exact absurd h.symm hc
    · rw [rowOffset_cons_of_lt hk, rowOffset_cons_of_lt (by omega)]
      rw [List.getElem?_append_right (by rw [length_plain]; omega), length_plain] at h
      obtain ⟨h₁, h₂⟩ := ih hc h
      refine ⟨?_, ?_⟩
      · rw [List.map_cons, List.flatten_cons, List.getElem?_append_right (by omega),
          Nat.add_sub_cancel_left, h₁]
      · rw [show k + 1 - (r.body.length + 1) = k - (r.body.length + 1) + 1 by omega, h₂]
        omega

/-! ## Columns -/

theorem charsWithin_bytes (front back : List Char) :
    charsWithin (front ++ back) (bytes front) = some front.length := by
  induction front with
  | nil => cases back <;> rfl
  | cons c rest ih =>
    have hc : 0 < c.utf8Size := Char.utf8Size_pos c
    obtain ⟨m, hm⟩ : ∃ m, bytes (c :: rest) = m + 1 :=
      ⟨bytes (c :: rest) - 1, by rw [bytes]; omega⟩
    rw [List.cons_append, hm, charsWithin, if_pos (by rw [bytes] at hm; omega), ← hm, bytes,
      Nat.add_sub_cancel_left, ih]
    · rfl
    · exact Nat.succ_ne_zero m

/-! ## Places of a text -/

variable {text : List Char}

/-- Where the `k`-th character of a text as it is read stands. -/
def placeOf (text : List Char) (k : Nat) : Position :=
  Position.origin.advance ((normalizeNewlines text).take k)

/-- The offset, in the text as it is, of the `k`-th character of the text as it is read. -/
def offsetOf (text : List Char) (k : Nat) : Nat :=
  (LineTable.ofText text).offset (placeOf text k)

theorem lines_ofText (text : List Char) (m : Nat) :
    ((LineTable.ofText text).lines[m]?.elim [] Line.text) = (splitLines text)[m]?.elim [] id := by
  rw [LineTable.ofText]
  simp only [getElem?_layLines]
  cases (splitLines text)[m]? <;> rfl

theorem count_ofText (text : List Char) : (LineTable.ofText text).count = (splitLines text).length := by
  have h : ∀ (start : Nat) (lines : List (List Char)), (layLines start lines).length = lines.length := by
    intro start lines
    induction lines generalizing start with
    | nil => rfl
    | cons line lines ih => rw [layLines, List.length_cons, ih, List.length_cons]
  exact h 0 (splitLines text)

/-- A place and its offset by the lines of the text. -/
theorem placeOf_eq {rows : List Row} (hs : ∀ r ∈ rows, r.IsSound)
    (hw : splitLines text = rows.map Row.whole)
    (hp : normalizeNewlines text = (rows.map Row.plain).flatten) {k : Nat}
    (hk : k ≤ (normalizeNewlines text).length) :
    placeOf text k = ⟨(locate rows k).1 + 1,
      bytes ((bodyAt rows (locate rows k).1).take (locate rows k).2)⟩ ∧
    charsWithin ((LineTable.ofText text).line (placeOf text k).line) (placeOf text k).column =
      some (locate rows k).2 ∧
    offsetOf text k = rowOffset rows k := by
  have hplace : placeOf text k = ⟨(locate rows k).1 + 1,
      bytes ((bodyAt rows (locate rows k).1).take (locate rows k).2)⟩ := by
    rw [placeOf, hp, Position.origin, advance_rows hs 1 k (by rwa [← hp]), Nat.add_comm]
  have hline : (LineTable.ofText text).line ((locate rows k).1 + 1) =
      rows[(locate rows k).1]?.elim [] Row.whole := by
    rw [LineTable.line, if_neg (Nat.succ_ne_zero _), Nat.add_sub_cancel, lines_ofText, hw,
      List.getElem?_map]
    cases rows[(locate rows k).1]? <;> rfl
  have hchars : charsWithin ((LineTable.ofText text).line ((locate rows k).1 + 1))
      (bytes ((bodyAt rows (locate rows k).1).take (locate rows k).2)) = some (locate rows k).2 := by
    have hle := locate_snd_le rows k
    rw [hline]
    rw [bodyAt] at hle ⊢
    cases hr : rows[(locate rows k).1]? with
    | none => rw [hr] at hle; simp at hle; simp [hle, bytes, charsWithin]
    | some r =>
      rw [hr] at hle
      have : r.whole = r.body.take (locate rows k).2 ++ (r.body.drop (locate rows k).2 ++ r.ending) := by
        rw [← List.append_assoc, List.take_append_drop, Row.whole]
      simp only [Option.elim_some] at hle ⊢
      rw [this, charsWithin_bytes, List.length_take, Nat.min_eq_left hle]
  refine ⟨hplace, by rw [hplace]; exact hchars, ?_⟩
  rw [offsetOf, hplace, LineTable.offset, LineTable.lineStart_ofText, hw,
    wholeCharsWithin_of_charsWithin hchars, rowOffset, Nat.add_sub_cancel]

/-- Where a line begins, and how many lines there are. -/
theorem lineStart_rows {rows : List Row} (hw : splitLines text = rows.map Row.whole) :
    (LineTable.ofText text).count = rows.length ∧ ∀ m, (LineTable.ofText text).lineStart (m + 1) =
      ((rows.map Row.whole).take m).flatten.length := by
  refine ⟨by rw [count_ofText, hw, List.length_map], fun m => ?_⟩
  rw [LineTable.lineStart_ofText, hw, Nat.add_sub_cancel]

theorem lineStart_le_length (text : List Char) (n : Nat) :
    (LineTable.ofText text).lineStart n ≤ text.length := by
  rw [LineTable.lineStart_ofText]
  conv_rhs => rw [← flatten_splitLines text, ← List.take_append_drop (n - 1) (splitLines text)]
  rw [List.flatten_append, List.length_append]
  exact Nat.le_add_right _ _

theorem lineStart_mono (text : List Char) {m n : Nat} (h : m ≤ n) :
    (LineTable.ofText text).lineStart m ≤ (LineTable.ofText text).lineStart n := by
  have hprefix : (splitLines text).take (m - 1) <+: (splitLines text).take (n - 1) :=
    List.take_prefix_take_left (Nat.sub_le_sub_right h 1)
  rw [LineTable.lineStart_ofText, LineTable.lineStart_ofText]
  exact hprefix.flatten.length_le

/-! ## From one place to the next -/

theorem placeOf_succ {k : Nat} {c : Char} (hk : (normalizeNewlines text)[k]? = some c) :
    placeOf text (k + 1) = (placeOf text k).step c := by
  rw [placeOf, List.take_add_one, hk, Position.advance_append]
  rfl

theorem line_le_step (p : Position) (c : Char) : p.line ≤ (p.step c).line := by
  rw [Position.step]
  split
  · exact Nat.le_succ _
  · exact le_rfl

theorem line_le_advance (p : Position) (front : List Char) : p.line ≤ (p.advance front).line := by
  induction front generalizing p with
  | nil => exact le_rfl
  | cons c rest ih => exact (line_le_step p c).trans (ih (p.step c))

theorem line_mono {j k : Nat} (hjk : j ≤ k) : (placeOf text j).line ≤ (placeOf text k).line := by
  have : (normalizeNewlines text).take k =
      (normalizeNewlines text).take j ++ ((normalizeNewlines text).take k).drop j := by
    conv_lhs => rw [← List.take_append_drop j ((normalizeNewlines text).take k)]
    rw [List.take_take, Nat.min_eq_left hjk]
  rw [placeOf, placeOf, this, Position.advance_append]
  exact line_le_advance _ _

/-- What stands after a line ending stands on a later line. -/
theorem line_lt_of_newline {j k : Nat} (hj : (normalizeNewlines text)[j]? = some '\n') (hjk : j < k) :
    (placeOf text j).line < (placeOf text k).line := by
  have hstep : (placeOf text (j + 1)).line = (placeOf text j).line + 1 := by
    rw [placeOf_succ hj, Position.step, if_pos rfl]
  have : (placeOf text (j + 1)).line ≤ (placeOf text k).line := line_mono hjk
  omega

/-- Without a line ending in between, the line stays. -/
theorem line_eq_of_no_newline {j k : Nat} (hjk : j ≤ k) (hk : k ≤ (normalizeNewlines text).length)
    (hn : ∀ i, j ≤ i → i < k → (normalizeNewlines text)[i]? ≠ some '\n') :
    (placeOf text k).line = (placeOf text j).line := by
  induction k, hjk using Nat.le_induction with
  | base => rfl
  | succ k hjk ih =>
    obtain ⟨c, hc⟩ : ∃ c, (normalizeNewlines text)[k]? = some c :=
      ⟨_, List.getElem?_eq_getElem (by omega)⟩
    have hne : c ≠ '\n' := fun e => hn k hjk (Nat.lt_succ_self k) (by rw [hc, e])
    rw [placeOf_succ hc, Position.step, if_neg hne,
      ← ih (by omega) fun i hi hik => hn i hi (Nat.lt_succ_of_lt hik)]

theorem placeOf_add {front back : List Char} {k : Nat} (h : (normalizeNewlines text).drop k = front ++ back) :
    (placeOf text k).advance front = placeOf text (k + front.length) ∧
      (normalizeNewlines text).drop (k + front.length) = back ∧
      (front ≠ [] → k + front.length ≤ (normalizeNewlines text).length) := by
  refine ⟨?_, ?_, ?_⟩
  · rw [placeOf, placeOf, ← Position.advance_append, List.take_add, h, List.take_left]
  · rw [← List.drop_drop, h, List.drop_left]
  · intro hne
    have := congrArg List.length h
    have hpos := List.length_pos_iff.2 hne
    rw [List.length_drop, List.length_append] at this
    omega

theorem take_drop_add {front back : List Char} {k : Nat}
    (h : (normalizeNewlines text).drop k = front ++ back) :
    ((normalizeNewlines text).take (k + front.length)).drop k = front := by
  rw [List.drop_take, Nat.add_sub_cancel_left, h, List.take_left]

/-! ## The text of a line -/

theorem mem_between {t : LineTable} {low high x : Nat} {c : Char} (hc : t.text[x]? = some c)
    (hl : low ≤ x) (hh : x < high) : c ∈ t.between low high := by
  rw [LineTable.between]
  refine List.mem_of_getElem? (i := x - low) ?_
  rw [List.getElem?_drop, Nat.add_sub_cancel' hl, List.getElem?_take_of_lt hh, hc]

theorem between_append {t : LineTable} {low mid high : Nat} (hl : low ≤ mid) (hh : mid ≤ high) :
    t.between low mid ++ t.between mid high = t.between low high := by
  have hsum : high - low = (mid - low) + (high - mid) := by omega
  unfold LineTable.between
  rw [List.drop_take, List.drop_take, List.drop_take, hsum, List.take_add, List.drop_drop,
    Nat.add_sub_cancel' hl]

theorem getElem?_line {n i : Nat} (hn : 0 < n) (hi : i < ((LineTable.ofText text).line n).length) :
    text[(LineTable.ofText text).lineStart n + i]? = ((LineTable.ofText text).line n)[i]? := by
  obtain ⟨m, rfl⟩ : ∃ m, n = m + 1 := ⟨n - 1, by omega⟩
  rw [LineTable.line, if_neg (Nat.succ_ne_zero m), Nat.add_sub_cancel, lines_ofText] at hi ⊢
  cases hl : (splitLines text)[m]? with
  | none => simp [hl] at hi
  | some row =>
    simp only [hl, Option.elim_some, id] at hi ⊢
    obtain ⟨hm, hrow⟩ := List.getElem?_eq_some_iff.1 hl
    have htext : ((splitLines text).take m).flatten ++
        (row ++ ((splitLines text).drop (m + 1)).flatten) = text := by
      rw [← List.flatten_cons, ← hrow, ← List.drop_eq_getElem_cons hm, ← List.flatten_append,
        List.take_append_drop, flatten_splitLines]
    rw [LineTable.lineStart_ofText, Nat.add_sub_cancel]
    calc text[((splitLines text).take m).flatten.length + i]?
        = (((splitLines text).take m).flatten ++
            (row ++ ((splitLines text).drop (m + 1)).flatten))[
              ((splitLines text).take m).flatten.length + i]? := by rw [htext]
      _ = row[i]? := by
        rw [List.getElem?_append_right (Nat.le_add_right _ _), Nat.add_sub_cancel_left,
          List.getElem?_append_left hi]

/-- Only form feeds stand on a line before the place for its indentation. -/
theorem getElem?_of_lt_shiftPoint {n x : Nat} (hn : 0 < n)
    (hl : (LineTable.ofText text).lineStart n ≤ x) (hx : x < (LineTable.ofText text).shiftPoint n) :
    text[x]? = some '\x0c' := by
  rw [LineTable.shiftPoint] at hx
  obtain ⟨i, rfl⟩ := Nat.exists_eq_add_of_le hl
  have hi := Nat.add_lt_add_iff_left.1 hx
  have hprefix := List.takeWhile_prefix (fun c => decide (c = '\x0c'))
    (l := (LineTable.ofText text).line n)
  rw [getElem?_line hn (hi.trans_le hprefix.length_le)]
  obtain ⟨rest, hrest⟩ := hprefix
  rw [← hrest, List.getElem?_append_left hi, List.getElem?_eq_getElem hi]
  have := List.mem_takeWhile_imp (List.getElem_mem hi)
  simpa using this

/-- On a line that shows something, the place for its indentation is before its end. -/
theorem shiftPoint_lt_lineStart_succ {n : Nat} (hn : 0 < n)
    (hb : (LineTable.ofText text).isBlank n = false) :
    (LineTable.ofText text).shiftPoint n < (LineTable.ofText text).lineStart (n + 1) := by
  rw [LineTable.lineStart_succ text hn, LineTable.shiftPoint]
  refine Nat.add_lt_add_left (lt_of_not_ge fun hge => ?_) _
  have hall := List.IsPrefix.eq_of_length_le
    (List.takeWhile_prefix fun c => decide (c = '\x0c')) hge
  rw [LineTable.isBlank, Unicode.allBlank, ← hall, List.all_eq_false] at hb
  obtain ⟨c, hc, hcb⟩ := hb
  have : c = '\x0c' := by simpa using List.mem_takeWhile_imp hc
  subst this
  exact hcb rfl

/-! ## Offsets -/

variable (h : IsTerminated text)

include h

/-- Offsets keep the order of places. -/
theorem offsetOf_lt {j k : Nat} (hjk : j < k) (hk : k ≤ (normalizeNewlines text).length) :
    offsetOf text j < offsetOf text k := by
  obtain ⟨rows, hs, hw, hp⟩ := exists_rows text h
  rw [(placeOf_eq hs hw hp (by omega)).2.2, (placeOf_eq hs hw hp hk).2.2]
  exact rowOffset_lt hs hjk (by rwa [← hp])

theorem offsetOf_le {j k : Nat} (hjk : j ≤ k) (hk : k ≤ (normalizeNewlines text).length) :
    offsetOf text j ≤ offsetOf text k := by
  rcases Nat.lt_or_eq_of_le hjk with hjk | rfl
  · exact (offsetOf_lt h hjk hk).le
  · exact le_rfl

/-- Where characters stand tells them apart. -/
theorem eq_of_placeOf_eq {j k : Nat} (hj : j ≤ (normalizeNewlines text).length)
    (hk : k ≤ (normalizeNewlines text).length) (heq : placeOf text j = placeOf text k) : j = k := by
  have hoffset : offsetOf text j = offsetOf text k := congrArg (LineTable.ofText text).offset heq
  rcases Nat.lt_trichotomy j k with hlt | rfl | hlt
  · exact absurd hoffset (offsetOf_lt h hlt hk).ne
  · rfl
  · exact absurd hoffset (offsetOf_lt h hlt hj).ne'

/-- The columns of places fall between characters. -/
theorem charsWithin_placeOf {k : Nat} (hk : k ≤ (normalizeNewlines text).length) : ∃ chars,
    charsWithin ((LineTable.ofText text).line (placeOf text k).line) (placeOf text k).column = some chars ∧
      offsetOf text k = (LineTable.ofText text).lineStart (placeOf text k).line + chars := by
  obtain ⟨rows, hs, hw, hp⟩ := exists_rows text h
  refine ⟨_, (placeOf_eq hs hw hp hk).2.1, ?_⟩
  rw [offsetOf, LineTable.offset, wholeCharsWithin_of_charsWithin (placeOf_eq hs hw hp hk).2.1]

theorem one_le_line {k : Nat} (hk : k ≤ (normalizeNewlines text).length) :
    1 ≤ (placeOf text k).line := by
  obtain ⟨rows, hs, hw, hp⟩ := exists_rows text h
  rw [(placeOf_eq hs hw hp hk).1]
  exact Nat.succ_le_succ (Nat.zero_le _)

theorem line_le_count {k : Nat} (hk : k < (normalizeNewlines text).length) :
    (placeOf text k).line ≤ (LineTable.ofText text).count := by
  obtain ⟨rows, hs, hw, hp⟩ := exists_rows text h
  rw [(placeOf_eq hs hw hp hk.le).1, (lineStart_rows hw).1]
  exact locate_fst_lt rows k (by rwa [← hp])

theorem line_le_count_succ {k : Nat} (hk : k ≤ (normalizeNewlines text).length) :
    (placeOf text k).line ≤ (LineTable.ofText text).count + 1 := by
  obtain ⟨rows, hs, hw, hp⟩ := exists_rows text h
  rw [(placeOf_eq hs hw hp hk).1, (lineStart_rows hw).1]
  exact Nat.succ_le_succ (locate_fst_le rows k)

/-- The lines before a place, and its own, are those that begin at or before its offset. -/
theorem lineStart_le_iff {n k : Nat} (hn : 1 ≤ n) (hc : n ≤ (LineTable.ofText text).count + 1)
    (hk : k ≤ (normalizeNewlines text).length) :
    (LineTable.ofText text).lineStart n ≤ offsetOf text k ↔ n ≤ (placeOf text k).line := by
  obtain ⟨rows, hs, hw, hp⟩ := exists_rows text h
  obtain ⟨m, rfl⟩ : ∃ m, n = m + 1 := ⟨n - 1, by omega⟩
  obtain ⟨hcount, hstart⟩ := lineStart_rows hw
  rw [(placeOf_eq hs hw hp hk).2.2, (placeOf_eq hs hw hp hk).1, hstart,
    rowStart_le_iff hs (by omega) (by rwa [← hp])]
  exact (Nat.add_le_add_iff_right (n := 1)).symm

/-- A character other than a line ending is the same in the text as it is and as it is read. -/
theorem getElem?_offsetOf {k : Nat} {c : Char} (hc : c ≠ '\n')
    (hk : (normalizeNewlines text)[k]? = some c) :
    text[offsetOf text k]? = some c ∧ offsetOf text (k + 1) = offsetOf text k + 1 := by
  obtain ⟨rows, hs, hw, hp⟩ := exists_rows text h
  obtain ⟨hlt, -⟩ := List.getElem?_eq_some_iff.1 hk
  rw [(placeOf_eq hs hw hp hlt.le).2.2, (placeOf_eq hs hw hp hlt).2.2]
  have htext : text = (rows.map Row.whole).flatten := by rw [← hw, flatten_splitLines]
  rw [hp] at hk
  have := getElem?_rowOffset hc hk
  rwa [← htext] at this

theorem offsetOf_zero : offsetOf text 0 = 0 := by
  obtain ⟨rows, hs, hw, hp⟩ := exists_rows text h
  rw [(placeOf_eq hs hw hp (Nat.zero_le _)).2.2, rowOffset_zero]

theorem offsetOf_length : offsetOf text (normalizeNewlines text).length = text.length := by
  obtain ⟨rows, hs, hw, hp⟩ := exists_rows text h
  rw [(placeOf_eq hs hw hp le_rfl).2.2, hp, ← flatten_splitLines text, hw]
  clear hw hp
  induction rows with
  | nil => rfl
  | cons r rows ih =>
    rw [List.map_cons, List.flatten_cons, List.length_append, length_plain,
      rowOffset_cons_of_lt (by omega), Nat.add_comm r.body.length.succ, Nat.add_sub_cancel,
      ih fun q hq => hs q (List.mem_cons_of_mem r hq), List.map_cons, List.flatten_cons,
      List.length_append]

theorem offsetOf_le_length {k : Nat} (hk : k ≤ (normalizeNewlines text).length) :
    offsetOf text k ≤ text.length := by
  rw [← offsetOf_length h]
  exact offsetOf_le h hk le_rfl

end CallTrace.Text
