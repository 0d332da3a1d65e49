import Mathlib
import CallTrace.Proofs.Edit
import CallTrace.Proofs.Levels
import CallTrace.Proofs.Placement

/-!
# Columns of indentation

A tab in an indentation goes on to the next multiple of eight, and a form feed starts it again, so that
what is put in front of blanks does not always make them wider: a tab behind it can take it up, and a form
feed makes it void.  `width_append` says when the widths add up.

`indentation_of_first` says what the indentation of a physical line is on which a logical line begins, and
that it is as wide as the scanner found.
-/

namespace CallTrace

open Syntax Text

/-! ## The width of blanks -/

namespace Syntax

/-- The column behind one more blank. -/
def pastBlank (column : Nat) (c : Char) : Nat :=
  if c = '\t' then (column / 8 + 1) * 8 else if c = '\x0c' then 0 else column + 1

/-- The width of blanks. -/
def width (blanks : List Char) : Nat :=
  (Indent.of blanks).wide

theorem wide_step (i : Indent) (c : Char) : (i.step c).wide = pastBlank i.wide c := by
  rw [Indent.step, pastBlank]
  split
  · rfl
  · split <;> rfl

theorem wide_foldl (blanks : List Char) (i : Indent) :
    (blanks.foldl Indent.step i).wide = blanks.foldl pastBlank i.wide := by
  induction blanks generalizing i with
  | nil => rfl
  | cons c blanks ih => rw [List.foldl_cons, List.foldl_cons, ih, wide_step]

theorem width_eq (blanks : List Char) : width blanks = blanks.foldl pastBlank 0 :=
  wide_foldl blanks .zero

variable {front back : List Char}

theorem width_append_eq (front back : List Char) :
    width (front ++ back) = back.foldl pastBlank (width front) := by
  rw [width_eq, width_eq, List.foldl_append]

/-- Blanks that begin further right end further right, by as much if there is no tab, or if it is a multiple
of eight. -/
theorem foldl_pastBlank_add {n : Nat} (hfeed : '\x0c' ∉ back) (htab : '\t' ∉ back ∨ 8 ∣ n) (m : Nat) :
    back.foldl pastBlank (n + m) = n + back.foldl pastBlank m := by
  induction back generalizing m with
  | nil => rfl
  | cons c back ih =>
    rw [List.mem_cons, not_or] at hfeed
    have hstep : pastBlank (n + m) c = n + pastBlank m c := by
      rw [pastBlank, pastBlank, if_neg (Ne.symm hfeed.1), if_neg (Ne.symm hfeed.1)]
      split
      · rename_i hc
        have hdvd : 8 ∣ n := htab.resolve_left fun hnone => hnone (by simp [hc])
        omega
      · exact Nat.add_assoc n m 1
    rw [List.foldl_cons, List.foldl_cons, hstep]
    exact ih hfeed.2 (htab.imp_left fun hnone hmem => hnone (List.mem_cons_of_mem c hmem)) _

/-- The widths of blanks add up if no form feed comes behind, and no tab either or the blanks in front go up
to a multiple of eight. -/
theorem width_append (hfeed : '\x0c' ∉ back) (htab : '\t' ∉ back ∨ 8 ∣ width front) :
    width (front ++ back) = width front + width back := by
  rw [width_append_eq, width_eq back, ← foldl_pastBlank_add hfeed htab 0, Nat.add_zero]

theorem lt_pastBlank {c : Char} (hc : c ≠ '\x0c') (column : Nat) : column < pastBlank column c := by
  rw [pastBlank, if_neg hc]
  split <;> omega

theorem width_le_append (hfeed : '\x0c' ∉ back) : width front ≤ width (front ++ back) := by
  rw [width_append_eq]
  generalize width front = n
  induction back generalizing n with
  | nil => exact le_rfl
  | cons c back ih =>
    rw [List.mem_cons, not_or] at hfeed
    exact (lt_pastBlank (Ne.symm hfeed.1) n).le.trans (ih hfeed.2 _)

/-- One more blank that is no form feed is wider. -/
theorem width_lt_append (hfeed : '\x0c' ∉ back) (hne : back ≠ []) : width front < width (front ++ back) := by
  obtain ⟨c, back, rfl⟩ := List.exists_cons_of_ne_nil hne
  rw [List.mem_cons, not_or] at hfeed
  calc width front < pastBlank (width front) c := lt_pastBlank (Ne.symm hfeed.1) _
    _ = width (front ++ [c]) := (width_append_eq front [c]).symm
    _ ≤ width ((front ++ [c]) ++ back) := width_le_append hfeed.2
    _ = width (front ++ c :: back) := by rw [List.append_assoc, List.singleton_append]

/-- Form feeds in front have no width. -/
theorem width_feeds_append (hfeeds : ∀ c ∈ front, c = '\x0c') : width (front ++ back) = width back := by
  induction front with
  | nil => rfl
  | cons c front ih =>
    rw [List.forall_mem_cons] at hfeeds
    obtain ⟨rfl, hfeeds⟩ := hfeeds
    rw [← ih hfeeds, width_eq, width_eq, List.cons_append, List.foldl_cons]
    rfl

end Syntax

/-! ## The indentation of physical lines -/

namespace Text

/-- The blanks that a line begins with. -/
def LineTable.indentation (t : LineTable) (n : Nat) : List Char :=
  (t.line n).takeWhile isSpace

/-- The form feeds that a line begins with. -/
def LineTable.feeds (t : LineTable) (n : Nat) : List Char :=
  (t.line n).takeWhile (· = '\x0c')

/-- The blanks of a line behind the form feeds that it begins with. -/
def LineTable.blanks (t : LineTable) (n : Nat) : List Char :=
  ((t.line n).dropWhile (· = '\x0c')).takeWhile isSpace

/-- The line has nothing but blanks and the backslash that joins it to the line below. -/
def LineTable.isJoined (t : LineTable) (n : Nat) : Bool :=
  normalizeNewlines (t.line n) = t.indentation n ++ ['\\', '\n']

namespace LineTable

variable (t : LineTable) (n : Nat)

theorem eq_of_mem_feeds : ∀ c ∈ t.feeds n, c = '\x0c' :=
  fun _ hc => by simpa using List.mem_takeWhile_imp hc

theorem indentation_eq : t.indentation n = t.feeds n ++ t.blanks n := by
  have hsplit : t.line n = t.feeds n ++ (t.line n).dropWhile (· = '\x0c') :=
    (List.takeWhile_append_dropWhile).symm
  rw [indentation, hsplit, List.takeWhile_append_of_pos fun c hc => ?_]
  · rfl
  · rw [t.eq_of_mem_feeds n c hc]
    rfl

/-- Form feeds in front do not count. -/
theorem width_indentation : width (t.indentation n) = width (t.blanks n) := by
  rw [indentation_eq, width_feeds_append (t.eq_of_mem_feeds n)]

/-- The indentation that lines are written with is that of the line, if there are no other form feeds. -/
theorem indentOf_eq (h : '\x0c' ∉ t.blanks n) : t.indentOf n = t.blanks n := by
  have hfilter : t.indentOf n = (t.indentation n).filter (· ≠ '\x0c') := rfl
  rw [hfilter, indentation_eq, List.filter_append, List.filter_eq_nil_iff.2 fun c hc => ?_,
    List.nil_append, List.filter_eq_self]
  · intro c hc
    rw [decide_eq_true_iff]
    rintro rfl
    exact h hc
  · rw [t.eq_of_mem_feeds n c hc]
    decide

end LineTable

variable {text : List Char}

/-- The text before a line has the lines before it, and the text from there on those from there on. -/
theorem eq_at_lineStart (text : List Char) (n : Nat) :
    text.take ((LineTable.ofText text).lineStart n) = ((splitLines text).take (n - 1)).flatten ∧
      text.drop ((LineTable.ofText text).lineStart n) = ((splitLines text).drop (n - 1)).flatten := by
  have hsplit : text = ((splitLines text).take (n - 1)).flatten ++ ((splitLines text).drop (n - 1)).flatten := by
    rw [← List.flatten_append, List.take_append_drop, flatten_splitLines]
  rw [LineTable.lineStart_ofText]
  exact ⟨(congrArg (List.take _) hsplit).trans List.take_left,
    (congrArg (List.drop _) hsplit).trans List.drop_left⟩

theorem line_isPrefix (text : List Char) {n : Nat} (hn : 0 < n) :
    (LineTable.ofText text).line n <+: text.drop ((LineTable.ofText text).lineStart n) := by
  rw [(eq_at_lineStart text n).2, LineTable.line, if_neg hn.ne', lines_ofText]
  cases h : (splitLines text)[n - 1]? with
  | none => exact List.nil_prefix
  | some line =>
    obtain ⟨hlt, rfl⟩ := List.getElem?_eq_some_iff.1 h
    rw [List.drop_eq_getElem_cons hlt, List.flatten_cons]
    exact List.prefix_append _ _

theorem indentation_isPrefix (text : List Char) {n : Nat} (hn : 0 < n) :
    (LineTable.ofText text).indentation n <+: text.drop ((LineTable.ofText text).lineStart n) :=
  (List.takeWhile_prefix isSpace).trans (line_isPrefix text hn)

/-- Text is put in behind the form feeds that a line begins with and before its other blanks. -/
theorem eq_at_shiftPoint (text : List Char) {n : Nat} (hn : 0 < n) :
    text.take ((LineTable.ofText text).shiftPoint n) =
        text.take ((LineTable.ofText text).lineStart n) ++ (LineTable.ofText text).feeds n ∧
      text.drop ((LineTable.ofText text).shiftPoint n) = (LineTable.ofText text).blanks n ++
        text.drop ((LineTable.ofText text).lineStart n + ((LineTable.ofText text).indentation n).length) := by
  obtain ⟨rest, hrest⟩ := indentation_isPrefix text hn
  have hpoint : (LineTable.ofText text).shiftPoint n =
      (LineTable.ofText text).lineStart n + ((LineTable.ofText text).feeds n).length := rfl
  rw [hpoint, List.take_add, ← List.drop_drop, ← List.drop_drop, ← hrest, List.drop_left,
    LineTable.indentation_eq, List.append_assoc, List.take_left, List.drop_left]
  exact ⟨rfl, rfl⟩

/-- What stands before a line ends a line. -/
theorem isTerminated_take_lineStart {text : List Char} (h : IsTerminated text) (n : Nat) :
    IsTerminated (text.take ((LineTable.ofText text).lineStart n)) := by
  obtain ⟨rows, hsound, hrows, -⟩ := exists_rows text h
  rw [(eq_at_lineStart text n).1, hrows, ← List.map_take]
  have hmem : ∀ r ∈ rows.take (n - 1), r.IsSound := fun r hr => hsound r (List.mem_of_mem_take hr)
  generalize rows.take (n - 1) = front at hmem
  induction front with
  | nil => exact isTerminated_nil
  | cons r front ih =>
    rw [List.forall_mem_cons] at hmem
    refine IsTerminated.append ?_ (ih hmem.2)
    rw [isTerminated_iff, Row.whole]
    intro c hc
    rcases hmem.1.2 with he | he | he <;> simp [he] at hc <;> simp [← hc]

theorem mem_charsOf {i j k : Nat} {c : Char} (hik : i ≤ k) (hkj : k < j)
    (hc : (normalizeNewlines text)[k]? = some c) : c ∈ charsOf text i j := by
  refine List.mem_iff_getElem?.2 ⟨k - i, ?_⟩
  rw [charsOf, List.getElem?_drop, Nat.add_sub_cancel' hik, List.getElem?_take_of_lt hkj, hc]

theorem charsOf_eq (text : List Char) (i j : Nat) :
    charsOf text i j = ((normalizeNewlines text).drop i).take (j - i) :=
  List.drop_take

section Places

variable (h : IsTerminated text) {i j k n : Nat}

include h

/-- A line begins as far on in the text as it is read as the characters are that stand before it. -/
theorem lineStart_normalizeNewlines_le_iff (h₁ : 1 ≤ n)
    (h₂ : n ≤ (LineTable.ofText (normalizeNewlines text)).count + 1) (hk : k ≤ (normalizeNewlines text).length) :
    (LineTable.ofText (normalizeNewlines text)).lineStart n ≤ k ↔ n ≤ (placeOf text k).line := by
  have hterminated : IsTerminated (normalizeNewlines text) := by
    rw [IsTerminated, terminated_normalizeNewlines, h]
  have hplace : placeOf (normalizeNewlines text) k = placeOf text k := by
    rw [placeOf, placeOf, normalizeNewlines_normalizeNewlines]
  rw [← hplace, ← lineStart_le_iff hterminated h₁ h₂ (by rwa [normalizeNewlines_normalizeNewlines]),
    offsetOf_normalizeNewlines h hk]

theorem line_le_count_normalizeNewlines (hk : k < (normalizeNewlines text).length) :
    (placeOf text k).line ≤ (LineTable.ofText (normalizeNewlines text)).count := by
  have hterminated : IsTerminated (normalizeNewlines text) := by
    rw [IsTerminated, terminated_normalizeNewlines, h]
  have hle := line_le_count hterminated (k := k) (by rwa [normalizeNewlines_normalizeNewlines])
  rwa [placeOf, normalizeNewlines_normalizeNewlines] at hle

/-- Where a line begins, its line begins. -/
theorem lineStart_of_beginsLine (hj : BeginsLine text j) (hlt : j < (normalizeNewlines text).length) :
    (LineTable.ofText (normalizeNewlines text)).lineStart (placeOf text j).line = j := by
  have h₁ := one_le_line h hlt.le
  have h₂ := (line_le_count_normalizeNewlines h hlt).trans (Nat.le_succ _)
  refine Nat.le_antisymm ((lineStart_normalizeNewlines_le_iff h h₁ h₂ hlt.le).2 le_rfl) ?_
  rcases hj with rfl | ⟨i, rfl, hbreak⟩
  · exact Nat.zero_le _
  · -- The line break before it stands on the line above.
    by_contra hle
    have hbefore := (lineStart_normalizeNewlines_le_iff h h₁ h₂ (k := i) (by omega)).1 (by omega)
    exact absurd (line_lt_of_newline hbreak (Nat.lt_succ_self i)) (Nat.not_lt.2 hbefore)

omit h in
/-- Blanks are on the line of what comes after them. -/
theorem line_eq_of_blanks (hjk : j ≤ k) (hk : k ≤ (normalizeNewlines text).length)
    (hblanks : ∀ c ∈ charsOf text j k, isSpace c = true) :
    (placeOf text k).line = (placeOf text j).line := by
  refine line_eq_of_no_newline hjk hk fun i hji hik hbreak => ?_
  cases hblanks _ (mem_charsOf hji hik hbreak)

/-- The blanks before the first thing on a line that is no blank are the indentation of the line. -/
theorem indentation_of_beginsLine (hj : BeginsLine text j) (hjk : j ≤ k)
    (hblanks : ∀ c ∈ charsOf text j k, isSpace c = true) {c : Char}
    (hc : (normalizeNewlines text)[k]? = some c) (hspace : isSpace c = false) :
    (LineTable.ofText text).indentation (placeOf text k).line = charsOf text j k := by
  obtain ⟨hk, rfl⟩ := List.getElem?_eq_some_iff.1 hc
  have hline := line_eq_of_blanks hjk hk.le hblanks
  have hcount := line_le_count_normalizeNewlines h hk
  have h₁ := one_le_line h hk.le
  have hprefix := line_isPrefix (normalizeNewlines text) h₁
  have hend : k < (LineTable.ofText (normalizeNewlines text)).lineStart ((placeOf text k).line + 1) := by
    by_contra hle
    have := (lineStart_normalizeNewlines_le_iff h (Nat.succ_pos _) (Nat.succ_le_succ hcount) hk.le).1
      (Nat.not_lt.1 hle)
    omega
  rw [LineTable.lineStart_succ _ h₁] at hend
  rw [hline, lineStart_of_beginsLine h hj (hjk.trans_lt hk), ← hline] at hprefix hend
  rw [Edit.drop_eq_append _ hjk, List.drop_eq_getElem_cons hk] at hprefix
  obtain ⟨rest, hrest⟩ : charsOf text j k ++ [(normalizeNewlines text)[k]] <+:
      (LineTable.ofText (normalizeNewlines text)).line (placeOf text k).line := by
    refine List.prefix_of_prefix_length_le ?_ hprefix ?_
    · exact ⟨(normalizeNewlines text).drop (k + 1), by simp [charsOf]⟩
    · rw [List.length_append, charsOf, List.length_drop, List.length_take, List.length_singleton]
      omega
  rw [LineTable.indentation, ← takeWhile_normalizeNewlines rfl rfl, ← line_normalizeNewlines h, ← hrest,
    List.append_assoc, List.takeWhile_append_of_pos hblanks, List.singleton_append,
    List.takeWhile_cons_of_neg (by simp [hspace]), List.append_nil]

theorem isJoined_of_joined (hj : Joined text j) (hlt : j < (normalizeNewlines text).length) :
    (LineTable.ofText text).isJoined ((placeOf text j).line - 1) = true := by
  obtain ⟨i, hij, hi, blanks, hblanks, hchars⟩ := hj
  have hlength := congrArg List.length hchars
  rw [charsOf, List.length_drop, List.length_take, List.length_append, Nat.min_eq_left hlt.le] at hlength
  obtain rfl : j = i + blanks.length + 2 := by simp at hlength; omega
  have hget {m : Nat} (hm : m < 2) :
      (normalizeNewlines text)[i + blanks.length + m]? = ['\\', '\n'][m]? := by
    have := congrArg (·[blanks.length + m]?) hchars
    simp only [charsOf] at this
    rwa [List.getElem?_drop, List.getElem?_take_of_lt (by omega), ← Nat.add_assoc,
      List.getElem?_append_right (by omega), Nat.add_sub_cancel_left] at this
  have hfront : charsOf text i (i + blanks.length) = blanks := by
    have := congrArg (List.take blanks.length) hchars
    rwa [List.take_left, charsOf_eq, List.take_take, Nat.min_eq_left (by omega),
      ← Nat.add_sub_cancel_left i blanks.length, ← charsOf_eq] at this
  have hspaces : ∀ c ∈ charsOf text i (i + blanks.length), isSpace c = true := by rwa [hfront]
  have hlt' : i + blanks.length < (normalizeNewlines text).length := by omega
  have hindentation := indentation_of_beginsLine h hi (Nat.le_add_right _ _) hspaces
    (hget (m := 0) (by omega)) rfl
  have hbreak := hget (m := 1) (by omega)
  have hplace : (placeOf text (i + blanks.length + 2)).line = (placeOf text (i + blanks.length)).line + 1 := by
    rw [placeOf_succ hbreak, placeOf_succ (hget (m := 0) (by omega))]
    rfl
  have hstart := lineStart_of_beginsLine h hi (by omega)
  have hstop := lineStart_of_beginsLine h (Or.inr ⟨i + blanks.length + 1, rfl, hbreak⟩) hlt
  have hline := line_eq_of_blanks (Nat.le_add_right _ _) hlt'.le hspaces
  rw [hplace, Nat.add_sub_cancel, LineTable.isJoined, decide_eq_true_iff, hindentation, hfront, ← hchars,
    ← line_normalizeNewlines h]
  have h₁ := one_le_line h hlt'.le
  have hprefix := line_isPrefix (normalizeNewlines text) h₁
  rw [hplace, LineTable.lineStart_succ _ h₁] at hstop
  rw [hline, hstart, ← hline] at hprefix hstop
  rw [List.prefix_iff_eq_take.1 hprefix, charsOf_eq]
  congr 1
  omega

end Places

end Text

/-! ## First tokens of logical lines -/

theorem Syntax.isSpace_eq_false {c : Char} (h : Unicode.isBlank c = false) : isSpace c = false := by
  rw [Bool.eq_false_iff]
  intro hc
  simp only [isSpace, Bool.or_eq_true, decide_eq_true_eq] at hc
  rcases hc with (rfl | rfl) | rfl <;> revert h <;> decide

namespace Parsed

variable {text : List Char} {s : Source} {tokens : Array Token} {a b : Nat → Nat}
  (P : Parsed text s tokens a b) {k : Nat}

include P

/-- The blanks before the first token on a line are the indentation of the line. -/
theorem indentation_of_blanks (hk : StartsAt tokens k) {j : Nat} (hbegins : BeginsLine text j)
    (hjk : j ≤ a k) (hblanks : ∀ c ∈ charsOf text j (a k), isSpace c = true) :
    s.table.indentation (placeOf text (a k)).line = charsOf text j (a k) ∧
      offsetOf text (a k) = s.table.lineStart (placeOf text (a k)).line +
        (s.table.indentation (placeOf text (a k)).line).length := by
  have hlt := P.a_lt_b hk
  have hle := P.b_le hk
  obtain ⟨c, hc, hblank⟩ := P.exists_first_char hk
  have hindentation := indentation_of_beginsLine P.terminated hbegins hjk hblanks hc
    (isSpace_eq_false hblank)
  have hline := line_eq_of_blanks hjk (by omega) hblanks
  have hstart := lineStart_of_beginsLine P.terminated hbegins (by omega)
  rw [P.table]
  refine ⟨hindentation, ?_⟩
  have hoffset := offsetOf_line P.terminated (p := isSpace) rfl rfl
    (one_le_line P.terminated (by omega : a k ≤ _)) (line_le_count_succ P.terminated (by omega : a k ≤ _))
  rw [line_normalizeNewlines P.terminated, takeWhile_normalizeNewlines rfl rfl,
    ← LineTable.indentation, hindentation] at hoffset
  rw [hindentation, ← hoffset, hline, hstart, charsOf, List.length_drop, List.length_take,
    Nat.min_eq_left (by omega), Nat.add_sub_cancel' hjk]

section Indentation

variable (hk : StartsAt tokens k)
  (hoffset : offsetOf text (a k) = s.table.lineStart (placeOf text (a k)).line +
    (s.table.indentation (placeOf text (a k)).line).length)

include hk hoffset

/-- What stands before a token that comes right after the indentation is the indentation. -/
theorem between_of_indentation : s.table.between (s.table.lineStart (placeOf text (a k)).line)
    (offsetOf text (a k)) = s.table.indentation (placeOf text (a k)).line := by
  have hprefix := indentation_isPrefix text (one_le_line P.terminated (P.a_le_length hk))
  have htext : s.table.text = text := by rw [P.table, LineTable.ofText]
  rw [← P.table] at hprefix
  rw [hoffset, LineTable.between, htext, List.drop_take, Nat.add_sub_cancel_left,
    ← List.prefix_iff_eq_take.1 hprefix]

/-- So a node that begins there is the first thing on its line. -/
theorem atLineStart_of_indentation {c : Cell} {n : Nat} (h : c.Ends text tokens a b k n) :
    s.atLineStart c.tree = true := by
  rw [Source.atLineStart, LineTable.atLineStart, start_eq h, P.offset_eq,
    P.between_of_indentation hk hoffset, Unicode.allBlank, List.all_eq_true]
  intro c hc
  by_contra hblank
  have hspace := List.mem_takeWhile_imp hc
  rw [isSpace_eq_false (by simpa using hblank)] at hspace
  cases hspace

end Indentation

/-- The first token of a logical line comes right after the indentation of its line, and that is as wide as
the indentation that is open there, if the line above is not joined to it. -/
theorem indentation_of_first {stack : Nat → List Indent} (hL : Levels text tokens stack)
    (hk : FirstOfLine tokens k) :
    offsetOf text (a k) = s.table.lineStart (placeOf text (a k)).line +
      (s.table.indentation (placeOf text (a k)).line).length ∧
    (s.table.isJoined ((placeOf text (a k)).line - 1) = false →
      width (s.table.indentation (placeOf text (a k)).line) = ((stack k).headD .zero).wide) := by
  obtain ⟨i, hi, hplace, j, hji, hbegins, hblanks, hwidth⟩ := hL.first hk
  rw [P.startAt_eq hk.starts] at hplace
  have hlt := P.a_lt_b hk.starts
  have hle := P.b_le hk.starts
  obtain rfl : a k = i := by
    have hoffset : offsetOf text (a k) = offsetOf text i := by rw [offsetOf, offsetOf, hplace]
    rcases Nat.lt_trichotomy (a k) i with h | h | h
    · exact absurd hoffset (offsetOf_lt P.terminated h hi).ne
    · exact h
    · exact absurd hoffset (offsetOf_lt P.terminated h (by omega)).ne'
  obtain ⟨hindentation, hoffset⟩ := P.indentation_of_blanks hk.starts hbegins hji hblanks
  refine ⟨hoffset, fun hjoined => ?_⟩
  rcases hwidth with hwidth | hj
  · rw [hwidth, hindentation]
    rfl
  · rw [P.table, line_eq_of_blanks hji (by omega) hblanks,
      isJoined_of_joined P.terminated hj (by omega)] at hjoined
    cases hjoined

theorem atLineStart_of_first (hk : FirstOfLine tokens k) {stack : Nat → List Indent}
    (hL : Levels text tokens stack) {c : Cell} {n : Nat} (h : c.Ends text tokens a b k n) :
    s.atLineStart c.tree = true :=
  P.atLineStart_of_indentation hk.starts (P.indentation_of_first hL hk).1 h

end Parsed

end CallTrace
