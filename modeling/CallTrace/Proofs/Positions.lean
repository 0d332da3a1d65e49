import Mathlib
import CallTrace.Proofs.Offsets
import CallTrace.Proofs.Unended
import CallTrace.Proofs.Utf8

/-!
# Positions and offsets

A position is a line and a column in octets.  Offsets are one to one with the positions where characters
begin (`bijOn_offset`) and in their order (`offset_lt_offset_iff`).  A column inside a character has no offset
(`charsWithin_eq_none_iff`), and a column behind the line has the offset of the line's end
(`charsWithin_of_le`).
-/

namespace CallTrace

open Syntax Text

/-! ## Columns -/

namespace Text

/-- A column behind whole characters. -/
def IsBoundary (line : List Char) (column : Nat) : Prop :=
  ∃ front, front <+: line ∧ (encode front).length = column

/-- A column behind a part of a character. -/
def IsInside (line : List Char) (column : Nat) : Prop :=
  ∃ front c back, line = front ++ c :: back ∧ (encode front).length < column ∧
    column < (encode (front ++ [c])).length

theorem bytes_append (front back : List Char) : bytes (front ++ back) = bytes front + bytes back := by
  rw [← length_encode, ← length_encode, ← length_encode, encode, List.flatMap_append, List.length_append]
  rfl

theorem bytes_take_lt {text : List Char} {m n : Nat} (hmn : m < n) (hn : n ≤ text.length) :
    bytes (text.take m) < bytes (text.take n) := by
  have hm : m < text.length := hmn.trans_le hn
  have hpos := Char.utf8Size_pos text[m]
  obtain ⟨rest, hrest⟩ : text.take (m + 1) <+: text.take n := List.take_prefix_take_left hmn
  rw [← hrest, ← List.take_concat_get' text m hm, bytes_append, bytes_append, bytes, bytes]
  omega

/-- More characters take more octets. -/
theorem bytes_take_lt_iff {text : List Char} {m n : Nat} (hm : m ≤ text.length) (hn : n ≤ text.length) :
    bytes (text.take m) < bytes (text.take n) ↔ m < n := by
  refine ⟨fun h => ?_, fun h => bytes_take_lt h hn⟩
  by_contra hle
  rcases Nat.lt_or_eq_of_le (Nat.not_lt.1 hle) with hlt | rfl
  · exact absurd (bytes_take_lt hlt hm) h.not_gt
  · exact absurd h (lt_irrefl _)

theorem bytes_take_of_charsWithin {line : List Char} {column n : Nat}
    (h : charsWithin line column = some n) :
    n ≤ line.length ∧ bytes (line.take n) = min (bytes line) column := by
  induction line generalizing column n with
  | nil =>
    obtain rfl : 0 = n := by cases column <;> exact Option.some.inj h
    exact ⟨le_rfl, (Nat.zero_min column).symm⟩
  | cons c line ih =>
    cases column with
    | zero =>
      obtain rfl : 0 = n := Option.some.inj h
      exact ⟨Nat.zero_le _, (Nat.min_zero _).symm⟩
    | succ column =>
      rw [charsWithin_succ] at h
      split at h
      · obtain ⟨m, hm, rfl⟩ := Option.map_eq_some_iff.1 h
        obtain ⟨hle, hbytes⟩ := ih hm
        refine ⟨Nat.succ_le_succ hle, ?_⟩
        rw [List.take_succ_cons, bytes, bytes, hbytes]
        omega
      · cases h

theorem bytes_middle (front : List Char) (c : Char) (back : List Char) :
    bytes (front ++ c :: back) = bytes (front ++ [c]) + bytes back := by
  rw [← bytes_append, List.append_assoc, List.singleton_append]

/-- Only a column inside a character is not counted. -/
theorem charsWithin_eq_none_iff {line : List Char} {column : Nat} :
    charsWithin line column = none ↔ IsInside line column := by
  constructor
  · intro h
    induction line generalizing column with
    | nil => cases column <;> cases h
    | cons c line ih =>
      cases column with
      | zero => cases h
      | succ column =>
        rw [charsWithin_succ] at h
        split at h
        · rename_i hle
          obtain ⟨front, x, back, rfl, hfront, hback⟩ := ih (Option.map_eq_none_iff.1 h)
          refine ⟨c :: front, x, back, rfl, ?_, ?_⟩
          · rw [length_encode] at hfront ⊢
            rw [bytes]
            omega
          · rw [length_encode] at hback ⊢
            rw [List.cons_append, bytes]
            omega
        · rename_i hlt
          refine ⟨[], c, line, rfl, Nat.succ_pos column, ?_⟩
          rw [length_encode]
          exact Nat.not_le.1 hlt
  · rintro ⟨front, c, back, rfl, hfront, hback⟩
    rw [length_encode] at hfront hback
    cases h : charsWithin (front ++ c :: back) column with
    | none => rfl
    | some n =>
      -- The characters counted end behind the front and before the character.
      exfalso
      obtain ⟨hle, hbytes⟩ := bytes_take_of_charsWithin h
      have hall := bytes_middle front c back
      have h₁ : (front ++ c :: back).take front.length = front := List.take_left
      have h₂ : (front ++ c :: back).take (front.length + 1) = front ++ [c] := by
        simp [List.take_append]
      have hlength : (front ++ c :: back).length = front.length + (back.length + 1) := by simp
      have hlow : front.length < n :=
        (bytes_take_lt_iff (by omega) hle).1 (by rw [h₁]; omega)
      have hhigh : n < front.length + 1 :=
        (bytes_take_lt_iff hle (by omega)).1 (by rw [h₂]; omega)
      omega

/-- A column behind the line counts the whole line. -/
theorem charsWithin_of_le {line : List Char} {column : Nat} (h : bytes line ≤ column) :
    charsWithin line column = some line.length := by
  cases hchars : charsWithin line column with
  | none =>
    obtain ⟨front, c, back, rfl, -, hback⟩ := charsWithin_eq_none_iff.1 hchars
    rw [length_encode] at hback
    rw [bytes_middle] at h
    omega
  | some n =>
    obtain ⟨hle, hbytes⟩ := bytes_take_of_charsWithin hchars
    rw [Nat.min_eq_left h] at hbytes
    by_contra hne
    have hlt := bytes_take_lt (lt_of_le_of_ne hle fun he => hne (by rw [he])) le_rfl
    rw [List.take_length] at hlt
    omega

theorem charsWithin_min_eq (line : List Char) (column : Nat) :
    charsWithin line (min (bytes line) column) = charsWithin line column := by
  rcases le_total (bytes line) column with h | h
  · rw [Nat.min_eq_left h, charsWithin_of_le h, charsWithin_of_le le_rfl]
  · rw [Nat.min_eq_right h]

/-- A column where a character begins. -/
theorem isBoundary_and_lt_iff {line : List Char} {column : Nat} :
    IsBoundary line column ∧ column < (encode line).length ↔
      ∃ n < line.length, bytes (line.take n) = column := by
  rw [length_encode]
  constructor
  · rintro ⟨⟨front, hprefix, rfl⟩, hlt⟩
    have heq := List.prefix_iff_eq_take.1 hprefix
    rw [length_encode] at hlt ⊢
    refine ⟨front.length, ?_, by rw [← heq]⟩
    rw [← bytes_take_lt_iff hprefix.length_le le_rfl, List.take_length, ← heq]
    exact hlt
  · rintro ⟨n, hn, rfl⟩
    refine ⟨⟨line.take n, List.take_prefix n line, length_encode _⟩, ?_⟩
    have := bytes_take_lt hn le_rfl
    rwa [List.take_length] at this

/-! ## Lines -/

theorem exists_line {text : List Char} {k : Nat} (hk : k < text.length) :
    ∃ n, 1 ≤ n ∧ n ≤ (LineTable.ofText text).count ∧ (LineTable.ofText text).lineStart n ≤ k ∧
      k < (LineTable.ofText text).lineStart (n + 1) := by
  have hend : k < (LineTable.ofText text).lineStart ((LineTable.ofText text).count + 1) := by
    rw [count_ofText, LineTable.lineStart_ofText, Nat.add_sub_cancel, List.take_length, flatten_splitLines]
    exact hk
  have hexists : ∃ n, k < (LineTable.ofText text).lineStart (n + 1) := ⟨_, hend⟩
  -- The first line that ends behind the offset.
  have hfind := Nat.find_spec hexists
  have hmin (m : Nat) (hm : m < Nat.find hexists) := Nat.find_min hexists hm
  have hle := Nat.find_min' hexists hend
  generalize Nat.find hexists = n at hfind hmin hle
  have hpos : n ≠ 0 := by
    rintro rfl
    rw [LineTable.lineStart_ofText] at hfind
    exact Nat.not_lt_zero k hfind
  refine ⟨n, Nat.one_le_iff_ne_zero.2 hpos, hle, ?_, hfind⟩
  have := hmin (n - 1) (by omega)
  rwa [Nat.sub_add_cancel (Nat.one_le_iff_ne_zero.2 hpos), Nat.not_lt] at this

/-! ## Positions -/

/-- The positions where characters begin. -/
def LineTable.positions (t : LineTable) : Set Position :=
  {p | 1 ≤ p.line ∧ p.line ≤ t.count ∧ IsBoundary (t.line p.line) p.column ∧
    p.column < (encode (t.line p.line)).length}

section Positions

variable {t : LineTable} {text : List Char} {p q : Position}

/-- A character of a line begins behind the characters before it. -/
theorem mem_positions_iff : p ∈ t.positions ↔ 1 ≤ p.line ∧ p.line ≤ t.count ∧
    ∃ n < (t.line p.line).length, bytes ((t.line p.line).take n) = p.column :=
  and_congr_right fun _ => and_congr_right fun _ => isBoundary_and_lt_iff

theorem charsWithin_take (line : List Char) {n : Nat} (hn : n ≤ line.length) :
    charsWithin line (bytes (line.take n)) = some n := by
  have := charsWithin_bytes (line.take n) (line.drop n)
  rwa [List.take_append_drop, List.length_take, Nat.min_eq_left hn] at this

theorem offset_eq_add {n : Nat} (hn : n < (t.line p.line).length)
    (hcolumn : bytes ((t.line p.line).take n) = p.column) : t.offset p = t.lineStart p.line + n := by
  rw [LineTable.offset, ← hcolumn, wholeCharsWithin_of_charsWithin (charsWithin_take _ hn.le)]

theorem offset_lt_of_line_lt (hp : p ∈ (LineTable.ofText text).positions) (h : p.line < q.line) :
    (LineTable.ofText text).offset p < (LineTable.ofText text).offset q := by
  obtain ⟨h₁, -, n, hn, hcolumn⟩ := mem_positions_iff.1 hp
  calc (LineTable.ofText text).offset p
      = (LineTable.ofText text).lineStart p.line + n := offset_eq_add hn hcolumn
    _ < (LineTable.ofText text).lineStart (p.line + 1) := by
        rw [LineTable.lineStart_succ text h₁]
        exact Nat.add_lt_add_left hn _
    _ ≤ (LineTable.ofText text).lineStart q.line := lineStart_mono text h
    _ ≤ (LineTable.ofText text).offset q := Nat.le_add_right _ _

/-- Offsets are in the order of the positions. -/
theorem offset_lt_offset_iff (hp : p ∈ (LineTable.ofText text).positions)
    (hq : q ∈ (LineTable.ofText text).positions) :
    (LineTable.ofText text).offset p < (LineTable.ofText text).offset q ↔
      toLex (p.line, p.column) < toLex (q.line, q.column) := by
  rw [Prod.Lex.toLex_lt_toLex]
  rcases Nat.lt_trichotomy p.line q.line with hlt | heq | hlt
  · exact iff_of_true (offset_lt_of_line_lt hp hlt) (Or.inl hlt)
  · obtain ⟨-, -, m, hm, hcolumn⟩ := mem_positions_iff.1 hp
    obtain ⟨-, -, n, hn, hcolumn'⟩ := mem_positions_iff.1 hq
    rw [offset_eq_add hm hcolumn, offset_eq_add hn hcolumn', ← hcolumn, ← hcolumn']
    simp only [heq, lt_irrefl, false_or, true_and]
    rw [heq] at hm
    rw [bytes_take_lt_iff hm.le hn.le, Nat.add_lt_add_iff_left]
  · refine iff_of_false (offset_lt_of_line_lt hq hlt).not_gt ?_
    rintro (h | ⟨h, -⟩)
    · exact absurd h hlt.not_gt
    · exact absurd h hlt.ne'

theorem exists_position {k : Nat} (hk : k < text.length) :
    ∃ p ∈ (LineTable.ofText text).positions, (LineTable.ofText text).offset p = k := by
  obtain ⟨n, h₁, h₂, hle, hlt⟩ := exists_line hk
  obtain ⟨m, rfl⟩ := Nat.exists_eq_add_of_le hle
  rw [LineTable.lineStart_succ text h₁] at hlt
  have hm := Nat.lt_of_add_lt_add_left hlt
  exact ⟨⟨n, bytes (((LineTable.ofText text).line n).take m)⟩, mem_positions_iff.2 ⟨h₁, h₂, m, hm, rfl⟩,
    offset_eq_add hm rfl⟩

theorem bijOn_offset :
    Set.BijOn (LineTable.ofText text).offset (LineTable.ofText text).positions (Set.Iio text.length) := by
  refine ⟨fun p hp => ?_, fun p hp q hq heq => ?_, fun k hk => exists_position hk⟩
  · obtain ⟨h₁, -, n, hn, hcolumn⟩ := mem_positions_iff.1 hp
    have hlt := Nat.add_lt_add_left hn ((LineTable.ofText text).lineStart p.line)
    rw [← LineTable.lineStart_succ text h₁] at hlt
    rw [Set.mem_Iio, offset_eq_add hn hcolumn]
    exact hlt.trans_le (lineStart_le_length text _)
  · by_contra hne
    have hlex : toLex (p.line, p.column) ≠ toLex (q.line, q.column) := by
      intro h
      obtain ⟨hline, hcolumn⟩ := Prod.mk.inj (toLex.injective h)
      exact hne (by cases p; cases q; simp_all)
    rcases lt_or_gt_of_ne hlex with hlt | hlt
    · exact ((offset_lt_offset_iff hp hq).2 hlt).ne heq
    · exact ((offset_lt_offset_iff hq hp).2 hlt).ne' heq

end Positions

end Text

/-! ## Answers -/

/-- Where a column ends no character, there is no offset. -/
theorem Source.offsetAt_eq (s : Source) {n : Nat} (hn : 1 ≤ n) (column : Nat) :
    s.offsetAt n column = (charsWithin (s.table.line n) column).elim (.error .insideCharacter)
      fun chars => .ok (s.table.lineStart n + chars) := by
  rw [offsetAt, lineAt, if_pos (by omega), Int.toNat_natCast, place_natCast]
  simp only [charsWithin_min_eq]
  rw [lineStartAt_eq s hn]
  cases charsWithin (s.table.line n) column <;> rfl

/-- The octets before the column are read, and the characters that they hold stand before the offset. -/
theorem Source.offsetAt_eq_ofUtf8 (s : Source) {n : Nat} (hn : 1 ≤ n) (column : Nat) :
    s.offsetAt n column = (ofUtf8 ((encode (s.table.line n)).take column)).elim (.error .insideCharacter)
      fun front => .ok (s.table.lineStart n + front.length) := by
  rw [s.offsetAt_eq hn, ofUtf8_take_encode]
  cases hchars : charsWithin (s.table.line n) column with
  | none => rfl
  | some chars =>
    rw [Option.map_some, Option.elim_some, Option.elim_some, List.length_take,
      Nat.min_eq_left (bytes_take_of_charsWithin hchars).1]

/-- The positions where the characters of a text begin are in the order of the characters, and the offset of
each is the place of its character.  A column is refused inside a character and nowhere else, and behind a
line it stands for the line's end. -/
theorem offsetAt_positions {text : List Char} {s : Source} (h : Source.parse text = .ok s) :
    Set.BijOn s.table.offset s.table.positions (Set.Iio text.length) ∧
    (∀ p ∈ s.table.positions, ∀ q ∈ s.table.positions, s.table.offset p < s.table.offset q ↔
      toLex (p.line, p.column) < toLex (q.line, q.column)) ∧
    (∀ p ∈ s.table.positions, s.offsetAt p.line p.column = .ok (s.table.offset p) ∧
      ∃ front c back, s.table.line p.line = front ++ c :: back ∧ (encode front).length = p.column ∧
        text[s.table.offset p]? = some c) ∧
    ∀ n column : Nat, 1 ≤ n → n ≤ s.table.count →
      (s.offsetAt n column = (ofUtf8 ((encode (s.table.line n)).take column)).elim (.error .insideCharacter)
        fun front => .ok (s.table.lineStart n + front.length)) ∧
      (s.offsetAt n column = .error .insideCharacter ↔ IsInside (s.table.line n) column) ∧
      ((encode (s.table.line n)).length ≤ column →
        s.offsetAt n column = .ok (s.table.lineStart n + (s.table.line n).length)) := by
  obtain ⟨-, -, -, htable⟩ := Source.exists_ended h
  refine ⟨htable ▸ bijOn_offset, fun p hp q hq => ?_, fun p hp => ?_, fun n column hn _ => ⟨?_, ?_, ?_⟩⟩
  · rw [htable] at hp hq ⊢
    exact offset_lt_offset_iff hp hq
  · obtain ⟨h₁, -, n, hn, hcolumn⟩ := mem_positions_iff.1 hp
    obtain ⟨c, hc⟩ : ∃ c, (s.table.line p.line)[n]? = some c := ⟨_, List.getElem?_eq_getElem hn⟩
    have hsplit : s.table.line p.line = (s.table.line p.line).take n ++ c :: (s.table.line p.line).drop (n + 1) := by
      obtain ⟨_, rfl⟩ := List.getElem?_eq_some_iff.1 hc
      rw [List.getElem_cons_drop, List.take_append_drop]
    refine ⟨?_, _, c, _, hsplit, ?_, ?_⟩
    · rw [s.offsetAt_eq h₁, offset_eq_add hn hcolumn, ← hcolumn, charsWithin_take _ hn.le]
      rfl
    · rw [length_encode, hcolumn]
    · rw [offset_eq_add hn hcolumn, ← hc]
      rw [htable] at hn ⊢
      exact getElem?_line h₁ hn
  · exact s.offsetAt_eq_ofUtf8 hn column
  · rw [s.offsetAt_eq hn, ← charsWithin_eq_none_iff]
    cases charsWithin (s.table.line n) column <;> simp
  · intro hle
    rw [length_encode] at hle
    rw [s.offsetAt_eq hn, charsWithin_of_le hle]
    rfl

/-- Two lines, with characters of one to four octets on the first. -/
def manyOctets : List Char := "x = 'é€𝄞'\r\ny = 0".toList

theorem offsetAt_positions_manyOctets : ∃ s, Source.parse manyOctets = .ok s ∧
    Set.BijOn s.table.offset s.table.positions (Set.Iio 16) ∧
    s.offsetAt 1 10 = .ok 7 ∧ IsInside (s.table.line 1) 11 ∧ s.offsetAt 2 7 = .ok 16 := by
  have hcheck : (Source.parse manyOctets).toOption.any (fun s => s.offsetAt 1 10 = .ok 7 ∧
      s.offsetAt 1 11 = .error .insideCharacter ∧ s.table.count = 2 ∧
      s.table.lineStart 2 + (s.table.line 2).length = 16 ∧ (encode (s.table.line 2)).length = 5) = true := by
    decide +kernel
  obtain ⟨s, hs, hoffsets⟩ := Source.exists_of_parse hcheck
  obtain ⟨hseven, hinside, hcount, hend, hlength⟩ := of_decide_eq_true hoffsets
  obtain ⟨hbij, -, -, hanswers⟩ := offsetAt_positions hs
  refine ⟨s, hs, hbij, hseven, (hanswers 1 11 le_rfl (by omega)).2.1.1 hinside, ?_⟩
  rw [← hend]
  exact (hanswers 2 7 (by omega) hcount.ge).2.2 (hlength.le.trans (by decide))

end CallTrace
