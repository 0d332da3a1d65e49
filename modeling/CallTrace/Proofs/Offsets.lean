import Mathlib
import CallTrace.Proofs.Placement
import CallTrace.Proofs.Wrapping

/-!
# Offsets of edits and tokens

A token `IsOutside` of an offset that is not between its first and its last character.  The ends of
tokens are outside of all tokens (`Parsed.first_outside`, `Parsed.last_outside`); the beginnings of
lines are outside of the tokens that do not run over them (`Parsed.lineStart_outside`), and so are the
places where lines are indented (`Parsed.shiftPoint_outside`).

`Parsed.offsetAt_eq` says that the places of nodes are offsets.  The rest says what comes before the
first statement of a body on lines of its own (`Parsed.line_lt_firstLine`,
`Parsed.line_lt_of_decorated`) and what comes after the last statement of a body
(`Parsed.exists_newline_after`).
-/

namespace CallTrace

open Syntax Instrument Text

/-- An offset is not between the first and the last character of a token. -/
def IsOutside (text : List Char) (a b : Nat → Nat) (n x : Nat) : Prop :=
  x ≤ offsetOf text (a n) ∨ offsetOf text (b n) ≤ x

theorem Text.charsWithin_min {line : List Char} : ∀ {column chars : Nat},
    charsWithin line column = some chars → charsWithin line (min (bytes line) column) = some chars := by
  induction line with
  | nil =>
    intro column chars h
    cases column <;> exact h
  | cons c rest ih =>
    intro column chars h
    have hcons (k : Nat) : charsWithin (c :: rest) (k + 1) =
        if c.utf8Size ≤ k + 1 then (charsWithin rest (k + 1 - c.utf8Size)).map (· + 1) else none := rfl
    cases column with
    | zero =>
      rw [Nat.min_zero]
      exact h
    | succ column =>
      rw [hcons] at h
      split at h
      · rename_i hle
        obtain ⟨n, hn, rfl⟩ := Option.map_eq_some_iff.1 h
        have hpos := Char.utf8Size_pos c
        obtain ⟨k, hk⟩ : ∃ k, min (bytes (c :: rest)) (column + 1) = k + 1 :=
          ⟨min (bytes (c :: rest)) (column + 1) - 1, by rw [bytes]; omega⟩
        have hsub : k + 1 - c.utf8Size = min (bytes rest) (column + 1 - c.utf8Size) := by
          rw [← hk, bytes]
          omega
        rw [hk, hcons, if_pos (by rw [← hk, bytes]; omega), hsub, ih hn]
        rfl
      · cases h

theorem Source.lineStartAt_eq (s : Source) {n : Nat} (hn : 1 ≤ n) :
    s.lineStartAt n = .ok (s.table.lineStart n) := by
  rw [Source.lineStartAt, LineTable.lineStart]
  simp only
  split
  · rename_i hlt
    rw [List.getElem?_eq_none (by rw [LineTable.count] at hlt; omega)]
    rfl
  · rename_i hle
    have hlt : n - 1 < s.table.lines.length := by
      rw [LineTable.count] at hle
      omega
    have hindex : ((n : Int) - 1).toNat = n - 1 := by omega
    rw [if_neg (by omega), if_neg (by omega), hindex, List.getElem?_eq_getElem hlt]
    rfl

/-- A `pass` is one token. -/
theorem Syntax.Cell.Ends.of_pass {text : List Char} {tokens : Array Token} {a b : Nat → Nat} {c : Cell}
    {m n : Nat} (h : c.Ends text tokens a b m n) (hl : Laid tokens c)
    (hp : c.tree.is .passStmt = true) :
    m = c.lo ∧ n = c.lo ∧ lexemeAt tokens c.lo = some (.keyword .passWord) := by
  have hle := h.adorned.le
  have hmn := h.le
  have hlt := h.lt
  cases hl with
  | leaf _ => cases hp
  | literal hk _ _ _ => rcases hk with ⟨rfl, -⟩ | rfl <;> cases hp
  | node _ _ hpass _ _ _ _ _ _ _ _ _ =>
    obtain ⟨-, hlex, rfl⟩ := hpass (by simpa [Tree.is, Tree.kind?] using hp)
    simp only at hle hlt
    exact ⟨by simp only; omega, by simp only; omega, hlex⟩
  | lambda _ _ _ _ _ _ _ _ _ _ => cases hp
  | definition hk _ _ _ _ _ _ _ _ _ _ _ =>
    obtain rfl : _ = Kind.passStmt := by simpa [Tree.is, Tree.kind?] using hp
    cases hk

namespace Parsed

variable {text : List Char} {s : Source} {tokens : Array Token} {a b : Nat → Nat}
  (P : Parsed text s tokens a b)

include P

/-! ## Lines of tokens -/

theorem lineStart_le_iff {line k : Nat} (h₁ : 1 ≤ line) (h₂ : line ≤ s.table.count + 1)
    (hk : k ≤ (normalizeNewlines text).length) :
    s.table.lineStart line ≤ offsetOf text k ↔ line ≤ (placeOf text k).line := by
  rw [P.table] at h₂ ⊢
  exact Text.lineStart_le_iff P.terminated h₁ h₂ hk

theorem one_le_line {f : Nat} (hf : StartsAt tokens f) : 1 ≤ (placeOf text (a f)).line :=
  Text.one_le_line P.terminated (P.a_le_length hf)

theorem line_le_count_succ {f : Nat} (hf : StartsAt tokens f) :
    (placeOf text (a f)).line ≤ s.table.count + 1 :=
  P.table ▸ Text.line_le_count_succ P.terminated (P.a_le_length hf)

/-- What stands behind the beginning of a token's line is on the line or below. -/
theorem lineStart_line_le_iff {f k : Nat} (hf : StartsAt tokens f)
    (hk : k ≤ (normalizeNewlines text).length) :
    s.table.lineStart (placeOf text (a f)).line ≤ offsetOf text k ↔
      (placeOf text (a f)).line ≤ (placeOf text k).line :=
  P.lineStart_le_iff (P.one_le_line hf) (P.line_le_count_succ hf) hk

/-- The line of a token begins at the token or before. -/
theorem lineStart_line_le {f : Nat} (hf : StartsAt tokens f) :
    s.table.lineStart (placeOf text (a f)).line ≤ offsetOf text (a f) :=
  (P.lineStart_line_le_iff hf (P.a_le_length hf)).2 le_rfl

/-! ## Places of nodes -/

theorem offsetAt_placeOf {k : Nat} (hk : k ≤ (normalizeNewlines text).length) :
    s.offsetAt (placeOf text k).line (placeOf text k).column = .ok (offsetOf text k) := by
  obtain ⟨chars, hchars, hoffset⟩ := charsWithin_placeOf P.terminated hk
  have hone := Text.one_le_line P.terminated hk
  rw [Source.offsetAt, Source.lineAt, if_pos (by omega), Int.toNat_natCast, P.table, place_natCast]
  simp only [charsWithin_min hchars]
  rw [Source.lineStartAt_eq s hone, P.table, hoffset]
  rfl

/-- A node with a place begins where a token begins and ends where a token ends. -/
theorem exists_span {nodes : List Tree} {t : Tree} (hu : Under [] s.tree nodes t) {span : Span}
    (hspan : t.span? = some span) : ∃ m n, m ≤ n ∧ StartsAt tokens m ∧ StartsAt tokens n ∧
      span = ⟨placeOf text (a m), placeOf text (b n)⟩ := by
  obtain ⟨i, j, hi, hij, rfl⟩ : ∃ i j, StartsAt tokens i ∧ i < j ∧ span = spanBetween tokens i j := by
    rcases P.laid.under hu with ⟨d, rfl, hd, -, -⟩ | ⟨-, i, j, -, hij, -, hunlaid, hevery⟩
    · obtain ⟨m, hm, hstart, rfl, -⟩ := hd.exists_start hspan
      exact ⟨m, d.hi, hstart, hm, rfl⟩
    · obtain ⟨r, k, place, ts, rfl⟩ := Under.exists_node hu
      exact ⟨i, j, hunlaid i le_rfl hij, hij, (Tree.every_node_iff.1 hevery).1.2 span hspan⟩
  obtain ⟨q, hiq, -, hq, -, hstop⟩ := P.exists_stop hi hij
  exact ⟨i, q, hiq, hi, hq, by rw [spanBetween, P.startAt_eq hi, hstop]⟩

/-- Where a node begins and where it ends is no character's middle. -/
theorem offsetAt_eq {nodes : List Tree} {t : Tree} (hu : Under [] s.tree nodes t) {span : Span}
    (hspan : t.span? = some span) :
    s.offsetAt span.start.line span.start.column = .ok (s.start t) ∧
      s.offsetAt span.stop.line span.stop.column = .ok (s.stop t) := by
  obtain ⟨m, n, -, hm, hn, rfl⟩ := P.exists_span hu hspan
  have hstart : t.start = placeOf text (a m) := by
    rw [Tree.start, hspan]
    rfl
  have hend : t.stop = placeOf text (b n) := by
    rw [Tree.stop, hspan]
    rfl
  rw [Source.start, Source.stop, hstart, hend, P.offset_eq, P.offset_eq]
  exact ⟨P.offsetAt_placeOf (P.a_le_length hm), P.offsetAt_placeOf (P.b_le hn)⟩

/-! ## Offsets outside of tokens -/

section Outside

variable {n : Nat} (hn : StartsAt tokens n)

include hn

theorem first_outside {i : Nat} (hi : StartsAt tokens i) :
    IsOutside text a b n (offsetOf text (a i)) := by
  rcases Nat.lt_or_ge n i with hni | hin
  · exact Or.inr (offsetOf_le P.terminated (P.b_le_a hni hi) (P.a_le_length hi))
  · exact Or.inl (offsetOf_le P.terminated (P.a_le_a hi hin hn) (P.a_le_length hn))

theorem last_outside {i : Nat} (hi : StartsAt tokens i) :
    IsOutside text a b n (offsetOf text (b i)) := by
  rcases Nat.lt_or_ge i n with hin | hni
  · exact Or.inl (offsetOf_le P.terminated (P.b_le_a hin hn) (P.a_le_length hn))
  · exact Or.inr (offsetOf_le P.terminated (P.b_le_b hni hi) (P.b_le hi))

/-- A line that begins at or before a token, or after it, does not begin inside of it. -/
theorem lineStart_outside {line : Nat} (h₁ : 1 ≤ line) (h₂ : line ≤ s.table.count + 1)
    (h : ¬ ((placeOf text (a n)).line < line ∧ line ≤ (placeOf text (b n)).line)) :
    IsOutside text a b n (s.table.lineStart line) := by
  have ha := P.lineStart_le_iff h₁ h₂ (P.a_le_length hn)
  have hb := P.lineStart_le_iff h₁ h₂ (P.b_le hn)
  by_contra hx
  simp only [IsOutside, not_or, Nat.not_le] at hx
  refine h ⟨?_, hb.1 hx.2.le⟩
  by_contra hle
  exact absurd (ha.2 (Nat.not_lt.1 hle)) (Nat.not_le.2 hx.1)

/-- A line is not indented inside a token either, unless the token begins with a form feed. -/
theorem shiftPoint_outside {line : Nat} {c : Char} (h₁ : 1 ≤ line) (h₂ : line ≤ s.table.count + 1)
    (hc : (normalizeNewlines text)[a n]? = some c) (hnewline : c ≠ '\n') (hfeed : c ≠ '\x0c')
    (h : ¬ ((placeOf text (a n)).line < line ∧ line ≤ (placeOf text (b n)).line)) :
    IsOutside text a b n (s.table.shiftPoint line) := by
  by_contra hx
  simp only [IsOutside, not_or, Nat.not_le] at hx
  obtain ⟨hx₁, hx₂⟩ := hx
  rw [P.table] at h₂ hx₁ hx₂
  have hle : (LineTable.ofText text).lineStart line ≤ (LineTable.ofText text).shiftPoint line :=
    Nat.le_add_right _ _
  have hb := (Text.lineStart_le_iff P.terminated h₁ h₂ (P.b_le hn)).1 (hle.trans hx₂.le)
  rcases Nat.lt_or_ge (placeOf text (a n)).line line with ha | ha
  · exact h ⟨ha, hb⟩
  · -- Then the token stands between the line's start and the end of its form feeds.
    have hstart := (Text.lineStart_le_iff P.terminated h₁ h₂ (P.a_le_length hn)).2 ha
    have hchar := (getElem?_offsetOf P.terminated hnewline hc).1
    rw [getElem?_of_lt_shiftPoint h₁ hstart hx₁] at hchar
    exact hfeed (Option.some.inj hchar).symm

end Outside

/-! ## Around a body -/

/-- A statement of a body on its tokens. -/
theorem exists_ends_of_mem {d : Definition} {m i j : Nat} {body : List Cell} {t : Tree}
    (h : d.Stands tokens m i j body) (ht : t ∈ d.body) :
    ∃ c ∈ body, c.tree = t ∧ ∃ m n, c.Ends text tokens a b m n := by
  obtain ⟨c, hc, rfl⟩ := h.exists_cell ht
  exact ⟨c, hc, rfl, P.exists_ends (h.laid c hc) (h.block.placed c hc)⟩

/-- Only blanks stand before a statement that begins its line. -/
theorem lt_lineStart_of_atLineStart {c : Cell} {m q k : Nat} {x : Char} (h : c.Ends text tokens a b m q)
    (hstart : s.atLineStart c.tree = true) (hx : (normalizeNewlines text)[k]? = some x)
    (hnewline : x ≠ '\n') (hblank : Unicode.isBlank x = false) (hk : k < a m) :
    offsetOf text k < s.table.lineStart (placeOf text (a m)).line := by
  by_contra hle
  have hchar := (getElem?_offsetOf P.terminated hnewline hx).1
  rw [Source.atLineStart, LineTable.atLineStart, start_eq h, P.offset_eq, Unicode.allBlank,
    List.all_eq_true] at hstart
  have htext : s.table.text = text := by rw [P.table, LineTable.ofText]
  have hall := hstart x (mem_between (by rw [htext]; exact hchar) (Nat.not_lt.1 hle)
    (offsetOf_lt P.terminated hk (P.a_le_length h.first)))
  rw [hblank] at hall
  cases hall

/-- So the tokens before it stand on earlier lines. -/
theorem line_lt_of_atLineStart {c : Cell} {m q n : Nat} (h : c.Ends text tokens a b m q)
    (hstart : s.atLineStart c.tree = true) (hn : StartsAt tokens n) (hnm : n < m) :
    (placeOf text (b n)).line < (placeOf text (a m)).line := by
  obtain ⟨k, hk⟩ : ∃ k, b n = k + 1 := ⟨b n - 1, by have := P.a_lt_b hn; omega⟩
  have hle := P.b_le hn
  have hkm := P.b_le_a hnm h.first
  obtain ⟨x, hx⟩ : ∃ x, (normalizeNewlines text)[k]? = some x :=
    ⟨_, List.getElem?_eq_getElem (by omega)⟩
  have hne : x ≠ '\n' := fun e => P.getElem?_ne_of_last hn hk (e ▸ hx)
  have hlt := P.lt_lineStart_of_atLineStart h hstart hx hne (P.isBlank_last hn hk hx) (by omega)
  rw [hk, placeOf_succ hx, Position.step, if_neg hne]
  by_contra hge
  exact absurd ((P.lineStart_line_le_iff h.first (by omega)).2 (Nat.not_lt.1 hge)) (Nat.not_le.2 hlt)

/-- What comes before the end of a logical line stands on earlier lines than what comes after it. -/
theorem line_lt_of_ended {i f n : Nat} (hended : EndedAt tokens i) (hni : n < i) (hif : i ≤ f)
    (hn : StartsAt tokens n) (hf : StartsAt tokens f) :
    (placeOf text (b n)).line < (placeOf text (a f)).line := by
  obtain ⟨e, he, hnewline, hlayout⟩ := hended
  refine P.line_lt_line ?_ hnewline (he.trans_le hif) hf
  by_contra hle
  obtain ⟨l, hl, hlay⟩ := hlayout n (Nat.not_lt.1 hle) hni
  obtain ⟨l', hl', hnot⟩ := hn
  rw [hl', Option.some.injEq] at hl
  rw [hl, hlay] at hnot
  cases hnot

/-- What comes before a statement that begins its line stands on lines before its first one. -/
theorem line_lt_firstLine {c : Cell} {m q n : Nat} (h : c.Ends text tokens a b m q)
    (hadorned : c.tree.field .decorators ≠ [] → EndedAt tokens c.lo)
    (hstart : s.atLineStart c.tree = true) (hn : StartsAt tokens n) (hnc : n < c.lo) :
    (placeOf text (b n)).line < Source.firstLine c.tree := by
  obtain ⟨f, hlo, -, hf, hline, hcase⟩ := P.exists_first h
  rw [hline]
  rcases hcase with ⟨-, rfl⟩ | ⟨hne, -⟩
  · exact P.line_lt_of_atLineStart h hstart hn (hnc.trans_le hlo)
  · exact P.line_lt_of_ended (hadorned hne) hnc hlo hn hf

/-- What comes before a statement with decorators, its signs apart, stands on earlier lines than the
first decorator. -/
theorem line_lt_of_decorated {c : Cell} {f n : Nat} (hended : EndedAt tokens c.lo)
    (hsigns : ∀ k, c.lo ≤ k → k < f → ∃ g, lexemeAt tokens k = some (.sign g)) (hlo : c.lo ≤ f)
    (hf : StartsAt tokens f) (hn : StartsAt tokens n) (hsign : ∀ g, lexemeAt tokens n ≠ some (.sign g))
    (hnf : n < f) : (placeOf text (b n)).line < (placeOf text (a f)).line := by
  rcases Nat.lt_or_ge n c.lo with hnc | hnc
  · exact P.line_lt_of_ended hended hnc hlo hn hf
  · obtain ⟨g, hg⟩ := hsigns n hnc hnf
    exact absurd hg (hsign g)

omit P in
/-- After the last statement of a body its line ends, with a semicolon at most before. -/
theorem exists_newline_after {c : Cell} {i j m q : Nat} {body : List Cell} (hb : Block tokens i j body)
    (hc : c ∈ body.getLast?) (h : c.Ends text tokens a b m q) :
    ∃ e, q < e ∧ e < j ∧ lexemeAt tokens e = some .newline ∧
      ∀ k, q < k → k < e → StartsAt tokens k → lexemeAt tokens k = some (.sign .semicolon) := by
  obtain ⟨e, hej, hnewline, hlayout, hsemicolon⟩ := hb.ends c hc
  have hcj := (hb.spread.bounds c (List.mem_of_mem_getLast? hc)).2.2
  refine ⟨e, ?_, hej, hnewline, fun k hqk hke hk => ?_⟩
  · by_contra hle
    obtain ⟨l, hl, hlay⟩ := hlayout q (Nat.not_lt.1 hle) (h.lt.trans_le hcj)
    obtain ⟨l', hl', hnot⟩ := h.last
    rw [hl', Option.some.injEq] at hl
    rw [hl, hlay] at hnot
    cases hnot
  · have hck : c.hi ≤ k := by
      by_contra hlt
      exact h.rest k hqk (Nat.not_le.1 hlt) hk
    rcases hsemicolon with hle | ⟨rfl, hsign, -⟩
    · omega
    · obtain rfl : k = c.hi := by omega
      exact hsign

/-- The lines that are indented are lines of the text. -/
theorem bounds_of_mem_shiftedLines {d : Definition} {m i j : Nat} {body : List Cell}
    (h : d.Stands tokens m i j body) {line : Nat} (hline : line ∈ d.shiftedLines s) :
    1 ≤ line ∧ line ≤ s.table.count := by
  obtain ⟨head, last, hhead, hlast, -, -, h₁, h₂, -, -⟩ := Definition.mem_shiftedLines_iff.1 hline
  obtain ⟨c, -, rfl, m, q, hends⟩ :=
    P.exists_ends_of_mem h (h.mem_of_statements (List.mem_of_mem_head? hhead))
  obtain ⟨c', -, rfl, m', q', hends'⟩ :=
    P.exists_ends_of_mem h (h.mem_of_statements (List.mem_of_mem_getLast? hlast))
  obtain ⟨f, -, -, hf, hfirst, -⟩ := P.exists_first hends
  have hone := P.one_le_line hf
  have hcount := P.line_le_count hends'.last
  rw [stop_eq hends'] at h₂
  rw [hfirst] at h₁
  omega

end Parsed

end CallTrace
