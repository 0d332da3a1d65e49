import Mathlib
import CallTrace.Proofs.Columns
import CallTrace.Proofs.Nesting

/-!
# Logical lines in the bodies of definitions

A logical line begins with the first token behind layout.  The physical line that it begins on is not blank
and does not begin inside a string literal, so that it is indented wherever the body is that it is in.

A body that is the first thing on its line and in which a logical line begins is one between a step of
indentation in and the step out that belongs to it (`Stands.exists_indented`), so that all of these lines
are indented as far as its first statement at least (`width_firstLine_le`).
-/

namespace CallTrace

open Syntax Instrument Text

/-- A logical line begins on the physical line. -/
def Syntax.StartsLogicalLine (tokens : Array Token) (n : Nat) : Prop :=
  ∃ k, FirstOfLine tokens k ∧ (startAt tokens k).line = n

instance (tokens : Array Token) (n : Nat) : Decidable (StartsLogicalLine tokens n) :=
  decidable_of_iff (∃ k < tokens.size, FirstOfLine tokens k ∧ (startAt tokens k).line = n)
    ⟨fun ⟨k, _, h⟩ => ⟨k, h⟩, fun ⟨k, h⟩ => ⟨k, lt_size_of_lexemeAt h.1.starts.choose_spec.1, h⟩⟩

theorem Syntax.Spread.head_le {tokens : Array Token} {i j : Nat} {first : Cell} {cells : List Cell}
    (h : Spread tokens i j (first :: cells)) : ∀ c ∈ first :: cells, first.lo ≤ c.lo := by
  cases h with
  | cons _ hle _ hs =>
    refine List.forall_mem_cons.2 ⟨le_rfl, fun c hc => ?_⟩
    exact hle.trans (hs.bounds c hc).1

namespace Parsed

variable {text : List Char} {s : Source} {tokens : Array Token} {a b : Nat → Nat}
  (P : Parsed text s tokens a b) {k : Nat} (hk : FirstOfLine tokens k)

include P hk

/-! ## The physical line that a logical line begins on -/

/-- Before a token that begins a logical line the logical line before it ends. -/
theorem exists_newline_before {f : Nat} (hf : StartsAt tokens f) (hfk : f < k) :
    ∃ e, f < e ∧ e < k ∧ lexemeAt tokens e = some .newline := by
  obtain ⟨n, hfn, hnk, hn, hrest, -⟩ := P.exists_stop hf hfk
  have hne : n + 1 ≠ k := fun h => hk.before n h hn
  have hsize := lt_size_of_lexemeAt hk.starts.choose_spec.1
  obtain ⟨l, hl, hlayout⟩ := hn
  obtain ⟨u, hu, rfl⟩ := Option.map_eq_some_iff.1 hl
  obtain ⟨t, ht⟩ : ∃ t, tokens[n + 1]? = some t := ⟨_, Array.getElem?_eq_getElem (by omega)⟩
  refine ⟨n + 1, by omega, by omega, ?_⟩
  rw [lexemeAt, ht, Option.map_some, Option.some.injEq]
  have hlaid : t.lexeme.isLayout = true := by
    by_contra hnot
    exact hrest (n + 1) (Nat.lt_succ_self n) (by omega) ⟨_, lexemeAt_eq ht, by simpa using hnot⟩
  -- A step of indentation comes after layout, and the end of the text last.
  cases hlex : t.lexeme with
  | newline => rfl
  | indent =>
    rw [P.lies.indentation hu ht (Or.inl hlex)] at hlayout
    cases hlayout
  | dedent =>
    rw [P.lies.indentation hu ht (Or.inr hlex)] at hlayout
    cases hlayout
  | finish =>
    have := P.lies.finish ht hlex
    omega
  | _ =>
    rw [hlex] at hlaid
    cases hlaid

theorem line_lt_of_first {f : Nat} (hf : StartsAt tokens f) (hfk : f < k) :
    (placeOf text (b f)).line < (placeOf text (a k)).line := by
  obtain ⟨e, hfe, hek, hnewline⟩ := P.exists_newline_before hk hf hfk
  exact P.line_lt_line hfe hnewline hek hk.starts

/-- A physical line is not blank if a logical line begins on it. -/
theorem isBlank_of_first : s.table.isBlank (placeOf text (a k)).line = false := by
  obtain ⟨c, hc, hblank⟩ := P.exists_first_char hk.starts
  have hone := P.one_le_line hk.starts
  have hlt : a k < (normalizeNewlines text).length := (List.getElem?_eq_some_iff.1 hc).1
  have hcount := Text.line_le_count P.terminated hlt
  obtain ⟨hchar, -⟩ := getElem?_offsetOf P.terminated (ne_of_not_isBlank hblank).1 hc
  have hstart := P.lineStart_line_le hk.starts
  have hstop : ¬ s.table.lineStart ((placeOf text (a k)).line + 1) ≤ offsetOf text (a k) := by
    rw [P.table, Text.lineStart_le_iff P.terminated (by omega) (by omega) hlt.le]
    omega
  rw [P.table] at hstart hstop ⊢
  rw [LineTable.lineStart_succ text hone] at hstop
  have hget := @getElem?_line text _
    (offsetOf text (a k) - (LineTable.ofText text).lineStart (placeOf text (a k)).line) hone (by omega)
  rw [Nat.add_sub_cancel' hstart, hchar] at hget
  rw [LineTable.isBlank, Unicode.allBlank, List.all_eq_false]
  exact ⟨c, List.mem_of_getElem? hget.symm, by simp [hblank]⟩

/-- No logical line begins on a line that begins inside a string literal. -/
theorem beginsInLiteral_of_first : s.beginsInLiteral (placeOf text (a k)).line = false := by
  rw [Bool.eq_false_iff]
  intro hliteral
  rw [Source.beginsInLiteral, P.literals, List.any_eq_true] at hliteral
  obtain ⟨span, hspan, hlines⟩ := hliteral
  obtain ⟨p, hp, hspan⟩ := List.mem_filterMap.1 hspan
  rw [Bool.and_eq_true, decide_eq_true_iff, decide_eq_true_iff] at hlines
  rw [Source.literalSpan?] at hspan
  split at hspan
  · rename_i hkind
    obtain ⟨hplace, -⟩ := Option.filter_eq_some_iff.1 hspan
    have hu := mem_walk.1 hp
    obtain ⟨r, kind, place, items, htree⟩ := Under.exists_node hu
    rw [htree] at hu hkind hplace
    obtain rfl : place = some span := hplace
    obtain ⟨i, j, hij, hunlaid, rfl⟩ := P.laid.exists_unlaid hu
      (by simpa [Kind.isText, Tree.is, Tree.kind?] using hkind)
    obtain ⟨q, hiq, hqj, hq, -, hstop⟩ := P.exists_stop (hunlaid i le_rfl hij) hij
    rw [spanBetween, P.startAt_eq (hunlaid i le_rfl hij), hstop] at hlines
    obtain ⟨hlow, hhigh⟩ : (placeOf text (a i)).line < (placeOf text (a k)).line ∧
      (placeOf text (a k)).line ≤ (placeOf text (b q)).line := hlines
    have hik : i < k := by
      by_contra hle
      have hmono : (placeOf text (a k)).line ≤ (placeOf text (a i)).line :=
        line_mono (P.a_le_a hk.starts (Nat.not_lt.1 hle) (hunlaid i le_rfl hij))
      omega
    have hkq : k ≤ q := by
      by_contra hlt
      have := P.line_lt_of_first hk hq (Nat.not_le.1 hlt)
      omega
    exact hk.before (k - 1) (by omega) (hunlaid (k - 1) (by omega) (by omega))
  · cases hspan

end Parsed

/-! ## Bodies on lines of their own -/

namespace Parsed

variable {text : List Char} {s : Source} {tokens : Array Token} {a b : Nat → Nat}
  (P : Parsed text s tokens a b) {k : Nat}

include P

section Cell

variable {c : Cell} {p q : Nat} (hends : c.Ends text tokens a b p q)

include hends

/-- What stands on the line of a statement that is the first thing there, or below, stands in it or behind. -/
theorem lo_le_of_firstLine_le (hadorned : c.tree.field .decorators ≠ [] → EndedAt tokens c.lo)
    (hstart : s.atLineStart c.tree = true) (hk : StartsAt tokens k)
    (hlow : Source.firstLine c.tree ≤ (placeOf text (a k)).line) : c.lo ≤ k := by
  by_contra hlt
  have hline := P.line_lt_firstLine hends hadorned hstart hk (Nat.not_le.1 hlt)
  have hmono : (placeOf text (a k)).line ≤ (placeOf text (b k)).line := line_mono (P.a_lt_b hk).le
  omega

/-- Where a statement is the first one behind a step of indentation in, no other token begins a logical line
on its line. -/
theorem eq_of_firstLine {x : Nat} (hnewline : lexemeAt tokens x = some .newline)
    (hindent : lexemeAt tokens (x + 1) = some .indent) (hlo : c.lo = x + 2) (hk : FirstOfLine tokens k)
    (hline : (placeOf text (a k)).line = Source.firstLine c.tree) : k = c.lo := by
  obtain ⟨f, hlof, hfp, hf, hplace, hdecorated⟩ := P.exists_first hends
  rw [hplace] at hline
  have hmono : (placeOf text (a k)).line ≤ (placeOf text (b k)).line := line_mono (P.a_lt_b hk.starts).le
  have hmono' : (placeOf text (a f)).line ≤ (placeOf text (b f)).line := line_mono (P.a_lt_b hf).le
  rcases Nat.lt_trichotomy k c.lo with hlt | heq | hgt
  · have hne {e : Nat} {l : Lexeme} (he : lexemeAt tokens e = some l) (hlayout : l.isLayout = true) : k ≠ e := by
      rintro rfl
      obtain ⟨l', hl', hnot⟩ := hk.starts
      obtain rfl := Option.some.inj (he.symm.trans hl')
      rw [hlayout] at hnot
      cases hnot
    have h₁ := hne hnewline rfl
    have h₂ := hne hindent rfl
    have := P.line_lt_line (show k < x by omega) hnewline (show x < f by omega) hf
    omega
  · exact heq
  · exfalso
    rcases Nat.lt_or_ge f k with hfk | hkf
    · have := P.line_lt_of_first hk hf hfk
      omega
    · refine hk.before (k - 1) (by omega) ?_
      rcases hdecorated with ⟨hnone, rfl⟩ | ⟨-, -, hsigns⟩
      · have hadorned := hends.adorned
        rw [hnone] at hadorned
        cases hadorned
        omega
      · obtain ⟨g, hg⟩ := hsigns (k - 1) (by omega) (by omega)
        exact ⟨_, hg, rfl⟩

end Cell

variable {d : Definition} {m i j : Nat} {body : List Cell} (h : d.Stands tokens m i j body)

include h

/-- A token above the end of a body comes before the end of the last logical line there. -/
theorem lt_of_line_le_stop {last : Cell} (hlast : last ∈ body.getLast?) (hk : StartsAt tokens k)
    (hhigh : (placeOf text (a k)).line ≤ last.tree.stop.line) : k + 1 < j := by
  obtain ⟨p, q, hends⟩ := P.exists_ends (h.laid last (List.mem_of_mem_getLast? hlast))
    (h.block.placed last (List.mem_of_mem_getLast? hlast))
  obtain ⟨e, hqe, hej, hnewline, -⟩ := exists_newline_after h.block hlast hends
  have hke : k ≠ e := by
    rintro rfl
    obtain ⟨l, hl, hlayout⟩ := hk
    obtain rfl := Option.some.inj (hnewline.symm.trans hl)
    cases hlayout
  by_contra hle
  have := P.line_lt_line hqe hnewline (by omega) hk
  rw [stop_eq hends] at hhigh
  omega

variable {head last first : Tree} (hhead : d.statements.head? = some head)
  (hlast : d.statements.getLast? = some last) (hfirst : d.body.head? = some first)
  (hstart : s.atLineStart head = true) (hk : FirstOfLine tokens k)
  (hlow : Source.firstLine head ≤ (placeOf text (a k)).line)
  (hhigh : (placeOf text (a k)).line ≤ last.stop.line)

include hhead hlast hfirst hstart hk hlow hhigh

/-- A logical line that begins on a line of a body, which is the first thing on its line, is one of those
between a step of indentation in and the step out that belongs to it. -/
theorem exists_indented : ∃ x, lexemeAt tokens x = some .newline ∧ lexemeAt tokens (x + 1) = some .indent ∧
    x + 2 ≤ k ∧ (∃ c ∈ body, c.tree = first ∧ c.lo = x + 2) ∧
    ∀ n, x + 2 ≤ n → n ≤ k → depthAt tokens (x + 2) ≤ depthAt tokens n := by
  obtain ⟨cfirst, hcfirst, rfl⟩ : ∃ c ∈ body.head?, c.tree = first := by
    rw [← h.trees, List.head?_map] at hfirst
    exact Option.map_eq_some_iff.1 hfirst
  obtain ⟨c, hc, rfl, p, q, hends⟩ :=
    P.exists_ends_of_mem h (h.mem_of_statements (List.mem_of_mem_head? hhead))
  obtain ⟨clast, hclast, rfl⟩ := h.exists_last (h.getLast?_of_statements hlast)
  have hafter := P.lo_le_of_firstLine_le hends (h.block.adorned c hc) hstart hk.starts hlow
  have hbefore := P.lt_of_line_le_stop h hclast hk.starts hhigh
  have hlo := (h.block.spread.bounds c hc).1
  rcases h.block.hung with ⟨-, hunlaid⟩ | ⟨hnewline, hindent, hfront, hxj, hnested, -⟩
  · have hm := h.lt
    exact absurd (hunlaid (k - 1) (by omega) (by omega)) (hk.before (k - 1) (by omega))
  · have hlofirst := hfront cfirst hcfirst
    refine ⟨i, hnewline, hindent, ?_, ⟨cfirst, List.mem_of_mem_head? hcfirst, rfl, hlofirst⟩,
      fun n hin hnk => hnested.le n hin (by omega)⟩
    have hspread := h.block.spread
    cases body with
    | nil => cases hc
    | cons first cells =>
      obtain rfl : first = cfirst := by simpa using hcfirst
      have := hspread.head_le c hc
      omega

/-- All logical lines that begin in the body are indented as far as its first statement at least, if that
is the first thing of a logical line on its line. -/
theorem width_firstLine_le {stack : Nat → List Indent} (hL : Levels text tokens stack)
    (hjoined : s.table.isJoined ((placeOf text (a k)).line - 1) = false)
    (hbegins : StartsLogicalLine tokens (Source.firstLine first))
    (hjoined' : s.table.isJoined (Source.firstLine first - 1) = false) :
    width (s.table.indentation (Source.firstLine first)) ≤
      width (s.table.indentation (placeOf text (a k)).line) := by
  obtain ⟨x, hnewline, hindent, hxk, ⟨c, hc, rfl, hlo⟩, hdepth⟩ :=
    P.exists_indented h hhead hlast hfirst hstart hk hlow hhigh
  obtain ⟨p, q, hends⟩ := P.exists_ends (h.laid c hc) (h.block.placed c hc)
  obtain ⟨n, hn, hplace⟩ := hbegins
  rw [P.startAt_eq hn.starts] at hplace
  obtain rfl : n = x + 2 := (P.eq_of_firstLine hends hnewline hindent hlo hn hplace).trans hlo
  rw [← hplace] at hjoined' ⊢
  rw [(P.indentation_of_first hL hn).2 hjoined', (P.indentation_of_first hL hk).2 hjoined]
  exact hL.wide_le hxk (lt_size_of_lexemeAt hk.starts.choose_spec.1).le hdepth

end Parsed

end CallTrace
