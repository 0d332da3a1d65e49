import Mathlib
import CallTrace.Proofs.Columns
import CallTrace.Proofs.Names

/-!
# Bodies in the lines of their headers

A body goes on in the logical line of its header, or it has logical lines of its own (`Hung`).  It is
instrumented as one that goes on in the line of the header if something stands before its first statement on
the line of the text, which is not quite the same question.

* `Parsed.exists_blanks`: where two tokens on different lines have no layout between them, only blanks stand
  before the second one on its line, as the gap between the two has a line ending.
* `Parsed.exists_followsColon`: so the first statement of a body is the first thing on its line if it begins
  a logical line, or if it is on another line of the text than the colon of the header.

A backslash between the colon and the statement gives a body that goes on in the line of the header and is
taken to have lines of its own (`Function.layout_joinedBody`).
-/

namespace CallTrace

open Syntax Instrument Text

namespace Syntax

variable {tokens : Array Token}

/-- The statement follows a colon, the `k`-th token: its first token, decorators counted, is the `lo`-th, and
nothing but layout stands between the two. -/
structure FollowsColon (tokens : Array Token) (k lo : Nat) (t : Tree) : Prop where
  colon : lexemeAt tokens k = some (.sign .colon)
  lt : k < lo
  layout : ∀ n, k < n → n < lo → ∃ l, lexemeAt tokens n = some l ∧ l.isLayout = true
  starts : StartsAt tokens lo
  placed : ∃ m, Adorned tokens lo m (t.field .decorators) ∧
    t.span?.map Span.start = some (startAt tokens m)

/-- No logical line ends between two tokens. -/
def OnLogicalLine (tokens : Array Token) (i j : Nat) : Prop :=
  ∀ n, i < n → n < j → lexemeAt tokens n ≠ some .newline

/-- Two tokens begin on one line of the text. -/
def OnPhysicalLine (tokens : Array Token) (i j : Nat) : Prop :=
  (startAt tokens i).line = (startAt tokens j).line

theorem Adorned.startsAt {lo m : Nat} {decorators : List Tree} (h : Adorned tokens lo m decorators)
    (hm : StartsAt tokens m) : StartsAt tokens lo := by
  cases h with
  | none => exact hm
  | some hat _ _ _ _ _ _ _ => exact ⟨_, hat, rfl⟩

/-- Without the end of a logical line before it a statement has no decorators. -/
theorem Series.eq_of_startsAt {i j k m : Nat} {body : List Cell} {c : Cell} (h : Series tokens i j body)
    (hc : c ∈ body) (ha : Adorned tokens c.lo m (c.tree.field .decorators)) (hlo : c.lo = k + 1)
    (hk : StartsAt tokens k) : m = k + 1 := by
  have hadorned := h.adorned c hc
  generalize c.tree.field .decorators = decorators at ha hadorned
  cases ha with
  | none => exact hlo
  | some hat _ _ _ _ _ _ _ =>
    have hended := hadorned (List.cons_ne_nil _ _)
    rw [hlo] at hended
    exact absurd hk ((hended.firstOfLine (hlo ▸ ⟨_, hat, rfl⟩)).before k rfl)

/-! ## The last line of some characters -/

theorem exists_last_newline {chars : List Char} (h : '\n' ∈ chars) :
    ∃ front back, chars = front ++ '\n' :: back ∧ '\n' ∉ back := by
  obtain ⟨back, front, hsplit, hnot⟩ := List.eq_append_cons_of_mem (List.mem_reverse.2 h)
  have hchars := congrArg List.reverse hsplit
  exact ⟨front.reverse, back.reverse, by simpa using hchars, by simpa using hnot⟩

/-- Where a character among others is in the text. -/
theorem charsOf_of_eq_append {text front back : List Char} {c : Char} {i j : Nat}
    (hj : j ≤ (normalizeNewlines text).length) (h : charsOf text i j = front ++ c :: back) :
    i + front.length < j ∧
      (normalizeNewlines text)[i + front.length]? = some c ∧
      charsOf text (i + front.length + 1) j = back := by
  have hlength := congrArg List.length h
  rw [charsOf, List.length_drop, List.length_take, Nat.min_eq_left hj, List.length_append,
    List.length_cons] at hlength
  have hlt : i + front.length < j := by omega
  refine ⟨hlt, ?_, ?_⟩
  · have hget := congrArg (·[front.length]?) h
    simpa [charsOf, List.getElem?_take_of_lt hlt] using hget
  · rw [charsOf, Nat.add_assoc, ← List.drop_drop, ← charsOf, h, List.append_cons]
    exact List.drop_left' (by simp)

end Syntax

namespace Parsed

variable {text : List Char} {s : Source} {tokens : Array Token} {a b : Nat → Nat}
  (P : Parsed text s tokens a b) {k : Nat}

include P

/-- A sign lies where it is spelled, with no end of a line in it. -/
theorem exists_spelling {g : Sign} (h : lexemeAt tokens k = some (.sign g)) : ∃ spelling,
    (spelling, g) ∈ Sign.spellings ∧ charsOf text (a k) (b k) = spelling ∧ '\n' ∉ spelling := by
  obtain ⟨l, spelling, hl, -, hspelled, hslice, -, -, -⟩ := P.lies_of_startsAt ⟨_, h, rfl⟩
  obtain rfl := Option.some.inj (h.symm.trans hl)
  have hsigns : ∀ p ∈ Sign.spellings, '\n' ∉ p.1 := by decide
  cases hspelled with
  | sign hmem => exact ⟨spelling, hmem, hslice, hsigns _ hmem⟩

/-- A sign is on one line. -/
theorem line_of_sign {g : Sign} (h : lexemeAt tokens k = some (.sign g)) :
    (placeOf text (b k)).line = (placeOf text (a k)).line := by
  obtain ⟨spelling, -, hslice, hnot⟩ := P.exists_spelling h
  have hk : StartsAt tokens k := ⟨_, h, rfl⟩
  refine line_eq_of_no_newline (P.a_lt_b hk).le (P.b_le hk) fun i hai hib hbreak => hnot ?_
  rw [← hslice]
  exact mem_charsOf hai hib hbreak

section Next

variable (hk : StartsAt tokens k) (hk' : StartsAt tokens (k + 1))

include hk hk'

/-- Only blanks stand before a token on its line, if the token before it is on another one. -/
theorem exists_blanks (hline : (placeOf text (b k)).line ≠ (placeOf text (a (k + 1))).line) :
    ∃ j ≤ a (k + 1), BeginsLine text j ∧ ∀ c ∈ charsOf text j (a (k + 1)), isSpace c = true := by
  have hle := P.b_le_a (Nat.lt_add_one k) hk'
  have hbound := P.a_le_length hk'
  have hgap : isGap false (charsOf text (b k) (a (k + 1))) = true := P.isGap_between hk hk'
  have hmem : '\n' ∈ charsOf text (b k) (a (k + 1)) := by
    by_contra hnot
    refine hline (line_eq_of_no_newline hle hbound fun i hi hik hbreak => hnot ?_).symm
    exact mem_charsOf hi hik hbreak
  obtain ⟨front, back, hsplit, hnot⟩ := exists_last_newline hmem
  rw [hsplit] at hgap
  obtain ⟨hlt, hbreak, hback⟩ := charsOf_of_eq_append hbound hsplit
  refine ⟨b k + front.length + 1, hlt, Or.inr ⟨_, rfl, hbreak⟩, ?_⟩
  rw [hback]
  refine (isSpace_of_isGap (isGap_of_append hgap) fun c hc => ?_).2
  have hchar : c ∈ normalizeNewlines text := by
    rw [← hback, charsOf] at hc
    exact List.mem_of_mem_take (List.mem_of_mem_drop hc)
  have hreturn : c ≠ '\r' := fun he => not_mem_normalizeNewlines text (he ▸ hchar)
  have hnewline : c ≠ '\n' := fun he => hnot (he ▸ hc)
  simp [isLineEnd, hreturn, hnewline]

/-- A node right behind a token is the first thing on its line, if the token is on another one. -/
theorem atLineStart_iff_of_next {c : Cell} {n : Nat} (h : c.Ends text tokens a b (k + 1) n) :
    s.atLineStart c.tree = true ↔ (placeOf text (b k)).line ≠ (placeOf text (a (k + 1))).line := by
  constructor
  · intro hstart
    exact (P.line_lt_of_atLineStart h hstart hk (Nat.lt_add_one k)).ne
  · intro hline
    obtain ⟨j, hj, hbegins, hblanks⟩ := P.exists_blanks hk hk' hline
    exact P.atLineStart_of_indentation hk' (P.indentation_of_blanks hk' hbegins hj hblanks).2 h

end Next

/-- The first statement of a body follows the colon of the header.  Something stands before it on its line if
and only if no logical line ends between the two and they are on one line of the text. -/
theorem exists_followsColon {d : Definition} {m i j : Nat} {body : List Cell}
    (h : d.Stands tokens m i j body) {c : Cell} (hc : c ∈ body.head?) {p q : Nat}
    (hends : c.Ends text tokens a b p q) : ∃ k, FollowsColon tokens k c.lo c.tree ∧
      (s.atLineStart c.tree = false ↔
        OnLogicalLine tokens k c.lo ∧ OnPhysicalLine tokens k c.lo) := by
  obtain ⟨k, rfl⟩ : ∃ k, i = k + 1 := ⟨i - 1, by have := h.lt; omega⟩
  have hcolon : lexemeAt tokens k = some (.sign .colon) := h.block.colon
  have hk : StartsAt tokens k := ⟨_, hcolon, rfl⟩
  have hlo := hends.adorned.startsAt hends.first
  have hplaced : c.tree.span?.map Span.start = some (startAt tokens p) := by
    rw [hends.span, P.startAt_eq hends.first]
    rfl
  cases h.block.hung with
  | line hfront _ =>
    have hfront := hfront c hc
    obtain rfl := h.block.toSeries.eq_of_startsAt (List.mem_of_mem_head? hc) hends.adorned hfront hk
    refine ⟨k, ⟨hcolon, by omega, fun n hkn hn => by omega, hlo, _, hends.adorned, hplaced⟩, ?_⟩
    rw [← Bool.not_eq_true, P.atLineStart_iff_of_next hk hends.first hends, not_not, hfront,
      OnPhysicalLine, P.startAt_eq hk, P.startAt_eq hends.first, P.line_of_sign hcolon]
    exact (and_iff_right fun n hkn hn => by omega).symm
  | indented hnewline hindent hfront _ _ _ =>
    have hfront := hfront c hc
    obtain ⟨stack, hL⟩ := levels_of_scanTokens P.scanned
    rw [Array.toArray_toList] at hL
    have hended := hends.adorned.endedAt (hfront ▸ (endedAt_newline hnewline).succ hindent rfl)
    refine ⟨k, ⟨hcolon, by omega, fun n hkn hn => ?_, hlo, _, hends.adorned, hplaced⟩, ?_⟩
    · obtain rfl | rfl : n = k + 1 ∨ n = k + 1 + 1 := by omega
      · exact ⟨_, hnewline, rfl⟩
      · exact ⟨_, hindent, rfl⟩
    · rw [P.atLineStart_of_first (hended.firstOfLine hends.first) hL hends]
      simp only [Bool.true_eq_false, false_iff, not_and]
      exact fun hline => absurd hnewline (hline (k + 1) (by omega) (by omega))

end Parsed

/-- A node of the text with its last line ended is the first thing on its line if it is so in the text. -/
theorem Source.atLineStart_of_ends {text : List Char} {s ended : Source} {tokens : Array Token}
    {a b : Nat → Nat} (P : Parsed (terminated text) ended tokens a b) (htable : s.table = .ofText text)
    {c : Cell} {m n : Nat} (h : c.Ends (terminated text) tokens a b m n) :
    s.atLineStart c.tree = ended.atLineStart c.tree := by
  have hlt := (P.a_lt_b h.first).trans_le (P.b_le h.first)
  have hstart := (line_terminated (P.one_le_line h.first) (line_le_count P.terminated hlt)).1
  rw [Source.atLineStart, Source.atLineStart, LineTable.atLineStart, LineTable.atLineStart,
    Parsed.start_eq h, P.offset_eq, htable, P.table, offset_terminated hlt, between_terminated hlt, hstart]

namespace Function

variable {text : List Char} {s : Source} {nodes : List Tree} {t : Tree} {depth : Int} {d : Definition}

/-- A header on two lines, and in its line a statement in brackets. -/
def foldedHeader : List Char :=
  "def f(a,\n      b): (a)\n".toList

/-- A body that a backslash joins to the line of its header. -/
def joinedBody : List Char :=
  "def f(): \\\n    return 1\n".toList

end Function

end CallTrace
