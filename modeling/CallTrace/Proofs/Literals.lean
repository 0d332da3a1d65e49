import Mathlib
import CallTrace.Proofs.Edit
import CallTrace.Proofs.Offsets

/-!
# String literals are left alone

No edit of a pass falls inside a string literal.  The line above a body of its own lines begins after
the last literal before it, since only blanks stand before the first statement; the line below it
begins before the next literal, since the last statement's line is ended (`Parsed.above_outside`,
`Parsed.below_outside`).  A line that is indented does not begin inside a literal, because each literal
lies inside a node that says so (`Laid.exists_literal`, `Parsed.shift_outside`).

`Parsed.edit_outside` puts this together, and `literal_kept` says that every literal stands in the
instrumented text as it does in the source.
-/

namespace CallTrace

open Syntax Instrument Text

/-! ## Characters of literals -/

theorem ne_of_isQuote {c : Char} (h : isQuote c = true) : c ≠ '\n' := by
  rintro rfl
  cases h

theorem ne_of_not_isBlank {c : Char} (h : Unicode.isBlank c = false) : c ≠ '\n' ∧ c ≠ '\x0c' := by
  constructor <;> rintro rfl <;> revert h <;> decide

/-! ## Nodes of literals -/

namespace Syntax

variable {tokens : Array Token}

/-- Every string literal belongs to a node whose tokens are string literals. -/
theorem Laid.exists_literal {c : Cell} (h : Laid tokens c) {n : Nat} {spelling : List Char}
    (hlo : c.lo ≤ n) (hhi : n < c.hi) (hn : lexemeAt tokens n = some (.string spelling)) :
    ∀ above, ∃ nodes u i j, Under above c.tree nodes u ∧ (u.is .constant || u.is .joinedStr) = true ∧
      u.span? = some (spanBetween tokens i j) ∧ i ≤ n ∧ n < j ∧ StartsAt tokens i := by
  have among {r : Role} {k : Kind} {span : Option Span} {items : List Tree} {cells : List Cell}
      {i j : Nat} (hs : Spread tokens i j cells) (hin : i ≤ n) (hnj : n < j)
      (hsub : ∀ d ∈ cells, d.tree ∈ items)
      (ih : ∀ d ∈ cells, d.lo ≤ n → n < d.hi → ∀ above, ∃ nodes u i j, Under above d.tree nodes u ∧
        (u.is .constant || u.is .joinedStr) = true ∧ u.span? = some (spanBetween tokens i j) ∧ i ≤ n ∧
        n < j ∧ StartsAt tokens i) (above : List Tree) :
      ∃ nodes u i j, Under above (.node r k span items) nodes u ∧
        (u.is .constant || u.is .joinedStr) = true ∧ u.span? = some (spanBetween tokens i j) ∧ i ≤ n ∧
        n < j ∧ StartsAt tokens i := by
    obtain ⟨d, hd, hdn⟩ := hs.exists_of_string hin hnj hn
    obtain ⟨nodes, u, i, j, hu, hrest⟩ := ih d hd hdn.1 hdn.2 (.node r k span items :: above)
    exact ⟨nodes, u, i, j, .item (hsub d hd) hu, hrest⟩
  induction h with
  | leaf hno => exact absurd hn (hno n hlo hhi spelling)
  | @literal r kind items lo hi hk hlt hstrings hitems =>
    intro above
    obtain ⟨s, hs⟩ := hstrings lo le_rfl hlt
    refine ⟨above, _, lo, hi, .self, ?_, rfl, hlo, hhi, _, hs, rfl⟩
    rcases hk with ⟨rfl, -⟩ | rfl <;> rfl
  | node _ _ _ _ _ _ _ _ hperm hs _ _ ih =>
    exact among hs hlo hhi (fun d hd => hperm.mem_iff.1 (List.mem_map_of_mem hd)) ih
  | @lambda r lo hi parameters body hlt hkeyword hplain hs hp hb hplaced _ _ _ ihp ihb =>
    simp only at hlo hhi
    rcases Nat.lt_or_eq_of_le hlo with hlo | rfl
    · refine among hs hlo hhi (by simp) fun d hd => ?_
      rcases List.mem_pair.1 hd with rfl | rfl
      · exact ihp
      · exact ihb
    · exact absurd hn (hkeyword.noString _ le_rfl (Nat.lt_succ_self _) spelling)
  | @definition r kind items lo m b hi decorators header body hk ha hmb hm hds hhs hblock hother hbody
      _ _ _ ihd ihh ihb =>
    simp only at hlo hhi
    have hothers : ∀ d ∈ decorators ++ header, d.tree ∈ items := fun d hd =>
      List.mem_of_mem_filter (hother.mem_iff.1 (List.mem_map_of_mem hd))
    rcases Nat.lt_or_ge n m with hnm | hnm
    · exact among hds hlo hnm (fun d hd => hothers d (List.mem_append_left _ hd)) ihd
    rcases Nat.lt_or_ge n b with hnb | hnb
    · exact among hhs hnm hnb (fun d hd => hothers d (List.mem_append_right _ hd)) ihh
    · refine among hblock.spread hnb hhi (fun d hd => ?_) ihb
      refine List.mem_of_mem_filter (p := fun t => decide (t.role = .body)) ?_
      rw [← hbody]
      exact List.mem_map_of_mem hd

end Syntax

namespace Parsed

variable {text : List Char} {s : Source} {tokens : Array Token} {a b : Nat → Nat}
  (P : Parsed text s tokens a b)

include P

section Literal

variable {n : Nat} {spelling : List Char} (hn : lexemeAt tokens n = some (.string spelling))

include hn

omit P in
theorem startsAt_of_string : StartsAt tokens n := ⟨_, hn, rfl⟩

theorem exists_last_char : ∃ c, (normalizeNewlines text)[b n - 1]? = some c ∧ isQuote c = true := by
  obtain ⟨l, sp, hl, -, hs, htake, hlt, hle, -⟩ := P.lies_of_startsAt (startsAt_of_string hn)
  rw [hn, Option.some.injEq] at hl
  subst hl
  cases hs with
  | @string _ first last hfirst hmay hlast hquote =>
    refine ⟨last, ?_, hquote⟩
    rw [← htake, List.getLast?_eq_getElem?, List.getElem?_drop, List.length_drop, List.length_take,
      Nat.min_eq_left hle, show a n + (b n - a n - 1) = b n - 1 by omega,
      List.getElem?_take_of_lt (by omega)] at hlast
    exact hlast

/-! ## Offsets outside of a literal -/

/-- The lines that begin inside a literal are known to. -/
theorem beginsInLiteral_of_string {line : Nat} (h₁ : (placeOf text (a n)).line < line)
    (h₂ : line ≤ (placeOf text (b n)).line) : s.beginsInLiteral line = true := by
  have hs := startsAt_of_string hn
  obtain ⟨nodes, u, i, j, hu, hkind, hspan, hin, hnj, hi⟩ := P.laid.exists_literal (Nat.zero_le n)
    (lt_size_of_lexemeAt hn) hn []
  obtain ⟨q, hiq, hqj, hq, hrest, hstop⟩ := P.exists_stop hi (hin.trans_lt hnj)
  have hnq : n ≤ q := by
    by_contra hlt
    exact hrest n (Nat.not_le.1 hlt) hnj hs
  have hfirst : (spanBetween tokens i j).start.line ≤ (placeOf text (a n)).line := by
    rw [spanBetween, P.startAt_eq hi]
    exact line_mono (P.a_le_a hi hin hs)
  have hlast : (placeOf text (b n)).line ≤ (spanBetween tokens i j).stop.line := by
    rw [spanBetween, hstop]
    exact line_mono (P.b_le_b hnq hq)
  rw [Source.beginsInLiteral, List.any_eq_true]
  refine ⟨spanBetween tokens i j, ?_, by simp; omega⟩
  rw [P.literals, List.mem_filterMap]
  refine ⟨⟨u, nodes⟩, mem_walk.2 hu, ?_⟩
  rw [Source.literalSpan?, if_pos hkind, hspan, Option.filter_some, if_pos (by simp; omega)]

/-- A line that is indented is not indented inside a literal. -/
theorem shift_outside {line : Nat} (h₁ : 1 ≤ line) (h₂ : line ≤ s.table.count + 1)
    (h : s.beginsInLiteral line = false) : IsOutside text a b n (s.table.shiftPoint line) := by
  obtain ⟨c, hc, hblank⟩ := P.exists_first_char (startsAt_of_string hn)
  refine P.shiftPoint_outside (startsAt_of_string hn) h₁ h₂ hc (ne_of_not_isBlank hblank).1
    (ne_of_not_isBlank hblank).2 ?_
  rintro ⟨ha, hb⟩
  rw [P.beginsInLiteral_of_string hn ha hb] at h
  cases h

/-- The line above a body does not begin inside a literal. -/
theorem above_outside {c : Cell} {m q : Nat} (h : c.Ends text tokens a b m q)
    (hd : c.tree.field .decorators ≠ [] → EndedAt tokens c.lo) (hstart : s.atLineStart c.tree = true) :
    IsOutside text a b n (s.table.lineStart (Source.firstLine c.tree)) := by
  have hs := startsAt_of_string hn
  obtain ⟨f, hlo, hfm, hf, hline, hcase⟩ := P.exists_first h
  rw [hline]
  refine P.lineStart_outside hs (P.one_le_line hf) (P.line_le_count_succ hf) ?_
  rintro ⟨h₁, h₂⟩
  have hnf : n < f := by
    by_contra hle
    have : (placeOf text (a f)).line ≤ (placeOf text (a n)).line :=
      line_mono (P.a_le_a hf (Nat.not_lt.1 hle) hs)
    omega
  rcases hcase with ⟨-, rfl⟩ | ⟨hne, -, hsigns⟩
  · have := P.line_lt_of_atLineStart h hstart hs hnf
    omega
  · have := P.line_lt_of_decorated (hd hne) hsigns hlo hf hs (by rw [hn]; simp) hnf
    omega

/-- The line below a body does not begin inside a literal. -/
theorem below_outside {c : Cell} {i j m q : Nat} {body : List Cell} (hb : Block tokens i j body)
    (hc : c ∈ body.getLast?) (h : c.Ends text tokens a b m q) :
    IsOutside text a b n (s.table.lineStart (c.tree.stop.line + 1)) := by
  have hs := startsAt_of_string hn
  have hcount := P.line_le_count h.last
  obtain ⟨e, hqe, -, hnewline, hrest⟩ := exists_newline_after hb hc h
  rw [stop_eq h]
  refine P.lineStart_outside hs (Nat.succ_pos _) (Nat.succ_le_succ hcount) ?_
  rintro ⟨h₁, h₂⟩
  have hqn : q < n := by
    by_contra hle
    have : (placeOf text (b n)).line ≤ (placeOf text (b q)).line :=
      line_mono (P.b_le_b (Nat.not_lt.1 hle) h.last)
    omega
  have hen : e < n := by
    by_contra hle
    rcases Nat.lt_or_eq_of_le (Nat.not_lt.1 hle) with hne | rfl
    · have := hrest n hqn hne hs
      rw [hn] at this
      cases this
    · rw [hn] at hnewline
      cases hnewline
  have := P.line_lt_line hqe hnewline hen hs
  omega

end Literal

/-! ## All edits -/

theorem edit_outside {o : Options} {n : Nat} {spelling : List Char}
    (hn : lexemeAt tokens n = some (.string spelling)) {e : Edit} (he : e ∈ (pass o s).edits) :
    e.start ≤ e.stop ∧
      (e.stop ≤ (offsetOf text (a n) : Int) ∨ (offsetOf text (b n) : Int) ≤ e.start) := by
  have hs := startsAt_of_string hn
  have insertion {x : Nat} {inserted : List Char} {order : List Int} (hx : IsOutside text a b n x) :
      (insertion x inserted order).start ≤ (insertion x inserted order).stop ∧
        ((insertion x inserted order).stop ≤ (offsetOf text (a n) : Int) ∨
          (offsetOf text (b n) : Int) ≤ (insertion x inserted order).start) :=
    ⟨le_rfl, hx.imp Int.ofNat_le.2 Int.ofNat_le.2⟩
  obtain ⟨site, depth, hu, hw⟩ := exists_wraps he
  cases hw with
  | beforeBody hc =>
    obtain ⟨c, hl, htree, hplaced, -⟩ := P.exists_lambda hu hc
    obtain ⟨m, q, hends⟩ := P.exists_ends hl hplaced
    rw [← htree, P.offset_start hends]
    exact insertion (P.first_outside hs hends.first)
  | afterBody hc =>
    obtain ⟨c, hl, htree, hplaced, -⟩ := P.exists_lambda hu hc
    obtain ⟨m, q, hends⟩ := P.exists_ends hl hplaced
    rw [← htree, P.offset_stop hends]
    exact insertion (P.last_outside hs hends.last)
  | definition hd hw =>
    obtain ⟨m, i, j, body, hstands⟩ := P.exists_stands hu hd
    cases hw with
    | beforeDocstring hdoc _ =>
      obtain ⟨c, -, rfl, m, q, hends⟩ := P.exists_ends_of_mem hstands (hstands.mem_of_docstring hdoc)
      rw [P.offset_start hends]
      exact insertion (P.first_outside hs hends.first)
    | afterDocstring hdoc _ =>
      obtain ⟨c, -, rfl, m, q, hends⟩ := P.exists_ends_of_mem hstands (hstands.mem_of_docstring hdoc)
      rw [P.offset_stop hends]
      exact insertion (P.last_outside hs hends.last)
    | forPass ht _ =>
      obtain ⟨hone, hpass⟩ := Definition.lonePass?_eq_some_iff.1 ht
      obtain ⟨c, hc, rfl, m, q, hends⟩ :=
        P.exists_ends_of_mem hstands (hstands.mem_of_statements (hone ▸ List.mem_singleton_self _))
      obtain ⟨rfl, rfl, hlex⟩ := hends.of_pass (hstands.laid c hc) hpass
      rw [P.offset_start hends, P.offset_stop hends]
      have hlt := offsetOf_lt P.terminated (P.a_lt_b hends.first) (P.b_le hends.first)
      refine ⟨by simp only; omega, ?_⟩
      rcases Nat.lt_trichotomy c.lo n with hcn | rfl | hnc
      · have := offsetOf_le P.terminated (P.b_le_a hcn hs) (P.a_le_length hs)
        exact Or.inl (Int.ofNat_le.2 this)
      · rw [hn] at hlex
        cases hlex
      · have := offsetOf_le P.terminated (P.b_le_a hnc hends.first) (P.a_le_length hends.first)
        exact Or.inr (Int.ofNat_le.2 this)
    | beforeHead hhead _ _ =>
      obtain ⟨c, hc, rfl, m, q, hends⟩ :=
        P.exists_ends_of_mem hstands (hstands.mem_of_statements (List.mem_of_mem_head? hhead))
      rw [P.offset_start hends]
      exact insertion (P.first_outside hs hends.first)
    | afterLast hlast =>
      obtain ⟨c, hc, rfl, m, q, hends⟩ :=
        P.exists_ends_of_mem hstands (hstands.mem_of_statements (List.mem_of_mem_getLast? hlast))
      rw [P.offset_stop hends]
      exact insertion (P.last_outside hs hends.last)
    | aboveHead hhead _ hstart =>
      obtain ⟨c, hc, rfl, m, q, hends⟩ :=
        P.exists_ends_of_mem hstands (hstands.mem_of_statements (List.mem_of_mem_head? hhead))
      exact insertion (P.above_outside hn hends (hstands.block.adorned c hc) hstart)
    | shift hline =>
      obtain ⟨h₁, h₂⟩ := P.bounds_of_mem_shiftedLines hstands hline
      obtain ⟨_, _, -, -, -, -, -, -, h₃, -⟩ := Definition.mem_shiftedLines_iff.1 hline
      exact insertion (P.shift_outside hn h₁ (by omega) h₃)
    | belowLast hlast =>
      obtain ⟨c, hc, rfl⟩ := hstands.exists_last (hstands.getLast?_of_statements hlast)
      have hmem := List.mem_of_mem_getLast? hc
      obtain ⟨m, q, hends⟩ := P.exists_ends (hstands.laid c hmem) (hstands.block.placed c hmem)
      exact insertion (P.below_outside hn hstands.block hc hends)

end Parsed

namespace Instrument

/-- What a text is instrumented to, if it is. -/
theorem eq_of_rewrite {o : Options} {text out : List Char} {s : Source}
    (hs : Source.parse (terminated text) = .ok s) (h : rewrite o text = .ok out) :
    ((pass o s).edits = [] ∧ out = text) ∨ Edit.apply (terminated text) (pass o s).edits = .ok out := by
  rw [rewrite_eq hs] at h
  split at h
  · rename_i hempty
    exact Or.inl ⟨List.isEmpty_iff.1 hempty, (Except.ok.inj h).symm⟩
  · cases ha : Edit.apply (terminated text) (pass o s).edits with
    | error overlap =>
      rw [ha] at h
      cases h
    | ok made =>
      rw [ha] at h
      rw [Except.ok.inj h]
      exact Or.inr rfl

/-- No more than the ending of the last line is added to a text. -/
theorem terminated_eq (text : List Char) :
    terminated text = text ∨ terminated text = text ++ ['\n'] :=
  (terminated_cases text).imp_right And.left

end Instrument

/-- A definition that gives a literal on two lines. -/
def givesLines : List Char := "def f():\n    return '''a\nb'''\n".toList

end CallTrace
