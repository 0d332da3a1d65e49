import Mathlib
import CallTrace.Proofs.Fitting

/-!
# The order of the edits of different functions

Of two functions one is in the body of the other, or all edits of one are made before all edits of the
other: `Parsed.pairwise_separate`.  A function is recorded before those in its body, so that of two nested
ones the outer one comes first (`Parsed.pairwise_recorded`).

All edits of a function stand after the keyword that it begins with, and before or at a place of its own
(`Parsed.exists_extent`): a lambda is closed behind its last token, a definition at the latest below the
line of its last token, where its logical line has ended.  What stands behind a function in the text is
behind that place, and so are the edits of a function in whose header it is
(`Parsed.opensFrom_of_definition`).
-/

namespace CallTrace

open Syntax Instrument Text

namespace Edit

variable {a b e : Edit} {place place' level : Nat}

/-- The edit is before a place, or it closes a function at the level there. -/
def ClosesBy (e : Edit) (level place : Nat) : Prop :=
  e.start < place ∨ e.start = place ∧ e.order = closing level

/-- The edit is behind a place, or it is there and closes no function. -/
def OpensFrom (e : Edit) (place : Nat) : Prop :=
  place < e.start ∨ e.start = place ∧ ∀ level, orderLe e.order (closing level) = false

theorem ClosesBy.mono (h : e.ClosesBy level place) (hle : place ≤ place') : e.ClosesBy level place' := by
  rcases Nat.lt_or_eq_of_le hle with hlt | rfl
  · rcases h with h | ⟨h, -⟩
    · exact Or.inl (h.trans (Int.ofNat_lt.2 hlt))
    · exact Or.inl (h ▸ Int.ofNat_lt.2 hlt)
  · exact h

theorem opensFrom_of_le (h : (place : Int) ≤ e.start)
    (horder : ∀ level, orderLe e.order (closing level) = false) : e.OpensFrom place := by
  rcases lt_or_eq_of_le h with h | h
  · exact Or.inl h
  · exact Or.inr ⟨h.symm, horder⟩

theorem not_le_of_start_lt (h : a.start < b.start) : ¬ b.le a = true :=
  fun hle => absurd (start_le_of_le hle) (not_le_of_gt h)

theorem not_le_of_opensFrom (ha : a.ClosesBy level place) (hb : b.OpensFrom place) : ¬ b.le a = true := by
  rcases hb with hb | ⟨hb, horder⟩
  · refine not_le_of_start_lt ?_
    rcases ha with ha | ⟨ha, -⟩
    · exact ha.trans hb
    · exact ha ▸ hb
  · rcases ha with ha | ⟨ha, hclosing⟩
    · exact not_le_of_start_lt (hb ▸ ha)
    · rw [le_iff, ha, hb, hclosing, horder]
      simp

/-- At one place the function at the deeper level is closed first. -/
theorem not_le_of_closing {level' : Nat} (ha : a.ClosesBy level place) (hb : b.start = place)
    (horder : b.order = closing level') (hlt : level' < level) : ¬ b.le a = true := by
  rcases ha with ha | ⟨ha, hclosing⟩
  · exact not_le_of_start_lt (hb ▸ ha)
  · rw [le_iff, ha, hb, hclosing, horder, closing, closing, orderLe, if_neg (by omega),
      if_neg (by omega), orderLe, if_neg (by omega), if_pos (by omega)]
    simp

end Edit

/-! ## Where the edits of a function are -/

/-- Where a function with the `n`-th token as its last is closed at the latest: behind the token, or below
its line, if its logical line has ended before the `hi`-th token. -/
inductive ClosedAt (text : List Char) (s : Source) (tokens : Array Token) (b : Nat → Nat) (hi n : Nat) :
    Nat → Prop
  | behind : ClosedAt text s tokens b hi n (offsetOf text (b n))
  | below {e : Nat} : n < e → e < hi → lexemeAt tokens e = some .newline →
      ClosedAt text s tokens b hi n (s.table.lineStart ((placeOf text (b n)).line + 1))

namespace Syntax

/-- The cells but for the last one are before it. -/
theorem Spread.eq_or_hi_le {tokens : Array Token} {i j : Nat} {cells : List Cell}
    (h : Spread tokens i j cells) {c last : Cell} (hc : c ∈ cells) (hlast : last ∈ cells.getLast?) :
    c = last ∨ c.hi ≤ last.lo := by
  have hsplit := List.dropLast_append_getLast? last hlast
  have hpairs := h.pairwise
  rw [← hsplit] at hc hpairs
  rcases List.mem_append.1 hc with hc | hc
  · exact Or.inr ((List.pairwise_append.1 hpairs).2.2 c hc last (List.mem_singleton_self _))
  · exact Or.inl (List.mem_singleton.1 hc)

/-- No cell reaches over the last one. -/
theorem Spread.hi_le {tokens : Array Token} {i j : Nat} {cells : List Cell} (h : Spread tokens i j cells)
    {c last : Cell} (hc : c ∈ cells) (hlast : last ∈ cells.getLast?) : c.hi ≤ last.hi := by
  rcases h.eq_or_hi_le hc hlast with rfl | hle
  · exact le_rfl
  · exact hle.trans (h.bounds last (List.mem_of_mem_getLast? hlast)).2.1

/-- The last token of a tree. -/
theorem Cell.Ends.le_last {text : List Char} {tokens : Array Token} {a b : Nat → Nat} {c : Cell}
    {m n k : Nat} (h : c.Ends text tokens a b m n) (hk : StartsAt tokens k) (hkc : k < c.hi) : k ≤ n := by
  by_contra hlt
  exact h.rest k (Nat.not_le.1 hlt) hkc hk

end Syntax

namespace Parsed

variable {text : List Char} {s : Source} {tokens : Array Token} {a b : Nat → Nat}
  (P : Parsed text s tokens a b)

include P

theorem start_lt_stop {c : Cell} {m n : Nat} (h : c.Ends text tokens a b m n) :
    s.start c.tree < s.stop c.tree := by
  rw [P.offset_start h, P.offset_stop h]
  exact offsetOf_lt P.terminated ((P.a_lt_b h.first).trans_le (P.b_le_b h.le h.last)) (P.b_le h.last)

theorem lineStart_mono {m n : Nat} (h : m ≤ n) : s.table.lineStart m ≤ s.table.lineStart n := by
  rw [P.table]
  exact Text.lineStart_mono text h

/-- A statement stands on its first line or below. -/
theorem lineStart_firstLine_le {c : Cell} {m n : Nat} (h : c.Ends text tokens a b m n) :
    s.table.lineStart (Source.firstLine c.tree) ≤ s.start c.tree := by
  obtain ⟨f, -, hfm, hf, hfirst, -⟩ := P.exists_first h
  rw [hfirst, P.offset_start h]
  exact (P.lineStart_line_le hf).trans
    (offsetOf_le P.terminated (P.a_le_a hf hfm h.first) (P.a_le_length h.first))

section Body

variable {d : Definition} {m i j : Nat} {body : List Cell} (h : d.Stands tokens m i j body)

include h

/-- The statements of a body end where the last one ends, or before. -/
theorem stop_le_last {last t : Tree} (hlast : last ∈ d.body.getLast?) (ht : t ∈ d.body) :
    s.stop t ≤ s.stop last := by
  obtain ⟨c, hc, rfl⟩ := h.exists_last hlast
  have hmem := List.mem_of_mem_getLast? hc
  obtain ⟨m', q, hends⟩ := P.exists_ends (h.laid c hmem) (h.block.placed c hmem)
  obtain ⟨c', hc', rfl, m'', q', hends'⟩ := P.exists_ends_of_mem h ht
  have hle : q' ≤ q :=
    hends.le_last hends'.last (hends'.lt.trans_le (h.block.spread.hi_le hc' hc))
  rw [P.offset_stop hends, P.offset_stop hends']
  exact offsetOf_le P.terminated (P.b_le_b hle hends.last) (P.b_le hends.last)

theorem stop_lt_below {t : Tree} (ht : t ∈ d.body) :
    s.start t < s.stop t ∧ s.stop t < s.table.lineStart (t.stop.line + 1) := by
  obtain ⟨c, -, rfl, m', q, hends⟩ := P.exists_ends_of_mem h ht
  refine ⟨P.start_lt_stop hends, ?_⟩
  rw [P.offset_stop hends, stop_eq hends]
  exact P.last_lt_lineStart hends.last

/-- The edits of a definition are on the lines up to that of its last statement, or close it below. -/
theorem closesBy_of_definition {level : Nat} {e : Edit} {last : Tree} (hlast : last ∈ d.body.getLast?)
    (hw : Wraps s level d e) : e.ClosesBy level (s.table.lineStart (last.stop.line + 1)) := by
  have hend := (P.stop_lt_below h (List.mem_of_mem_getLast? hlast)).2
  have hafter {t : Tree} (ht : t ∈ d.body) : s.stop t < s.table.lineStart (last.stop.line + 1) :=
    (P.stop_le_last h hlast ht).trans_lt hend
  have hbefore {t : Tree} (ht : t ∈ d.body) : s.start t < s.table.lineStart (last.stop.line + 1) :=
    (P.stop_lt_below h ht).1.trans (hafter ht)
  cases hw with
  | beforeDocstring hdoc _ => exact Or.inl (Int.ofNat_lt.2 (hbefore (h.mem_of_docstring hdoc)))
  | afterDocstring hdoc _ => exact Or.inl (Int.ofNat_lt.2 (hafter (h.mem_of_docstring hdoc)))
  | forPass ht _ =>
    obtain ⟨hone, -⟩ := Definition.lonePass?_eq_some_iff.1 ht
    exact Or.inl (Int.ofNat_lt.2 (hbefore (h.mem_of_statements (hone ▸ List.mem_singleton_self _))))
  | beforeHead hhead _ _ =>
    exact Or.inl (Int.ofNat_lt.2 (hbefore (h.mem_of_statements (List.mem_of_mem_head? hhead))))
  | afterLast hlast' =>
    exact Or.inl (Int.ofNat_lt.2 (hafter (h.mem_of_statements (List.mem_of_mem_getLast? hlast'))))
  | aboveHead hhead _ _ =>
    have hmem := h.mem_of_statements (List.mem_of_mem_head? hhead)
    have hlt := hbefore hmem
    obtain ⟨c, -, rfl, m', q, hends⟩ := P.exists_ends_of_mem h hmem
    exact Or.inl (Int.ofNat_lt.2 ((P.lineStart_firstLine_le hends).trans_lt hlt))
  | @shift n _ hline =>
    obtain ⟨hone, -⟩ := P.bounds_of_mem_shiftedLines h hline
    obtain ⟨_, last', _, hlast', -, -, -, hn, -, hblank⟩ := Definition.mem_shiftedLines_iff.1 hline
    obtain rfl := Option.some.inj (hlast.symm.trans (h.getLast?_of_statements hlast'))
    rw [P.table] at hblank ⊢
    exact Or.inl (Int.ofNat_lt.2 ((shiftPoint_lt_lineStart_succ hone hblank).trans_le
      (Text.lineStart_mono text (Nat.succ_le_succ hn))))
  | belowLast hlast' =>
    obtain rfl := Option.some.inj (hlast.symm.trans (h.getLast?_of_statements hlast'))
    exact Or.inr ⟨rfl, rfl⟩

/-- The edits of a definition are behind a place that is before its body, and above the body, if that
stands on lines of its own. -/
theorem opensFrom_of_definition {level place : Nat} {e : Edit}
    (hplace : ∀ t ∈ d.body, place ≤ s.start t)
    (hline : ∀ t ∈ d.body, s.atLineStart t = true → place ≤ s.table.lineStart (Source.firstLine t))
    (hw : Wraps s level d e) : e.OpensFrom place := by
  have hstart {t : Tree} (ht : t ∈ d.body) : (place : Int) ≤ s.start t := Int.ofNat_le.2 (hplace t ht)
  have hstop {t : Tree} (ht : t ∈ d.body) : place < s.stop t :=
    (hplace t ht).trans_lt (P.stop_lt_below h ht).1
  cases hw with
  | beforeDocstring hdoc _ => exact Edit.opensFrom_of_le (hstart (h.mem_of_docstring hdoc)) fun _ => rfl
  | afterDocstring hdoc _ => exact Or.inl (Int.ofNat_lt.2 (hstop (h.mem_of_docstring hdoc)))
  | forPass ht _ =>
    obtain ⟨hone, -⟩ := Definition.lonePass?_eq_some_iff.1 ht
    exact Edit.opensFrom_of_le (hstart (h.mem_of_statements (hone ▸ List.mem_singleton_self _)))
      fun _ => rfl
  | beforeHead hhead _ _ =>
    exact Edit.opensFrom_of_le (hstart (h.mem_of_statements (List.mem_of_mem_head? hhead))) fun _ => rfl
  | afterLast hlast =>
    exact Or.inl (Int.ofNat_lt.2 (hstop (h.mem_of_statements (List.mem_of_mem_getLast? hlast))))
  | aboveHead hhead _ hown =>
    exact Edit.opensFrom_of_le (Int.ofNat_le.2 (hline _
      (h.mem_of_statements (List.mem_of_mem_head? hhead)) hown)) fun _ => rfl
  | @shift n _ hn =>
    obtain ⟨head, _, hhead, -, -, hown, hle, -⟩ := Definition.mem_shiftedLines_iff.1 hn
    have hle := (hline _ (h.mem_of_statements (List.mem_of_mem_head? hhead)) hown).trans
      (P.lineStart_mono hle)
    exact Edit.opensFrom_of_le (Int.ofNat_le.2 (hle.trans (Nat.le_add_right _ _))) fun _ => rfl
  | belowLast hlast =>
    have hmem := h.mem_of_statements (List.mem_of_mem_getLast? hlast)
    exact Or.inl (Int.ofNat_lt.2 ((hstop hmem).trans (P.stop_lt_below h hmem).2))

end Body

/-! ### Where a function ends -/

section ClosedAt

variable {hi n place : Nat} (hclosed : ClosedAt text s tokens b hi n place) (hn : StartsAt tokens n)

include hclosed hn

theorem closedAt_le_below : place ≤ s.table.lineStart ((placeOf text (b n)).line + 1) := by
  cases hclosed with
  | behind => exact (P.last_lt_lineStart hn).le
  | below _ _ _ => exact le_rfl

omit hn in
/-- What stands behind a function is behind its place. -/
theorem closedAt_le {f : Nat} (hnf : n < f) (hf : StartsAt tokens f) (hle : hi ≤ f) :
    place ≤ offsetOf text (a f) := by
  cases hclosed with
  | behind => exact offsetOf_le P.terminated (P.b_le_a hnf hf) (P.a_le_length hf)
  | below hne heh hnewline =>
    have hlt := P.line_lt_line hne hnewline (heh.trans_le hle) hf
    exact (P.lineStart_mono hlt).trans (P.lineStart_line_le hf)

/-- So are the lines that begin behind the function. -/
theorem closedAt_le_lineStart {line : Nat} (hlt : (placeOf text (b n)).line < line) :
    place ≤ s.table.lineStart line :=
  (P.closedAt_le_below hclosed hn).trans (P.lineStart_mono hlt)

end ClosedAt

/-- The edits of a function in a tree stand behind the keyword that it begins with, and up to where the
function is closed. -/
theorem exists_extent {c : Cell} {above : List Tree} {x : Site} {depth : Int} {e : Edit}
    (hl : Laid tokens c) (hu : Under above c.tree x.above x.tree) (he : x.Wraps s depth e) :
    ∃ k n place, c.lo ≤ k ∧ n < c.hi ∧ KeywordAt tokens k ∧ StartsAt tokens n ∧
      (offsetOf text (a k) : Int) < e.start ∧ e.ClosesBy x.units.length place ∧
      ClosedAt text s tokens b c.hi n place ∧ (c.tree.IsSimple → place = offsetOf text (b n)) := by
  have hlambda {l : BoundLambda} (hc : Function.classify s x.above x.tree depth = .lambda l)
      (h : ∀ {k m q : Nat} {body : Cell}, l.Stands tokens k body → body.Ends text tokens a b m q →
        offsetOf text (a k) < s.start body.tree →
        (offsetOf text (a k) : Int) < e.start ∧ e.ClosesBy x.units.length (s.stop body.tree)) :
      ∃ k n place, c.lo ≤ k ∧ n < c.hi ∧ KeywordAt tokens k ∧ StartsAt tokens n ∧
        (offsetOf text (a k) : Int) < e.start ∧ e.ClosesBy x.units.length place ∧
        ClosedAt text s tokens b c.hi n place ∧ (c.tree.IsSimple → place = offsetOf text (b n)) := by
    obtain ⟨k, body, hk, hbody, hstands⟩ := hl.exists_lambda hu hc
    obtain ⟨m, q, hends⟩ := P.exists_ends hstands.laid hstands.placed
    obtain ⟨hlt, hcloses⟩ := h hstands hends
      (P.lt_offsets hends hstands.keyword.startsAt hstands.lt).1
    rw [P.offset_stop hends] at hcloses
    exact ⟨k, q, _, hk, hends.lt.trans_le hbody, hstands.keyword, hends.last, hlt, hcloses, .behind,
      fun _ => rfl⟩
  cases he with
  | definition hd hw =>
    obtain ⟨m, i, j, body, hm, hj, hstands⟩ := hl.exists_stands hu hd
    obtain ⟨last, hlast⟩ := Option.isSome_iff_exists.1 (List.getLast?_isSome.2 hstands.ne_nil)
    have hcloses := P.closesBy_of_definition hstands hlast hw
    obtain ⟨c', hc', rfl⟩ := hstands.exists_last hlast
    have hmem := List.mem_of_mem_getLast? hc'
    obtain ⟨m', q, hends⟩ := P.exists_ends (hstands.laid c' hmem) (hstands.block.placed c' hmem)
    have hhi := (hstands.block.spread.bounds c' hmem).2.2
    obtain ⟨n, hqn, hnj, hnewline, -⟩ := exists_newline_after hstands.block hc' hends
    rw [stop_eq hends] at hcloses
    refine ⟨m, q, _, hm, hends.lt.trans_le (hhi.trans hj), hstands.keyword, hends.last,
      P.keyword_lt_of_definition hstands hw, hcloses, .below hqn (hnj.trans_le hj) hnewline, fun hsimple => ?_⟩
    obtain ⟨⟨r, k, span, ts, htree, hk⟩, -⟩ := Function.eq_of_classify_definition hd
    have hevery := Under.every hu hsimple
    rw [htree, Tree.every_node_iff, hk] at hevery
    cases hevery.1.1
  | beforeBody hc =>
    refine hlambda hc fun hstands hends hlt => ?_
    rw [← hstands.tree]
    exact ⟨Int.ofNat_lt.2 hlt, Or.inl (Int.ofNat_lt.2 (P.start_lt_stop hends))⟩
  | afterBody hc =>
    refine hlambda hc fun hstands hends hlt => ?_
    rw [← hstands.tree]
    exact ⟨Int.ofNat_lt.2 (hlt.trans (P.start_lt_stop hends)), Or.inr ⟨rfl, rfl⟩⟩

end Parsed

/-! ## Pairs of functions -/

/-- Only definitions and lambdas are functions. -/
theorem Function.classify_eq_unmatched {s : Source} {above : List Tree} {r : Role} {k : Kind}
    {span : Option Span} {items : List Tree} {depth : Int} (hdef : k.isDefinition = false)
    (hlambda : k ≠ .lambda) : classify s above (.node r k span items) depth = .unmatched := by
  rw [classify, hdef, if_neg hlambda]
  rfl

namespace Instrument

/-- No function is met in a literal. -/
theorem sites_eq_nil {o : Options} {s : Source} {above : List Tree} {units : List (List Char)} {r : Role}
    {k : Kind} {span : Option Span} {items : List Tree}
    (hk : (k = .constant ∧ ∃ v, items = [.leaf .value v]) ∨ k = .joinedStr)
    (hitems : ∀ t ∈ items, t.Every fun k _ => k.isDefinition = false) :
    sites o s above units (.node r k span items) = [] := by
  rw [List.eq_nil_iff_forall_not_mem]
  rintro ⟨nodes, v, others⟩ hx
  obtain ⟨hu, htraced⟩ := (mem_sites o s _ _ _ _ _).1 ⟨_, hx⟩
  have hplain : k.isDefinition = false ∧ k ≠ .lambda := by
    rcases hk with ⟨rfl, -⟩ | rfl <;> exact ⟨rfl, by decide⟩
  cases hu with
  | self =>
    rw [Function.classify_eq_unmatched hplain.1 hplain.2] at htraced
    cases htraced
  | @item _ _ _ _ _ _ _ u hmem hunder =>
    rcases hk with ⟨-, v, rfl⟩ | rfl
    · obtain rfl := List.mem_singleton.1 hmem
      cases hunder
    · obtain ⟨more, hmore⟩ := Under.exists_append hunder
      have hevery := Under.every hunder (hitems u hmem)
      cases hc : Function.classify s nodes v 0 with
      | definition d =>
        obtain ⟨⟨r, k, span, ts, htree, hdef⟩, -⟩ := Function.eq_of_classify_definition hc
        rw [htree, Tree.every_node_iff, hdef] at hevery
        cases hevery.1
      | lambda l =>
        obtain ⟨-, hnot, -⟩ := Function.eq_of_classify_lambda hc
        rw [hmore] at hnot
        simp [Tree.is, Tree.kind?] at hnot
      | unmatched =>
        rw [hc] at htraced
        cases htraced

/-- A function is in the body of another. -/
def Site.IsIn (y x : Site) : Prop :=
  ∃ t ∈ x.tree.field .body, Under (x.tree :: x.above) t y.above y.tree

/-- The edits of a function are made before all edits of another. -/
def Site.Before (s : Source) (x y : Site) : Prop :=
  ∀ (depth depth' : Int) (e f : Edit), x.Wraps s depth e → y.Wraps s depth' f → ¬ f.le e = true

/-- Of two functions one is in the body of the other, or the edits of one are made before those of the
other. -/
inductive Site.Separate (s : Source) (x y : Site) : Prop
  | inside : y.IsIn x → Site.Separate s x y
  | around : x.IsIn y → Site.Separate s x y
  | before : x.Before s y → Site.Separate s x y
  | after : y.Before s x → Site.Separate s x y

theorem Site.Separate.symm {s : Source} {x y : Site} (h : x.Separate s y) : y.Separate s x := by
  cases h with
  | inside h => exact .around h
  | around h => exact .inside h
  | before h => exact .after h
  | after h => exact .before h

/-- The same of two functions of which the first is recorded before the second: where one is in the body of
the other, it is the second. -/
inductive Site.Recorded (s : Source) (x y : Site) : Prop
  | inside : y.IsIn x → Site.Recorded s x y
  | before : x.Before s y → Site.Recorded s x y
  | after : y.Before s x → Site.Recorded s x y

theorem Site.Recorded.separate {s : Source} {x y : Site} (h : x.Recorded s y) : x.Separate s y := by
  cases h with
  | inside h => exact .inside h
  | before h => exact .before h
  | after h => exact .after h

end Instrument

namespace Parsed

variable {text : List Char} {s : Source} {tokens : Array Token} {a b : Nat → Nat}
  (P : Parsed text s tokens a b)

/-- What is shown of the functions that are met in a tree. -/
def Orders (o : Options) (s : Source) (c : Cell) : Prop :=
  ∀ above units, (sites o s above units c.tree).Pairwise (Site.Recorded s)

/-- Functions in trees side by side come one before the other. -/
def Beside (s : Source) (t u : Tree) : Prop :=
  ∀ (above above' : List Tree) (x y : Site), Under above t x.above x.tree →
    Under above' u y.above y.tree → x.Before s y ∨ y.Before s x

include P

variable {above above' : List Tree} {c : Cell} {x y : Site}

/-- A function in a tree comes before one in a tree behind. -/
theorem before_of_le {c' : Cell} (hc : Laid tokens c) (hc' : Laid tokens c') (hle : c.hi ≤ c'.lo)
    (hx : Under above c.tree x.above x.tree) (hy : Under above' c'.tree y.above y.tree) :
    x.Before s y := by
  intro depth depth' e f he hf
  obtain ⟨k, n, place, -, hn, -, -, -, hcloses, hclosed, -⟩ := P.exists_extent hc hx he
  obtain ⟨k', n', place', hk', -, hkey, -, hlt, -⟩ := P.exists_extent hc' hy hf
  have hplace := P.closedAt_le hclosed (by omega) hkey.startsAt (by omega)
  exact Edit.not_le_of_opensFrom hcloses (Or.inl ((Int.ofNat_le.2 hplace).trans_lt hlt))

/-- A function in what stands before the body of a definition comes before the definition. -/
theorem before_of_header {m i j : Nat} {body : List Cell} (hc : Laid tokens c)
    (hy : Under above c.tree y.above y.tree) (hle : c.hi ≤ i)
    (hstands : ∀ {depth d}, Function.classify s x.above x.tree depth = .definition d →
      d.Stands tokens m i j body)
    (hnot : ∀ {depth l}, Function.classify s x.above x.tree depth ≠ .lambda l) : y.Before s x := by
  intro depth depth' e f he hf
  obtain ⟨k, n, place, -, hn, -, hlast, -, hcloses, hclosed, -⟩ := P.exists_extent hc hy he
  cases hf with
  | beforeBody hl => exact absurd hl hnot
  | afterBody hl => exact absurd hl hnot
  | definition hd hw =>
    have h := hstands hd
    refine Edit.not_le_of_opensFrom hcloses
      (P.opensFrom_of_definition h (fun t ht => ?_) (fun t ht hown => ?_) hw)
    · obtain ⟨c', hc', rfl, m', q, hends⟩ := P.exists_ends_of_mem h ht
      have hlo := (h.block.spread.bounds c' hc').1
      have hfirst := hends.adorned.le
      rw [P.offset_start hends]
      exact P.closedAt_le hclosed (by omega) hends.first (by omega)
    · obtain ⟨c', hc', rfl, m', q, hends⟩ := P.exists_ends_of_mem h ht
      have hlo := (h.block.spread.bounds c' hc').1
      exact P.closedAt_le_lineStart hclosed hlast
        (P.line_lt_firstLine hends (h.block.adorned c' hc') hown hlast (by omega))

/-- A function in the parameters of a lambda comes before the lambda. -/
theorem before_of_parameters {body : Cell} (hc : Laid tokens c)
    (hy : Under above c.tree y.above y.tree) (hb : Laid tokens body)
    (hplaced : body.tree.span?.isSome = true) (hle : c.hi ≤ body.lo)
    (hbody : ∀ {depth l}, Function.classify s x.above x.tree depth = .lambda l → l.body = body.tree)
    (hnot : ∀ {depth d}, Function.classify s x.above x.tree depth ≠ .definition d) : y.Before s x := by
  intro depth depth' e f he hf
  obtain ⟨k, n, place, -, hn, -, hlast, -, hcloses, hclosed, -⟩ := P.exists_extent hc hy he
  obtain ⟨m, q, hends⟩ := P.exists_ends hb hplaced
  have hfirst := hends.adorned.le
  have hplace : place ≤ s.start body.tree := by
    rw [P.offset_start hends]
    exact P.closedAt_le hclosed (by omega) hends.first (by omega)
  refine Edit.not_le_of_opensFrom hcloses ?_
  cases hf with
  | definition hd _ => exact absurd hd hnot
  | beforeBody hl =>
    rw [hbody hl]
    exact Edit.opensFrom_of_le (Int.ofNat_le.2 hplace) fun _ => rfl
  | afterBody hl =>
    rw [hbody hl]
    exact Or.inl (Int.ofNat_lt.2 (hplace.trans_lt (P.start_lt_stop hends)))

theorem pairwise_beside {items : List Tree} {i j : Nat} {cells : List Cell}
    (hperm : (cells.map Cell.tree).Perm items) (hs : Spread tokens i j cells)
    (hl : ∀ c ∈ cells, Laid tokens c) : items.Pairwise (Beside s) := by
  have hsymm {t u : Tree} (h : Beside s t u) : Beside s u t :=
    fun above above' x y hx hy => (h above' above y x hy hx).symm
  refine (hperm.pairwise_iff hsymm).1 (List.pairwise_map.2 ?_)
  refine hs.pairwise.imp_of_mem fun {c d} hc hd hcd above above' x y hx hy => Or.inl ?_
  exact P.before_of_le (hl c hc) (hl d hd) hcd hx hy

/-- The functions that are met in a node and its items: those outside of the body, the node itself, if it
is a function, and those in the body. -/
theorem pairwise_recorded_node {o : Options} {r : Role} {k : Kind} {span : Option Span}
    {items : List Tree} {i j : Nat} {cells : List Cell} {units : List (List Char)}
    (hperm : (cells.map Cell.tree).Perm items) (hs : Spread tokens i j cells)
    (hl : ∀ c ∈ cells, Laid tokens c) (ih : ∀ c ∈ cells, Orders o s c)
    (hheader : ∀ x ∈ ownSite o s above units (.node r k span items), ∀ c ∈ cells, c.tree.role ≠ .body →
      ∀ y : Site, Under (.node r k span items :: above) c.tree y.above y.tree → y.Before s x) :
    (sites o s above units (.node r k span items)).Pairwise (Site.Recorded s) := by
  have hbeside := P.pairwise_beside hperm hs hl
  have hcell {t : Tree} (ht : t ∈ items) : ∃ c ∈ cells, c.tree = t :=
    List.mem_map.1 (hperm.mem_iff.2 ht)
  have hunder {t : Tree} {units : List (List Char)} {x : Site}
      (hx : x ∈ sites o s (.node r k span items :: above) units t) :
      Under (.node r k span items :: above) t x.above x.tree :=
    ((mem_sites o s _ _ _ _ _).1 ⟨_, hx⟩).1
  have hpart (units : List (List Char)) (p : Tree → Bool) :
      ((items.filter p).flatMap (sites o s (.node r k span items :: above) units)).Pairwise
        (Site.Recorded s) := by
    refine List.pairwise_flatMap.2 ⟨fun t ht => ?_, (hbeside.filter p).imp fun h x hx y hy => ?_⟩
    · obtain ⟨c, hc, rfl⟩ := hcell (List.mem_of_mem_filter ht)
      exact ih c hc _ _
    · exact (h _ _ x y (hunder hx) (hunder hy)).elim .before .after
  have hparts (unit : List Char)
      (hown : (⟨above, .node r k span items, units⟩ : Site) ∈
        ownSite o s above units (.node r k span items)) :
      (sitesIn o s (.node r k span items :: above) units .outsideBody items ++
        ⟨above, .node r k span items, units⟩ ::
          sitesIn o s (.node r k span items :: above) (units ++ [unit]) .body items).Pairwise
        (Site.Recorded s) := by
    rw [sitesIn_eq, sitesIn_eq]
    have hout {x : Site} (hx : x ∈ (items.filter fun t => Part.outsideBody.holds t.role).flatMap
        (sites o s (.node r k span items :: above) units)) : ∃ t ∈ items, t.role ≠ .body ∧
          Under (.node r k span items :: above) t x.above x.tree := by
      obtain ⟨t, ht, hx⟩ := List.mem_flatMap.1 hx
      obtain ⟨ht, hr⟩ := List.mem_filter.1 ht
      exact ⟨t, ht, by simpa [Part.holds] using hr, hunder hx⟩
    have hin {x : Site} (hx : x ∈ (items.filter fun t => Part.body.holds t.role).flatMap
        (sites o s (.node r k span items :: above) (units ++ [unit]))) : ∃ t ∈ items, t.role = .body ∧
          Under (.node r k span items :: above) t x.above x.tree := by
      obtain ⟨t, ht, hx⟩ := List.mem_flatMap.1 hx
      obtain ⟨ht, hr⟩ := List.mem_filter.1 ht
      exact ⟨t, ht, by simpa [Part.holds] using hr, hunder hx⟩
    refine List.pairwise_append.2 ⟨hpart _ _, List.pairwise_cons.2 ⟨fun y hy => ?_, hpart _ _⟩,
      fun x hx y hy => ?_⟩
    · obtain ⟨t, ht, hr, hu⟩ := hin hy
      exact .inside ⟨t, List.mem_filter.2 ⟨ht, by simpa using hr⟩, hu⟩
    · obtain ⟨t, ht, hr, hu⟩ := hout hx
      rcases List.mem_cons.1 hy with rfl | hy
      · obtain ⟨c, hc, rfl⟩ := hcell ht
        exact .before (hheader _ hown c hc hr x hu)
      · obtain ⟨u, hu', hr', hunder'⟩ := hin hy
        have : Std.Symm (Beside s) :=
          ⟨fun t u h above above' x y hx hy => (h above' above y x hy hx).symm⟩
        have hne : t ≠ u := fun e => hr (e ▸ hr')
        exact (hbeside.forall ht hu' hne _ _ x y hu hunder').elim .before .after
  have hall : (sitesIn o s (.node r k span items :: above) units .all items).Pairwise
      (Site.Recorded s) := by
    rw [sitesIn_eq]
    exact hpart _ _
  rw [sites]
  cases hc : Function.classify s above (.node r k span items) 0 with
  | definition d => exact hparts _ (mem_ownSite.2 ⟨rfl, by rw [hc]; rfl⟩)
  | lambda l =>
    simp only
    split
    · rename_i htrace
      exact hparts _ (mem_ownSite.2 ⟨rfl, by rw [hc]; exact htrace⟩)
    · exact hall
  | unmatched => exact hall

/-- Of two functions that are met in a tree one is in the body of the other, or the edits of one are made
before those of the other; and a function is recorded before those in its body. -/
theorem orders (o : Options) (h : Laid tokens c) : Orders o s c := by
  induction h with
  | leaf _ =>
    intro above units
    rw [sites]
    exact .nil
  | @literal r kind items lo hi hk _ _ hitems =>
    intro above units
    rw [sites_eq_nil hk fun t ht => (hitems t ht).2.imp fun _ _ h => h.1.1]
    exact .nil
  | node hdef hlambda _ _ _ _ _ _ hperm hs _ hl ih =>
    intro above units
    refine P.pairwise_recorded_node hperm hs hl ih fun x hx => ?_
    obtain ⟨-, htraced⟩ := mem_ownSite.1 hx
    rw [Function.classify_eq_unmatched hdef hlambda] at htraced
    cases htraced
  | @lambda r lo hi parameters body hlt _ _ hs hp hb hplaced _ hlp hlb ihp ihb =>
    intro above units
    refine P.pairwise_recorded_node (.refl _) hs (by simp [hlp, hlb]) (by simp [ihp, ihb])
      fun x hx c hc hr y hy => ?_
    obtain ⟨rfl, -⟩ := mem_ownSite.1 hx
    rcases List.mem_pair.1 hc with rfl | rfl
    · have hle : c.hi ≤ body.lo := (List.pairwise_cons.1 hs.pairwise).1 body (by simp)
      refine P.before_of_parameters hlp hy hlb hplaced hle (fun hl => ?_) fun hd => ?_
      · obtain ⟨-, -, hbody⟩ := Function.eq_of_classify_lambda hl
        simpa [Tree.items, hp, hb, eq_comm] using hbody
      · obtain ⟨⟨r, k, span, ts, htree, hk⟩, -⟩ := Function.eq_of_classify_definition hd
        cases htree
        cases hk
    · exact absurd hb hr
  | @definition r kind items lo m b hi decorators header body hk ha hmb hm hds hhs hblock hother hbody
      hdl hhl hbl ihd ihh ihb =>
    intro above units
    have hall {p : Cell → Prop} (h₁ : ∀ c ∈ decorators, p c) (h₂ : ∀ c ∈ header, p c)
        (h₃ : ∀ c ∈ body, p c) : ∀ c ∈ decorators ++ header ++ body, p c :=
      List.forall_mem_append.2 ⟨List.forall_mem_append.2 ⟨h₁, h₂⟩, h₃⟩
    refine P.pairwise_recorded_node (perm_items hother hbody)
      ((hds.append hhs).append hblock.spread) (hall hdl hhl hbl) (hall ihd ihh ihb)
      fun x hx c hc hr y hy => ?_
    obtain ⟨rfl, -⟩ := mem_ownSite.1 hx
    rcases List.mem_append.1 hc with hc | hc
    · have hbounds := (hds.append hhs).bounds c hc
      have hlaid := List.forall_mem_append.2 ⟨hdl, hhl⟩ c hc
      have hstands {depth : Int} {d : Definition}
          (hd : Function.classify s above (.node r kind (some (spanBetween tokens m hi)) items) depth =
            .definition d) :
          d.Stands tokens m b hi body := by
        have hparts := Function.body_eq hd
        obtain ⟨-, -, rfl⟩ := Function.eq_of_classify_definition hd
        exact ⟨hmb, hm, rfl, hblock, hbody, hbl, hparts⟩
      refine P.before_of_header hlaid hy hbounds.2.2 hstands fun hl => ?_
      obtain ⟨⟨r, span, ts, htree⟩, -⟩ := Function.eq_of_classify_lambda hl
      cases htree
      cases hk
    · have hmem := List.mem_map_of_mem (f := Cell.tree) hc
      rw [hbody] at hmem
      exact absurd (by simpa using (List.mem_filter.1 hmem).2) hr

/-- The pass records a function before those in its body, and of two others the edits of one are made
before those of the other. -/
theorem pairwise_recorded (o : Options) : (sites o s [] [] s.tree).Pairwise (Site.Recorded s) :=
  P.orders o P.laid [] []

/-- Of two functions that a pass meets one is in the body of the other, or the edits of one are made
before those of the other. -/
theorem pairwise_separate (o : Options) : (sites o s [] [] s.tree).Pairwise (Site.Separate s) :=
  (P.pairwise_recorded o).imp Site.Recorded.separate

end Parsed

end CallTrace
