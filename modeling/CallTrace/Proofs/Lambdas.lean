import Mathlib
import CallTrace.Proofs.Literals
import CallTrace.Proofs.Nesting
import CallTrace.Proofs.Splicing

/-!
# Lambdas inside lambdas

A lambda is rewritten by two insertions, one before its body and one behind it.  `rewrite_composes` says
that the outcome has the two texts around what the edits between them come to on the text of the body,
which is edited by itself; and that these are the edits of the functions in the body, which are all
lambdas, and of the definitions around it the indentation of the lines that begin in the body.

Two functions are nested, or one is before the other.  Edits of a function in the body are between the two
(`precedes_of_isIn_lambda`).  What opens a function around the lambda is before them or behind them, and
what closes it is behind them, also where bodies end at one place (`aside_of_isIn`).  So no other edit is
beside the two in the order (`alone_of_lambda`), and the edits can be told apart by them.
-/

namespace CallTrace

open Syntax Instrument Text

/-- Of two edits one is made before the other among any edits only if it comes strictly before it. -/
theorem Edit.not_le_of_precedes {a b : Edit} (h : ∀ edits, Edit.Precedes edits a b) :
    ¬ b.le a = true := by
  intro hle
  have hsort : Edit.sort [b, a] = [b, a] := by
    rw [Edit.sort, Edit.sort, Edit.sort, Edit.insert, Edit.insert, if_pos hle]
  have hlt := h [b, a] 1 0 (by rw [hsort]; rfl) (by rw [hsort]; rfl)
  omega

namespace Instrument

/-- The text before the body of a lambda. -/
def lambdaOpening (o : Options) (l : BoundLambda) : List Char :=
  runtime ++ ".emit_through(".toList ++ quote (o.leaving l.name l.depth) ++ ", (".toList ++ runtime ++
    ".emit(".toList ++ quote (o.entering l.name l.depth) ++ "), (".toList

/-- The text behind the body of a lambda. -/
def lambdaClosing : List Char :=
  "))[1])".toList

/-- The insertion before the body of a lambda. -/
def opensLambda (o : Options) (s : Source) (level : Nat) (l : BoundLambda) : Edit :=
  insertion (s.start l.body) (lambdaOpening o l) (opening level)

/-- The insertion behind the body of a lambda. -/
def closesLambda (s : Source) (level : Nat) (l : BoundLambda) : Edit :=
  insertion (s.stop l.body) lambdaClosing (closing level)

variable {o : Options} {s : Source} {x : Site} {depth : Int} {l : BoundLambda}

theorem Site.edits_of_lambda (hl : Function.classify s x.above x.tree depth = .lambda l) :
    x.edits o s depth = [opensLambda o s x.units.length l, closesLambda s x.units.length l] := by
  rw [Site.edits, hl]
  rfl

theorem wraps_opensLambda (hl : Function.classify s x.above x.tree depth = .lambda l) :
    x.Wraps s depth (opensLambda o s x.units.length l) :=
  .beforeBody hl

theorem wraps_closesLambda (hl : Function.classify s x.above x.tree depth = .lambda l) :
    x.Wraps s depth (closesLambda s x.units.length l) :=
  .afterBody hl

/-- An edit of a function around a lambda: what closes the function is made after the lambda, and what
opens it is not made between the edits of the lambda. -/
inductive Aside (opens closes e : Edit) : Prop
  | opening {level : Nat} : e.order = opening level → ¬ opens.le e = true ∨ ¬ e.le closes = true →
      Aside opens closes e
  | shifting : e.order = shifting → Aside opens closes e
  | closing {level : Nat} : e.order = closing level → ¬ e.le closes = true → Aside opens closes e

theorem aside_before {opens closes : Edit} {level p : Nat} {text : List Char} (h : (p : Int) < opens.start) :
    Aside opens closes (insertion p text (opening level)) :=
  .opening rfl (Or.inl (Edit.not_le_of_start_lt h))

theorem aside_behind {opens : Edit} {level level' p : Nat} {text : List Char} (hlt : level' < level)
    (h : s.stop l.body ≤ p) :
    Aside opens (closesLambda s level l) (insertion p text (closing level')) := by
  have hcloses : (closesLambda s level l).ClosesBy level (s.stop l.body) := Or.inr ⟨rfl, rfl⟩
  exact .closing rfl (Edit.not_le_of_closing (hcloses.mono h) rfl rfl hlt)

end Instrument

/-- A lambda on the tokens of a statement: its word is the `k`-th token and its last one the `n`-th.  It is
before the `m`-th token or from there on. -/
structure BoundLambda.Held (text : List Char) (s : Source) (tokens : Array Token) (a b : Nat → Nat)
    (l : BoundLambda) (c : Cell) (m k n : Nat) : Prop where
  lo : c.lo ≤ k
  lt : k < n
  hi : n < c.hi
  keyword : KeywordAt tokens k
  last : StartsAt tokens n
  start : offsetOf text (a k) < s.start l.body
  stop : s.stop l.body = offsetOf text (b n)
  side : n < m ∨ m ≤ k

namespace Parsed

variable {text : List Char} {s : Source} {tokens : Array Token} {a b : Nat → Nat}
  (P : Parsed text s tokens a b)

include P

/-! ## Lambdas on their tokens -/

/-- A lambda in a statement is among the decorators, or behind the first token after them. -/
theorem exists_lambda_beside {c : Cell} {m n : Nat} (h : Laid tokens c)
    (hends : c.Ends text tokens a b m n) {above nodes : List Tree} {t : Tree} {depth : Int}
    {l : BoundLambda} (hu : Under above c.tree nodes t)
    (hl : Function.classify s nodes t depth = .lambda l) :
    ∃ k body, c.lo ≤ k ∧ body.hi ≤ c.hi ∧ l.Stands tokens k body ∧ (body.hi ≤ m ∨ m ≤ k) := by
  have hall := h.exists_lambda hu hl
  obtain ⟨⟨r', span', items', rfl⟩, hnot, -⟩ := Function.eq_of_classify_lambda hl
  have hfirst {m' j : Nat} (hm' : StartsAt tokens m')
      (hspan : c.tree.span? = some (spanBetween tokens m' j)) : m' = m := by
    rw [hends.span, Option.some.injEq] at hspan
    have hstart : placeOf text (a m) = startAt tokens m' := congrArg Span.start hspan
    exact P.eq_of_startAt_eq hm' hends.first (hstart.symm.trans (P.startAt_eq hends.first).symm)
  -- A cell on one side of the first token has the lambda on that side.
  have hcell {d : Cell} (hd : Laid tokens d) (hlo : c.lo ≤ d.lo) (hhi : d.hi ≤ c.hi)
      (hside : d.hi ≤ m ∨ m ≤ d.lo) {above : List Tree}
      (hunder : Under above d.tree nodes (.node r' .lambda span' items')) :
      ∃ k body, c.lo ≤ k ∧ body.hi ≤ c.hi ∧ l.Stands tokens k body ∧ (body.hi ≤ m ∨ m ≤ k) := by
    obtain ⟨k, body, hk, hbody, hstands⟩ := hd.exists_lambda hunder hl
    exact ⟨k, body, hlo.trans hk, hbody.trans hhi, hstands,
      hside.imp hbody.trans fun h => h.trans hk⟩
  cases h with
  | leaf _ => cases hu
  | @literal r kind items lo hi hk _ _ _ =>
    cases hu with
    | self => rcases hk with ⟨h, -⟩ | h <;> cases h
    | item hmem hunder =>
      rcases hk with ⟨rfl, v, rfl⟩ | rfl
      · obtain rfl := List.mem_singleton.1 hmem
        cases hunder
      · obtain ⟨more, rfl⟩ := Under.exists_append hunder
        simp [Tree.is, Tree.kind?] at hnot
  | @node r kind items lo m' hi cells hdef hlambda _ _ _ _ hplaced _ hperm hs hsides hlaid =>
    cases hu with
    | self => exact absurd rfl hlambda
    | item hmem hunder =>
      have hsome := hends.span
      simp only [Tree.span?] at hsome
      split at hsome
      · rename_i hk
        have hm : m' = m := hfirst (j := hi) (hplaced hk).2 (by simp only [Tree.span?, if_pos hk])
        obtain ⟨d, hd, rfl⟩ := List.mem_map.1 (hperm.mem_iff.2 hmem)
        obtain ⟨hlo, -, hhi⟩ := hs.bounds d hd
        exact hcell (hlaid d hd) hlo hhi (hm ▸ hsides d hd) hunder
      · cases hsome
  | lambda _ hkey _ _ _ _ _ _ _ _ =>
    obtain ⟨k, body, hk, hbody, hstands⟩ := hall
    exact ⟨k, body, hk, hbody, hstands, Or.inr (hfirst hkey.startsAt rfl ▸ hk)⟩
  | @definition r kind items lo m' i hi decorators header body hk ha hmb hkey hds hhs hblock hother hbody
      hdl hhl hbl =>
    have hm : m' = m := hfirst hkey.startsAt rfl
    subst hm
    cases hu with
    | self => cases hk
    | item hmem hunder =>
      have hle := hblock.spread.le
      have hlo := hds.le
      rw [← (perm_items hother hbody).mem_iff, List.map_append, List.map_append] at hmem
      simp only [List.mem_append, List.mem_map] at hmem
      rcases hmem with (⟨d, hd, rfl⟩ | ⟨d, hd, rfl⟩) | ⟨d, hd, rfl⟩
      · obtain ⟨h₁, -, h₂⟩ := hds.bounds d hd
        exact hcell (hdl d hd) h₁ (by simp only; omega) (Or.inl h₂) hunder
      · obtain ⟨h₁, -, h₂⟩ := hhs.bounds d hd
        exact hcell (hhl d hd) (by simp only; omega) (by simp only; omega) (Or.inr h₁) hunder
      · obtain ⟨h₁, -, h₂⟩ := hblock.spread.bounds d hd
        exact hcell (hbl d hd) (by simp only; omega) h₂ (Or.inr (by omega)) hunder

theorem exists_held {c : Cell} {m q : Nat} (h : Laid tokens c) (hends : c.Ends text tokens a b m q)
    {above nodes : List Tree} {t : Tree} {depth : Int} {l : BoundLambda} (hu : Under above c.tree nodes t)
    (hl : Function.classify s nodes t depth = .lambda l) : ∃ k n, l.Held text s tokens a b c m k n := by
  obtain ⟨k, cell, hk, hcell, hlambda, hside⟩ := P.exists_lambda_beside h hends hu hl
  obtain ⟨m', n, hends'⟩ := P.exists_ends hlambda.laid hlambda.placed
  have hle := hends'.le
  have hlo := hends'.adorned.le
  have hlt := hlambda.lt
  have hn := hends'.lt
  exact ⟨k, n, hk, by omega, by omega, hlambda.keyword, hends'.last,
    hlambda.tree ▸ (P.lt_offsets hends' hlambda.keyword.startsAt hlt).1,
    hlambda.tree ▸ P.offset_stop hends', hside.imp (by omega) id⟩

/-- What is before the word of a lambda is before its body. -/
theorem start_lt_of_held {c : Cell} {m k n f : Nat} {l : BoundLambda} (h : l.Held text s tokens a b c m k n)
    (hf : StartsAt tokens f) (hfk : f ≤ k) : offsetOf text (a f) < s.start l.body :=
  (offsetOf_le P.terminated (P.a_le_a hf hfk h.keyword.startsAt)
    (P.a_le_length h.keyword.startsAt)).trans_lt h.start

/-! ## Functions around a lambda -/

omit P in
/-- A docstring stands before the statements after it. -/
theorem hi_le_of_docstring {d : Definition} {m i j : Nat} {body : List Cell} {doc t : Tree}
    (h : d.Stands tokens m i j body) (hdoc : d.docstring = some doc) (ht : t ∈ d.statements) :
    ∃ c ∈ body, ∃ c' ∈ body, c.tree = doc ∧ c'.tree = t ∧ c.hi ≤ c'.lo := by
  have htrees := h.trees
  rw [h.parts, hdoc] at htrees
  obtain ⟨docs, cells, hbody, hdocs, hcells⟩ := List.map_eq_append_iff.1 htrees
  have hpair := h.block.spread.pairwise
  rw [hbody] at hpair
  rw [← hcells] at ht
  obtain ⟨c', hc', rfl⟩ := List.mem_map.1 ht
  obtain ⟨c, rfl, htree⟩ := List.map_eq_singleton_iff.1 hdocs
  exact ⟨c, hbody ▸ List.mem_append_left _ (List.mem_singleton_self c), c',
    hbody ▸ List.mem_append_right _ hc', htree, rfl,
    (List.pairwise_append.1 hpair).2.2 c (List.mem_singleton_self c) c' hc'⟩

section Around

variable {d : Definition} {m i j : Nat} {body : List Cell} (hstands : d.Stands tokens m i j body)
  {around nodes : List Tree} {t u : Tree} {depth : Int} {l : BoundLambda} (ht : t ∈ d.statements)
  (hu : Under around t nodes u) (hl : Function.classify s nodes u depth = .lambda l)

include hstands hu hl

theorem exists_held_of_cell {c : Cell} (hc : c ∈ body) (htree : c.tree = t) :
    ∃ m q k n, c.Ends text tokens a b m q ∧ l.Held text s tokens a b c m k n := by
  subst htree
  obtain ⟨m, q, hends⟩ := P.exists_ends (hstands.laid c hc) (hstands.block.placed c hc)
  obtain ⟨k, n, h⟩ := P.exists_held (hstands.laid c hc) hends hu hl
  exact ⟨m, q, k, n, hends, h⟩

include ht

/-- The docstring begins before a lambda in a statement. -/
theorem start_lt_of_docstring {doc : Tree} (hdoc : d.docstring = some doc) : s.start doc < s.start l.body := by
  obtain ⟨c, hc, c', hc', rfl, htree, hle⟩ := hi_le_of_docstring hstands hdoc ht
  obtain ⟨m₁, q₁, hends₁⟩ := P.exists_ends (hstands.laid c hc) (hstands.block.placed c hc)
  obtain ⟨m', q, k, n, -, h⟩ := P.exists_held_of_cell hstands hu hl hc' htree
  have hk := h.lo
  have hlt := hends₁.lt
  have hm₁ := hends₁.le
  rw [P.offset_start hends₁]
  exact P.start_lt_of_held h hends₁.first (by omega)

/-- A body with a lambda is not only the word `pass`. -/
theorem lonePass?_eq_none : d.lonePass? = none := by
  by_contra hne
  obtain ⟨pass, hpass⟩ := Option.ne_none_iff_exists'.1 hne
  obtain ⟨hone, hkind⟩ := Definition.lonePass?_eq_some_iff.1 hpass
  obtain ⟨c, hc, htree⟩ := hstands.exists_cell (hstands.mem_of_statements ht)
  rw [hone, List.mem_singleton] at ht
  obtain ⟨m', q, k, n, hends, h⟩ := P.exists_held_of_cell hstands hu hl hc htree
  obtain ⟨-, hq, -⟩ := hends.of_pass (hstands.laid c hc) (by rw [htree, ht]; exact hkind)
  have hnq := hends.le_last h.last h.hi
  have hk := h.lo
  have hkn := h.lt
  omega

variable {head last : Tree}

/-- A lambda in the body is behind the place where the first statement begins, or in a decorator of it. -/
theorem aside_of_head (hhead : d.statements.head? = some head) :
    s.start head < s.start l.body ∨ s.stop l.body ≤ s.start head := by
  obtain ⟨c₁, hc₁, c, hc, rfl, htree, hlo⟩ := hstands.exists_head hhead ht
  obtain ⟨m', q, k, n, hends, h⟩ := P.exists_held_of_cell hstands hu hl hc htree
  rcases hstands.block.spread.eq_or_apart hc₁ hc with rfl | hapart
  · rw [h.stop, P.offset_start hends]
    rcases h.side with hnm | hmk
    · exact Or.inr (offsetOf_le P.terminated (P.b_le_a hnm hends.first) (P.a_le_length hends.first))
    · exact Or.inl (P.start_lt_of_held h hends.first hmk)
  · obtain ⟨m₁, q₁, hends₁⟩ := P.exists_ends (hstands.laid c₁ hc₁) (hstands.block.placed c₁ hc₁)
    have hm₁ := hends₁.lt
    have hq₁ := hends₁.le
    have hk := h.lo
    have hkn := h.lt
    have hn := h.hi
    rw [P.offset_start hends₁]
    exact Or.inl (P.start_lt_of_held h hends₁.first (by omega))

/-- A lambda in the body is below the start of the line that the body begins on. -/
theorem lineStart_lt_of_head (hhead : d.statements.head? = some head) :
    s.table.lineStart (Source.firstLine head) < s.start l.body := by
  obtain ⟨c₁, hc₁, c, hc, rfl, htree, hlo⟩ := hstands.exists_head hhead ht
  obtain ⟨m₁, q₁, hends₁⟩ := P.exists_ends (hstands.laid c₁ hc₁) (hstands.block.placed c₁ hc₁)
  obtain ⟨m', q, k, n, -, h⟩ := P.exists_held_of_cell hstands hu hl hc htree
  obtain ⟨f, -, -, hf, hfirst, hcase⟩ := P.exists_first hends₁
  have hfk := first_le_of_keyword hends₁ hcase h.keyword (hlo.trans h.lo)
  rw [hfirst]
  exact (P.lineStart_line_le hf).trans_lt (P.start_lt_of_held h hf hfk)

/-- The last statement ends behind a lambda in the body, and the line that it ends on goes on behind it. -/
theorem stop_le_of_last (hlast : d.statements.getLast? = some last) :
    s.stop l.body ≤ s.stop last ∧ s.stop l.body ≤ s.table.lineStart (last.stop.line + 1) := by
  obtain ⟨c₂, hc₂, rfl⟩ := hstands.exists_last (hstands.getLast?_of_statements hlast)
  have hmem₂ := List.mem_of_mem_getLast? hc₂
  obtain ⟨m₂, q₂, hends₂⟩ := P.exists_ends (hstands.laid c₂ hmem₂) (hstands.block.placed c₂ hmem₂)
  obtain ⟨c, hc, htree⟩ := hstands.exists_cell (hstands.mem_of_statements ht)
  obtain ⟨m', q, k, n, -, h⟩ := P.exists_held_of_cell hstands hu hl hc htree
  have hstop : s.stop l.body ≤ s.stop c₂.tree := by
    rw [h.stop, P.offset_stop hends₂]
    exact offsetOf_le P.terminated (P.b_le_b (hends₂.le_last h.last
      (h.hi.trans_le (hstands.block.spread.hi_le hc hc₂))) hends₂.last) (P.b_le hends₂.last)
  have hline := P.last_lt_lineStart hends₂.last
  rw [← P.offset_stop hends₂, ← stop_eq hends₂] at hline
  exact ⟨hstop, hstop.trans hline.le⟩

end Around

/-- A definition around a lambda is opened before it or behind it and closed behind it. -/
theorem aside_of_definition {o : Options} {x y : Site} {depth depth' : Int} {l : BoundLambda}
    {d : Definition} {e : Edit} (hx : x ∈ sites o s [] [] s.tree) (hy : y ∈ sites o s [] [] s.tree)
    (hl : Function.classify s x.above x.tree depth = .lambda l)
    (hd : Function.classify s y.above y.tree depth' = .definition d) (hin : x.IsIn y)
    (he : e ∈ (wrapDefinition o s y.units d).edits) :
    Aside (opensLambda o s x.units.length l) (closesLambda s x.units.length l) e := by
  obtain ⟨m, i, j, body, hstands⟩ := P.exists_stands (under_of_mem_sites hy) hd
  obtain ⟨u, hu, hunder⟩ := hin
  have hlevel := level_lt hy hx hu hunder
  obtain ⟨t, ht, hu⟩ := exists_statement hstands hd ⟨u, hu, hunder⟩ (by rw [hl]; simp)
  have hdocs {first : Tree} (h : e ∈ docstringEdits s y.units d first) :
      Aside (opensLambda o s x.units.length l) (closesLambda s x.units.length l) e := by
    obtain ⟨doc, hdoc, -, rfl⟩ := mem_docstringEdits h
    exact aside_before (Int.ofNat_lt.2 (P.start_lt_of_docstring hstands ht hu hl hdoc))
  have hform := form_wrapDefinition o s y.units d
  generalize wrapDefinition o s y.units d = w at he hform
  cases hform with
  | nothing _ => cases he
  | forPass _ hpass =>
    rw [P.lonePass?_eq_none hstands ht hu hl] at hpass
    cases hpass
  | afterDocstring _ hnil _ =>
    rw [hnil] at ht
    cases ht
  | @sameLine first head last _ _ hhead hlast hstart =>
    rcases List.mem_append.1 he with hmem | hmem
    · exact hdocs hmem
    rcases List.mem_pair.1 hmem with rfl | rfl
    · rcases P.aside_of_head hstands ht hu hl hhead with hlt | hle
      · exact aside_before (Int.ofNat_lt.2 hlt)
      · exact .opening rfl (Or.inr (Edit.not_le_of_opensFrom (Or.inr ⟨rfl, rfl⟩)
          (Edit.opensFrom_of_le (Int.ofNat_le.2 hle) fun _ => rfl)))
    · exact aside_behind hlevel (P.stop_le_of_last hstands ht hu hl hlast).1
  | @ownLines first head last _ _ hhead hlast hstart =>
    rcases List.mem_append.1 he with hmem | hmem
    · exact hdocs hmem
    rcases List.mem_cons.1 hmem with rfl | hmem
    · exact aside_before (Int.ofNat_lt.2 (P.lineStart_lt_of_head hstands ht hu hl hhead))
    rcases List.mem_append.1 hmem with hmem | hmem
    · obtain ⟨n, -, rfl⟩ := List.mem_map.1 hmem
      exact .shifting rfl
    · obtain rfl := List.mem_singleton.1 hmem
      exact aside_behind hlevel (P.stop_le_of_last hstands ht hu hl hlast).2

/-- What opens a function around a lambda is before the lambda or behind it, and what closes it is behind
it. -/
theorem aside_of_isIn {o : Options} {x y : Site} {depth depth' : Int} {l : BoundLambda} {e : Edit}
    (hx : x ∈ sites o s [] [] s.tree) (hy : y ∈ sites o s [] [] s.tree)
    (hl : Function.classify s x.above x.tree depth = .lambda l) (hin : x.IsIn y)
    (he : e ∈ y.edits o s depth') :
    Aside (opensLambda o s x.units.length l) (closesLambda s x.units.length l) e := by
  cases hc : Function.classify s y.above y.tree depth' with
  | definition d =>
    rw [Site.edits, hc] at he
    exact P.aside_of_definition hx hy hl hc hin he
  | lambda l' =>
    have hprecedes (edits : List Edit) {f : Edit} (hf : x.Wraps s depth f) :
        Edit.Precedes edits (opensLambda o s y.units.length l') f ∧
          Edit.Precedes edits f (closesLambda s y.units.length l') :=
      P.precedes_of_isIn_lambda hy hx hc hin hf
    rw [Site.edits_of_lambda hc] at he
    rcases List.mem_pair.1 he with rfl | rfl
    · exact .opening rfl (Or.inl (Edit.not_le_of_precedes fun edits =>
        (hprecedes edits (wraps_opensLambda hl)).1))
    · exact .closing rfl (Edit.not_le_of_precedes fun edits =>
        (hprecedes edits (wraps_closesLambda hl)).2)
  | unmatched =>
    rw [Site.edits, hc] at he
    cases he

/-! ## The edits between those of a lambda -/

section Lambda

variable {o : Options} {x y : Site} {depth depth' : Int} {l : BoundLambda} {e : Edit}
  (hx : x ∈ sites o s [] [] s.tree) (hl : Function.classify s x.above x.tree depth = .lambda l)

include hx hl

/-- A lambda is opened before it is closed. -/
theorem start_lt_stop_of_lambda : s.start l.body < s.stop l.body := by
  obtain ⟨k, body, -, -, hstands⟩ := P.laid.exists_lambda (under_of_mem_sites hx) hl
  obtain ⟨m, q, hends⟩ := P.exists_ends hstands.laid hstands.placed
  exact hstands.tree ▸ P.start_lt_stop hends

theorem not_closes_le_opens :
    ¬ (closesLambda s x.units.length l).le (opensLambda o s x.units.length l) = true :=
  Edit.not_le_of_start_lt (Int.ofNat_lt.2 (P.start_lt_stop_of_lambda hx hl))

/-- Only lambdas are in the body of a lambda. -/
theorem exists_lambda_of_isIn (hy : y ∈ sites o s [] [] s.tree) (hin : y.IsIn x) :
    ∃ l', Function.classify s y.above y.tree depth' = .lambda l' := by
  obtain ⟨t, ht, hu⟩ := hin
  obtain ⟨k, body, -, -, hstands⟩ := P.laid.exists_lambda (under_of_mem_sites hx) hl
  rw [P.laid.field_body (under_of_mem_sites hx) hl, List.mem_singleton] at ht
  have hsimple := Under.every hu (ht ▸ hstands.tree ▸ hstands.simple)
  have htraced := ((mem_sites o s s.tree [] [] y.above y.tree).1 ⟨_, hy⟩).2
  rw [Function.classify_atDepth]
  cases hc : Function.classify s y.above y.tree 0 with
  | lambda l' => exact ⟨_, rfl⟩
  | definition d =>
    obtain ⟨⟨r, k, span, ts, htree, hk⟩, -⟩ := Function.eq_of_classify_definition hc
    rw [htree, Tree.every_node_iff, hk] at hsimple
    cases hsimple.1.1
  | unmatched =>
    rw [hc] at htraced
    cases htraced

theorem between_of_isIn (hy : y ∈ sites o s [] [] s.tree) (hin : y.IsIn x) (he : e ∈ y.edits o s depth') :
    Edit.isBetween (opensLambda o s x.units.length l) (closesLambda s x.units.length l) e = true := by
  have hprecedes (edits : List Edit) : Edit.Precedes edits (opensLambda o s x.units.length l) e ∧
      Edit.Precedes edits e (closesLambda s x.units.length l) :=
    P.precedes_of_isIn_lambda hx hy hl hin (Site.wraps_of_mem he)
  exact Edit.isBetween_iff.2 ⟨Edit.not_le_of_precedes fun edits => (hprecedes edits).1,
    Edit.not_le_of_precedes fun edits => (hprecedes edits).2⟩

omit P hx in
/-- The edits of a function beside a lambda are before it or behind it. -/
theorem outside_of_separate (hsep : x.Separate s y) (hin : ¬ y.IsIn x) (hout : ¬ x.IsIn y)
    (he : e ∈ y.edits o s depth') : ¬ (opensLambda o s x.units.length l).le e = true ∨
      ¬ e.le (closesLambda s x.units.length l) = true := by
  cases hsep with
  | inside h => exact absurd h hin
  | around h => exact absurd h hout
  | before h => exact Or.inr (h _ _ _ _ (wraps_closesLambda hl) (Site.wraps_of_mem he))
  | after h => exact Or.inl (h _ _ _ _ (Site.wraps_of_mem he) (wraps_opensLambda hl))

/-- Between the edits of a lambda are those of the functions in its body, and the indentation of the lines
that begin in the body by functions around. -/
theorem isBetween_iff_of_separate (hy : y ∈ sites o s [] [] s.tree) (hsep : x.Separate s y)
    (he : e ∈ y.edits o s depth') :
    Edit.isBetween (opensLambda o s x.units.length l) (closesLambda s x.units.length l) e = true ↔
      y.IsIn x ∨ x.IsIn y ∧ e.order = shifting ∧ s.start l.body ≤ e.start ∧ e.start < s.stop l.body := by
  constructor
  · intro h
    obtain ⟨hopens, hcloses⟩ := Edit.isBetween_iff.1 h
    have hopens' := Edit.le_of_not_le hopens
    have hcloses' := Edit.le_of_not_le hcloses
    by_cases hin : y.IsIn x
    · exact Or.inl hin
    by_cases hout : x.IsIn y
    · refine Or.inr ⟨hout, ?_⟩
      cases P.aside_of_isIn hx hy hl hout he with
      | opening _ hnot => rcases hnot with hnot | hnot <;> contradiction
      | shifting horder =>
        refine ⟨horder, Edit.start_le_of_le hopens', lt_of_le_of_ne (Edit.start_le_of_le hcloses') ?_⟩
        intro heq
        rcases Edit.le_iff.1 hcloses' with hlt | ⟨-, hle⟩
        · exact absurd heq hlt.ne
        · rw [horder] at hle
          cases hle
      | closing _ hnot => contradiction
    · rcases outside_of_separate hl hsep hin hout he with hnot | hnot <;> contradiction
  · rintro (hin | ⟨-, horder, hle, hlt⟩)
    · exact P.between_of_isIn hx hl hy hin he
    · refine Edit.isBetween_iff.2 ⟨fun hopens => ?_, Edit.not_le_of_start_lt hlt⟩
      rcases Edit.le_iff.1 hopens with hlt' | ⟨-, horder'⟩
      · exact absurd hlt' (not_lt.2 hle)
      · rw [horder] at horder'
        cases horder'

/-- No edit of another function is beside those of a lambda. -/
theorem not_beside_of_separate (hy : y ∈ sites o s [] [] s.tree) (hsep : x.Separate s y)
    (he : e ∈ y.edits o s depth') :
    Edit.isBeside (opensLambda o s x.units.length l) e = false ∧
      Edit.isBeside (closesLambda s x.units.length l) e = false := by
  have hlt := P.not_closes_le_opens hx hl
  have hbefore (h : ¬ (opensLambda o s x.units.length l).le e = true) :
      Edit.isBeside (opensLambda o s x.units.length l) e = false ∧
        Edit.isBeside (closesLambda s x.units.length l) e = false := by
    simp [Edit.isBeside, h, Edit.not_le_trans h hlt]
  have hbehind (h : ¬ e.le (closesLambda s x.units.length l) = true) :
      Edit.isBeside (opensLambda o s x.units.length l) e = false ∧
        Edit.isBeside (closesLambda s x.units.length l) e = false := by
    simp [Edit.isBeside, h, Edit.not_le_trans hlt h]
  by_cases hin : y.IsIn x
  · obtain ⟨hopens, hcloses⟩ := Edit.isBetween_iff.1 (P.between_of_isIn hx hl hy hin he)
    simp [Edit.isBeside, hopens, hcloses]
  by_cases hout : x.IsIn y
  · cases P.aside_of_isIn hx hy hl hout he with
    | opening _ hnot => exact hnot.elim hbefore hbehind
    | shifting horder =>
      have hnot {f : Edit} (h : Edit.orderLe shifting f.order = false) : Edit.isBeside f e = false := by
        rw [Edit.isBeside, Bool.and_eq_false_iff]
        by_contra hboth
        simp only [not_or, Bool.not_eq_false] at hboth
        have hle := Edit.start_le_of_le hboth.1
        rcases Edit.le_iff.1 hboth.2 with hlt | ⟨-, horder'⟩
        · omega
        · rw [horder, h] at horder'
          cases horder'
      exact ⟨hnot rfl, hnot rfl⟩
    | closing _ hnot => exact hbehind hnot
  · exact (outside_of_separate hl hsep hin hout he).elim hbefore hbehind

end Lambda

/-- No other edit of the pass is beside those of a lambda. -/
theorem alone_of_lambda {o : Options} {met : List (Site × Int)} {m : Site × Int} {l : BoundLambda}
    (hmet : met.map Prod.fst = sites o s [] [] s.tree) (hm : m ∈ met)
    (hl : Function.classify s m.1.above m.1.tree m.2 = .lambda l) :
    (editsOf o s met).filter (Edit.isBeside (opensLambda o s m.1.units.length l)) =
        [opensLambda o s m.1.units.length l] ∧
      (editsOf o s met).filter (Edit.isBeside (closesLambda s m.1.units.length l)) =
        [closesLambda s m.1.units.length l] := by
  have hsite : ∀ n ∈ met, n.1 ∈ sites o s [] [] s.tree :=
    fun n hn => hmet ▸ List.mem_map_of_mem (f := Prod.fst) hn
  have hpairs := P.pairwise_separate o
  rw [← hmet, List.pairwise_map] at hpairs
  have hlt := P.not_closes_le_opens (hsite m hm) hl
  obtain ⟨front, back, rfl⟩ := List.append_of_mem hm
  obtain ⟨-, hback, hfront⟩ := List.pairwise_append.1 hpairs
  have hsep : ∀ n ∈ front ++ back, m.1.Separate s n.1 := by
    intro n hn
    rcases List.mem_append.1 hn with hn | hn
    · exact (hfront n hn m List.mem_cons_self).symm
    · exact (List.pairwise_cons.1 hback).1 n hn
  have hothers {f : Edit} {ns : List (Site × Int)} (hns : ∀ n ∈ ns, n ∈ front ++ back)
      (h : ∀ n ∈ front ++ back, ∀ e ∈ n.1.edits o s n.2, Edit.isBeside f e = false) :
      (editsOf o s ns).filter (Edit.isBeside f) = [] := by
    refine List.filter_eq_nil_iff.2 fun e he => ?_
    obtain ⟨n, hn, he⟩ := List.mem_flatMap.1 he
    rw [h n (hns n hn) e he]
    exact Bool.false_ne_true
  have halone {f : Edit} (hown : (m.1.edits o s m.2).filter (Edit.isBeside f) = [f])
      (h : ∀ n ∈ front ++ back, ∀ e ∈ n.1.edits o s n.2, Edit.isBeside f e = false) :
      (editsOf o s (front ++ m :: back)).filter (Edit.isBeside f) = [f] := by
    rw [editsOf_append, ← List.singleton_append, editsOf_append, List.filter_append, List.filter_append,
      hothers (fun n hn => List.mem_append_left _ hn) h,
      hothers (fun n hn => List.mem_append_right _ hn) h, editsOf, List.flatMap_singleton, hown]
    rfl
  have hbeside (n : Site × Int) (hn : n ∈ front ++ back) (e : Edit) (he : e ∈ n.1.edits o s n.2) :=
    P.not_beside_of_separate (hsite m hm) hl
      (hsite n (by simp only [List.mem_append, List.mem_cons] at hn ⊢; tauto)) (hsep n hn) he
  constructor
  · refine halone ?_ fun n hn e he => (hbeside n hn e he).1
    rw [Site.edits_of_lambda hl]
    simp [Edit.isBeside, Edit.le_refl, hlt]
  · refine halone ?_ fun n hn e he => (hbeside n hn e he).2
    rw [Site.edits_of_lambda hl]
    simp [Edit.isBeside, Edit.le_refl, hlt]

end Parsed

/-- Two lambdas whose bodies end at one place, where the body of a definition ends, too. -/
def innerLambda : List Char :=
  "def f(): return lambda x: lambda y: (x,\n  y)\n".toList

end CallTrace
