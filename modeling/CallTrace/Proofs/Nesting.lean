import Mathlib
import CallTrace.Proofs.Coverage
import CallTrace.Proofs.Order

/-!
# Functions inside functions

The functions that a pass rewrites are nested as their nodes are: `pass_nests`.  All edits of a function
in a body are made between the one that opens the body and the one that closes it
(`Parsed.precedes_of_isIn`).  The exception is a body whose first statement shares the line of a docstring
and that ends with a definition: `pass_sharedDefinition` shows such a body.

A body is opened before its first token, and a function in it begins with a keyword behind that.  A body is
closed where its last statement ends or where the next line begins, and a function in it is closed there or
before; where both are closed at one place their levels decide.  A level counts the functions around
(`levelOf`), so that the inner one is at the deeper level (`level_lt`).
-/

namespace CallTrace

open Syntax Instrument Text

/-! ## The order in which edits are made -/

namespace Edit

/-- Wherever the two stand among the edits in the order in which they are made, the first is made
first. -/
def Precedes (edits : List Edit) (a b : Edit) : Prop :=
  ∀ i j : Nat, (sort edits)[i]? = some a → (sort edits)[j]? = some b → i < j

variable {a b : Edit}

theorem precedes_of_not_le {edits : List Edit} (h : ¬ b.le a = true) : Precedes edits a b := by
  intro i j hi hj
  obtain ⟨hi, ha⟩ := List.getElem?_eq_some_iff.1 hi
  obtain ⟨hj, hb⟩ := List.getElem?_eq_some_iff.1 hj
  by_contra hle
  rcases Nat.lt_or_eq_of_le (Nat.not_lt.1 hle) with hji | rfl
  · have := List.pairwise_iff_getElem.1 (pairwise_sort edits) j i hj hi hji
    rw [ha, hb] at this
    exact h this
  · rw [← ha, ← hb] at h
    exact h (le_iff.2 (Or.inr ⟨rfl, orderLe_refl _⟩))

theorem precedes_of_start_lt {edits : List Edit} (h : a.start < b.start) : Precedes edits a b :=
  precedes_of_not_le (not_le_of_start_lt h)

theorem le_of_precedes {edits : List Edit} (h : Precedes edits a b) (ha : a ∈ edits) (hb : b ∈ edits) :
    a.le b = true := by
  obtain ⟨i, hi, hia⟩ := List.getElem_of_mem (mem_sort_iff.2 ha)
  obtain ⟨j, hj, hjb⟩ := List.getElem_of_mem (mem_sort_iff.2 hb)
  have hij := h i j (List.getElem?_eq_some_iff.2 ⟨hi, hia⟩) (List.getElem?_eq_some_iff.2 ⟨hj, hjb⟩)
  have hle := List.pairwise_iff_getElem.1 (pairwise_sort edits) i j hi hj hij
  rwa [hia, hjb] at hle

end Edit

namespace Instrument

variable {o : Options} {s : Source}

/-- Only closing texts are inserted before a closing text at its place. -/
theorem exists_closing {e f : Edit} {level : Nat} (he : e ∈ (pass o s).edits) (hle : e.le f = true)
    (hstart : e.start = f.start) (hf : f.order = closing level) : ∃ level', e.order = closing level' := by
  obtain ⟨x, depth, -, hw⟩ := exists_wraps he
  have horder : Edit.orderLe e.order (closing level) = true := by
    rcases Edit.le_iff.1 hle with h | ⟨-, h⟩
    · exact absurd hstart h.ne
    · exact hf ▸ h
  cases hw with
  | beforeBody _ => cases horder
  | afterBody _ => exact ⟨_, rfl⟩
  | definition _ hw =>
    cases hw with
    | afterLast _ => exact ⟨_, rfl⟩
    | belowLast _ => exact ⟨_, rfl⟩
    | _ => cases horder

/-! ## Levels -/

/-- How many functions that a pass meets have a node in their bodies. -/
def levelOf (o : Options) (s : Source) : Tree → List Tree → Nat
  | _, [] => 0
  | t, u :: above => levelOf o s u above +
      if isTraced o (Function.classify s above u 0) && t.role = .body then 1 else 0

theorem length_itemUnits (above : List Tree) (units : List (List Char)) (unit : List Char) (t u : Tree)
    (h : units.length = levelOf o s u above) :
    (itemUnits (isTraced o (Function.classify s above u 0)) units unit t).length =
      levelOf o s t (u :: above) := by
  rw [itemUnits, levelOf, ← h]
  split
  · rw [List.length_append]
    rfl
  · rfl

mutual

/-- The bodies around a function are shifted by one unit for each level. -/
theorem length_units (o : Options) (s : Source) : ∀ (t : Tree) (above : List Tree)
    (units : List (List Char)), units.length = levelOf o s t above →
      ∀ x ∈ sites o s above units t, x.units.length = levelOf o s x.tree x.above
  | .leaf r v, above, units, _, x, hx => by
    rw [sites] at hx
    cases hx
  | .node r k span ts, above, units, h, x, hx => by
    have hperm := sites_perm o s above units r k span ts
    rcases List.mem_append.1 (hperm.mem_iff.1 hx) with hx | hx
    · obtain ⟨rfl, -⟩ := mem_ownSite.1 hx
      exact h
    · obtain ⟨t, ht, hx⟩ := List.mem_flatMap.1 hx
      exact length_unitsIn o s ts t ht _ _ (length_itemUnits above units _ t _ h) x hx

theorem length_unitsIn (o : Options) (s : Source) : ∀ ts : List Tree, ∀ t ∈ ts,
    ∀ (above : List Tree) (units : List (List Char)), units.length = levelOf o s t above →
      ∀ x ∈ sites o s above units t, x.units.length = levelOf o s x.tree x.above
  | [] => by simp
  | t :: ts => List.forall_mem_cons.2 ⟨length_units o s t, length_unitsIn o s ts⟩

end

theorem level_le {above nodes : List Tree} {t u : Tree} (h : Under above t nodes u) :
    levelOf o s t above ≤ levelOf o s u nodes := by
  induction h with
  | self => exact le_rfl
  | item _ _ ih =>
    refine le_trans ?_ ih
    rw [levelOf]
    exact Nat.le_add_right _ _

/-- A function in the body of another is at a deeper level. -/
theorem level_lt {x y : Site} {t : Tree} (hx : x ∈ sites o s [] [] s.tree)
    (hy : y ∈ sites o s [] [] s.tree) (ht : t ∈ x.tree.field .body)
    (hu : Under (x.tree :: x.above) t y.above y.tree) : x.units.length < y.units.length := by
  have htraced := ((mem_sites o s s.tree [] [] x.above x.tree).1 ⟨_, hx⟩).2
  have hrole : t.role = .body := by
    simpa using (List.mem_filter.1 ht).2
  rw [length_units o s s.tree [] [] rfl x hx, length_units o s s.tree [] [] rfl y hy]
  refine lt_of_lt_of_le ?_ (level_le hu)
  rw [levelOf, htraced, hrole]
  exact Nat.lt_succ_self _

/-! ## What opens a definition and what closes it -/

/-- Where a body from `head` to `last` is opened, and where it is closed. -/
inductive Brackets (s : Source) (level : Nat) (head last : Tree) : Edit → Edit → Prop
  | sameLine {before after : List Char} : s.atLineStart head = false →
      Brackets s level head last (insertion (s.start head) before (opening level))
        (insertion (s.stop last) ('\n' :: after) (closing level))
  | ownLines {before after : List Char} : s.atLineStart head = true →
      Brackets s level head last
        (insertion (s.table.lineStart (Source.firstLine head)) before (opening level))
        (insertion (s.table.lineStart (last.stop.line + 1)) after (closing level))

/-- A definition whose body does something has two edits of which one tells that it is entered and the
other that it is left. -/
theorem exists_brackets (o : Options) (s : Source) {units : List (List Char)} (hu : ∀ u ∈ units, IsPad u)
    {d : Definition} (hempty : d.isEmpty = false) (hd : d.body ≠ []) :
    ∃ head ∈ d.statements.head?, ∃ last ∈ d.statements.getLast?,
      ∃ opens ∈ (wrapDefinition o s units d).edits, ∃ closes ∈ (wrapDefinition o s units d).edits,
        Brackets s units.length head last opens closes ∧
        Quotes [o.entering d.name d.depth] opens.text ∧ Quotes [o.leaving d.name d.depth] closes.text := by
  have hline {first : Tree} : IsSilent (newLine s units d first) := isSilent_newLine hu
  have hpad {first : Tree} : IsSilent (padding s units d first) := (isPad_padding hu d first).isSilent
  have hunit {first : Tree} : IsSilent (bodyIndentation s d.node first).unit :=
    (isPad_bodyIndentation s d.node first).2.1.isSilent
  have htry : IsSilent "try:".toList := by decide
  have htryLine : IsSilent "try:\n".toList := by decide
  have hfinally : IsSilent "finally:".toList := by decide
  have hbreak : IsSilent ['\n'] := by decide
  have hform := form_wrapDefinition o s units d
  generalize wrapDefinition o s units d = w at hform
  cases hform with
  | nothing hnone =>
    rcases hnone with hnil | ⟨hnil, -⟩
    · exact absurd hnil hd
    · rw [Definition.isEmpty_iff.2 (Or.inl hnil)] at hempty
      cases hempty
  | forPass _ ht =>
    rw [Definition.isEmpty_iff.2 (Or.inr ⟨_, ht⟩)] at hempty
    cases hempty
  | afterDocstring _ hnil _ =>
    rw [Definition.isEmpty_iff.2 (Or.inl hnil)] at hempty
    cases hempty
  | @sameLine first head last _ _ hhead hlast hstart =>
    refine ⟨head, hhead, last, hlast, _, List.mem_append_right _ List.mem_cons_self, _,
      List.mem_append_right _ (List.mem_cons_of_mem _ List.mem_cons_self), .sameLine hstart, ?_, ?_⟩
    · simp only [insertion, List.append_assoc]
      exact hline.quotes (quotes_emission (hline.append (htry.append (hline.append hunit))))
    · simp only [insertion, List.append_assoc]
      exact hline.quotes (hfinally.quotes (hline.quotes (hunit.quotes (quotes_emission_last _))))
  | @ownLines first head last _ _ hhead hlast hstart =>
    refine ⟨head, hhead, last, hlast, _, List.mem_append_right _ List.mem_cons_self, _,
      List.mem_append_right _ (List.mem_cons_of_mem _ (List.mem_append_right _ List.mem_cons_self)),
      .ownLines hstart, ?_, ?_⟩
    · simp only [insertion, List.append_assoc]
      exact hpad.quotes (quotes_emission (hline.append htryLine))
    · simp only [insertion, List.append_assoc]
      exact hpad.quotes (hfinally.quotes (hline.quotes (hunit.quotes (quotes_emission hbreak))))

end Instrument

namespace Definition

/-- The first statement after the docstring is the first thing on its line, or neither it nor the last
one holds a definition or a class. -/
def IsRegular (s : Source) (d : Definition) : Prop :=
  (∀ head ∈ d.statements.head?, s.atLineStart head = true) ∨
    (∀ head ∈ d.statements.head?, head.IsSimple) ∧ ∀ last ∈ d.statements.getLast?, last.IsSimple

/-- A statement stands behind the first one after the docstring. -/
theorem Stands.exists_head {tokens : Array Token} {d : Definition} {m i j : Nat} {body : List Cell}
    {head t : Tree} (h : d.Stands tokens m i j body) (hhead : head ∈ d.statements.head?)
    (ht : t ∈ d.statements) : ∃ c ∈ body, ∃ c' ∈ body, c.tree = head ∧ c'.tree = t ∧ c.lo ≤ c'.lo := by
  have htrees := h.trees
  rw [h.parts] at htrees
  obtain ⟨docs, cells, hbody, -, hcells⟩ := List.map_eq_append_iff.1 htrees
  have hpair := h.block.spread.pairwise
  rw [hbody] at hpair
  have hpair := (List.pairwise_append.1 hpair).2.1
  have hin {c : Cell} (hc : c ∈ cells) : c ∈ body := hbody ▸ List.mem_append_right _ hc
  cases cells with
  | nil =>
    rw [← hcells] at ht
    cases ht
  | cons c cells =>
    rw [← hcells] at hhead ht
    obtain ⟨c', hc', rfl⟩ := List.mem_map.1 ht
    refine ⟨c, hin List.mem_cons_self, c', hin hc', Option.some.inj hhead, rfl, ?_⟩
    rcases List.mem_cons.1 hc' with rfl | hc'
    · exact le_rfl
    · have hle := (h.block.spread.bounds c (hin List.mem_cons_self)).2.1
      exact hle.trans ((List.pairwise_cons.1 hpair).1 c' hc')

end Definition

/-! ## Docstrings -/

/-- No function is in a literal of one text. -/
theorem Function.classify_of_constant {s : Source} {above nodes : List Tree} {r r' : Role}
    {span : Option Span} {v : Leaf} {u : Tree} {depth : Int}
    (h : Under above (.node r .constant span [.leaf r' v]) nodes u) :
    classify s nodes u depth = .unmatched := by
  cases h with
  | self => exact classify_eq_unmatched rfl (by decide)
  | item hmem hunder =>
    obtain rfl := List.mem_singleton.1 hmem
    cases hunder

/-- No function is in a constant that has a text among its items. -/
theorem Syntax.Laid.classify_of_text {tokens : Array Token} {c : Cell} (h : Laid tokens c)
    (hconstant : c.tree.is .constant = true) {r : Role} {v : Leaf} (htext : .leaf r v ∈ c.tree.items)
    {s : Source} {above nodes : List Tree} {u : Tree} {depth : Int}
    (hu : Under above c.tree nodes u) : Function.classify s nodes u depth = .unmatched := by
  cases h with
  | leaf _ => cases hconstant
  | literal hk _ _ _ =>
    rcases hk with ⟨rfl, v, rfl⟩ | rfl
    · exact Function.classify_of_constant hu
    · cases hconstant
  | lambda _ _ _ _ _ _ _ _ _ _ => cases hconstant
  | definition hk _ _ _ _ _ _ _ _ _ _ _ =>
    obtain rfl : _ = Kind.constant := by simpa [Tree.is, Tree.kind?] using hconstant
    cases hk
  | node _ _ _ hsingle _ _ _ _ _ _ _ _ =>
    obtain rfl : _ = Kind.constant := by simpa [Tree.is, Tree.kind?] using hconstant
    obtain ⟨item, rfl⟩ := List.length_eq_one_iff.1 (hsingle rfl)
    obtain rfl := List.mem_singleton.1 htext
    exact Function.classify_of_constant hu

/-- No function is in a docstring. -/
theorem Syntax.Laid.classify_of_docstring {tokens : Array Token} {c : Cell} (h : Laid tokens c)
    (hdoc : Function.isDocstring c.tree = true) {s : Source} {above nodes : List Tree} {u : Tree}
    {depth : Int} (hu : Under above c.tree nodes u) :
    Function.classify s nodes u depth = .unmatched := by
  simp only [Function.isDocstring, Bool.and_eq_true, Option.any_eq_true] at hdoc
  obtain ⟨hstmt, value, hvalue, hconstant, htext⟩ := hdoc
  cases h with
  | leaf _ => cases hstmt
  | literal hk _ _ _ => rcases hk with ⟨rfl, -⟩ | rfl <;> cases hstmt
  | lambda _ _ _ _ _ _ _ _ _ _ => cases hstmt
  | definition hk _ _ _ _ _ _ _ _ _ _ _ =>
    obtain rfl : _ = Kind.exprStmt := by simpa [Tree.is, Tree.kind?] using hstmt
    cases hk
  | node _ _ _ hsingle _ _ _ _ hperm _ _ hl =>
    obtain rfl : _ = Kind.exprStmt := by simpa [Tree.is, Tree.kind?] using hstmt
    obtain ⟨item, rfl⟩ := List.length_eq_one_iff.1 (hsingle rfl)
    obtain rfl := List.mem_singleton.1 (List.mem_of_find?_eq_some hvalue)
    cases hu with
    | self => exact Function.classify_eq_unmatched rfl (by decide)
    | item hmem hunder =>
      obtain rfl := List.mem_singleton.1 hmem
      obtain ⟨c, hc, rfl⟩ := List.mem_map.1 (hperm.mem_iff.2 hmem)
      obtain ⟨leaf, hleaf, hshape⟩ := List.any_eq_true.1 htext
      cases leaf with
      | leaf r v => exact (hl c hc).classify_of_text hconstant hleaf hunder
      | node _ _ _ _ => cases hshape

namespace Parsed

variable {text : List Char} {s : Source} {tokens : Array Token} {a b : Nat → Nat}
  (P : Parsed text s tokens a b)

include P

/-! ## Inside of a body -/

omit P in
/-- Only signs stand before the first token of a statement, or the first one of its decorators. -/
theorem first_le_of_keyword {c : Cell} {f k m n : Nat} (h : c.Ends text tokens a b m n)
    (hcase : (c.tree.field .decorators = [] ∧ f = m) ∨
      (c.tree.field .decorators ≠ [] ∧ (∃ l, lexemeAt tokens f = some l ∧ l.isPlain = true) ∧
        ∀ k, c.lo ≤ k → k < f → ∃ g, lexemeAt tokens k = some (.sign g)))
    (hk : KeywordAt tokens k) (hlo : c.lo ≤ k) : f ≤ k := by
  rcases hcase with ⟨hnil, rfl⟩ | ⟨-, -, hsigns⟩
  · have ha := h.adorned
    rw [hnil] at ha
    cases ha
    exact hlo
  · by_contra hlt
    obtain ⟨g, hg⟩ := hsigns k hlo (Nat.not_le.1 hlt)
    obtain ⟨w, hw⟩ := hk
    rw [hg] at hw
    cases hw

omit P in
theorem ne_unmatched_of_wraps {y : Site} {depth : Int} {e : Edit} (h : y.Wraps s depth e) :
    Function.classify s y.above y.tree depth ≠ .unmatched := by
  intro hnone
  cases h with
  | definition hd _ =>
    rw [hnone] at hd
    cases hd
  | beforeBody hl =>
    rw [hnone] at hl
    cases hl
  | afterBody hl =>
    rw [hnone] at hl
    cases hl

omit P in
/-- A function in the body of a definition is in a statement after the docstring. -/
theorem exists_statement {x y : Site} {depth depth' : Int} {d : Definition} {m i j : Nat}
    {body : List Cell} (h : d.Stands tokens m i j body)
    (hd : Function.classify s x.above x.tree depth = .definition d) (hin : y.IsIn x)
    (hy : Function.classify s y.above y.tree depth' ≠ .unmatched) :
    ∃ t ∈ d.statements, Under (x.tree :: x.above) t y.above y.tree := by
  obtain ⟨t, ht, hu⟩ := hin
  obtain ⟨-, -, rfl⟩ := Function.eq_of_classify_definition hd
  have hbody : t ∈ (Function.definitionOf s x.tree depth).body := ht
  rw [h.parts, List.mem_append] at hbody
  rcases hbody with hdoc | hmem
  · have hfilter := Option.mem_toList.1 hdoc
    obtain ⟨-, hdoc⟩ := Option.mem_filter_iff.1 hfilter
    obtain ⟨c, hc, rfl⟩ := h.exists_cell ht
    exact absurd ((h.laid c hc).classify_of_docstring hdoc hu) hy
  · exact ⟨t, hmem, hu⟩

/-- The edits of a function in a regular body are made between what opens the body and what closes
it. -/
theorem precedes_of_isIn {o : Options} {edits : List Edit} {x y : Site} {depth depth' : Int}
    {d : Definition} {head last : Tree} {opens closes e : Edit} (hx : x ∈ sites o s [] [] s.tree)
    (hy : y ∈ sites o s [] [] s.tree) (hd : Function.classify s x.above x.tree depth = .definition d)
    (hr : d.IsRegular s) (hhead : head ∈ d.statements.head?) (hlast : last ∈ d.statements.getLast?)
    (hb : Brackets s x.units.length head last opens closes) (hin : y.IsIn x)
    (he : y.Wraps s depth' e) :
    Edit.Precedes edits opens e ∧ Edit.Precedes edits e closes := by
  obtain ⟨m, i, j, body, hstands⟩ := P.exists_stands (under_of_mem_sites hx) hd
  obtain ⟨u, hu, hunder⟩ := hin
  have hlevel := level_lt hx hy hu hunder
  obtain ⟨t, ht, hu⟩ := exists_statement hstands hd ⟨u, hu, hunder⟩ (ne_unmatched_of_wraps he)
  obtain ⟨c₁, hc₁, c, hc, rfl, rfl, hlo⟩ := hstands.exists_head hhead ht
  obtain ⟨c₂, hc₂, rfl⟩ := hstands.exists_last (hstands.getLast?_of_statements hlast)
  have hmem₂ := List.mem_of_mem_getLast? hc₂
  obtain ⟨m₁, q₁, hends₁⟩ := P.exists_ends (hstands.laid c₁ hc₁) (hstands.block.placed c₁ hc₁)
  obtain ⟨m₂, q₂, hends₂⟩ := P.exists_ends (hstands.laid c₂ hmem₂) (hstands.block.placed c₂ hmem₂)
  obtain ⟨k, n, place, hk, hn, hkey, hend, hlt, hcloses, hclosed, hsimple⟩ :=
    P.exists_extent (hstands.laid c hc) hu he
  obtain ⟨f, -, -, hf, hfirst, hcase⟩ := P.exists_first hends₁
  have hfk := first_le_of_keyword hends₁ hcase hkey (hlo.trans hk)
  have hopen : offsetOf text (a f) ≤ offsetOf text (a k) :=
    offsetOf_le P.terminated (P.a_le_a hf hfk hkey.startsAt) (P.a_le_length hkey.startsAt)
  have hbn : b n ≤ b q₂ := P.b_le_b
    (hends₂.le_last hend (hn.trans_le (hstands.block.spread.hi_le hc hc₂))) hends₂.last
  cases hb with
  | sameLine hnot =>
    obtain ⟨hsimple₁, hsimple₂⟩ := hr.resolve_left fun h => by
      rw [h _ hhead] at hnot
      cases hnot
    have hfm : f = m₁ := by
      rcases hcase with ⟨-, rfl⟩ | ⟨hne, -⟩
      · rfl
      · exact absurd ((hstands.laid c₁ hc₁).field_decorators (hsimple₁ _ hhead)) hne
    subst hfm
    constructor
    · refine Edit.precedes_of_start_lt (lt_of_le_of_lt ?_ hlt)
      exact Int.ofNat_le.2 ((P.offset_start hends₁).trans_le hopen)
    · refine Edit.precedes_of_not_le (Edit.not_le_of_closing (hcloses.mono ?_) rfl rfl hlevel)
      rcases hstands.block.spread.eq_or_hi_le hc hc₂ with rfl | hle
      · rw [hsimple (hsimple₂ _ hlast), P.offset_stop hends₂]
        exact offsetOf_le P.terminated hbn (P.b_le hends₂.last)
      · have hfirst₂ := hends₂.adorned.le
        exact (P.closedAt_le hclosed (by omega) hends₂.first (by omega)).trans
          ((P.offset_start hends₂).symm.trans_le (P.start_lt_stop hends₂).le)
  | ownLines _ =>
    constructor
    · refine Edit.precedes_of_start_lt (lt_of_le_of_lt ?_ hlt)
      rw [hfirst]
      exact Int.ofNat_le.2 ((P.lineStart_line_le hf).trans hopen)
    · refine Edit.precedes_of_not_le (Edit.not_le_of_closing (hcloses.mono ?_) rfl rfl hlevel)
      rw [stop_eq hends₂]
      exact (P.closedAt_le_below hclosed hend).trans
        (P.lineStart_mono (Nat.succ_le_succ (line_mono hbn)))

/-- The edits of a function in the body of a lambda are made between those of the lambda. -/
theorem precedes_of_isIn_lambda {o : Options} {edits : List Edit} {x y : Site} {depth depth' : Int}
    {l : BoundLambda} {before after : List Char} {e : Edit} (hx : x ∈ sites o s [] [] s.tree)
    (hy : y ∈ sites o s [] [] s.tree) (hl : Function.classify s x.above x.tree depth = .lambda l)
    (hin : y.IsIn x) (he : y.Wraps s depth' e) :
    Edit.Precedes edits (insertion (s.start l.body) before (opening x.units.length)) e ∧
      Edit.Precedes edits e (insertion (s.stop l.body) after (closing x.units.length)) := by
  obtain ⟨k₀, body, -, -, hstands⟩ := P.laid.exists_lambda (under_of_mem_sites hx) hl
  obtain ⟨t, ht, hu⟩ := hin
  have hlevel := level_lt hx hy ht hu
  rw [P.laid.field_body (under_of_mem_sites hx) hl, List.mem_singleton] at ht
  rw [ht, ← hstands.tree] at hu
  obtain ⟨m, q, hends⟩ := P.exists_ends hstands.laid hstands.placed
  obtain ⟨k, n, place, hk, hn, hkey, hend, hlt, hcloses, -, hsimple⟩ :=
    P.exists_extent hstands.laid hu he
  have hmk : m ≤ k := by
    have ha := hends.adorned
    rw [hstands.laid.field_decorators hstands.simple] at ha
    cases ha
    exact hk
  rw [← hstands.tree, P.offset_start hends, P.offset_stop hends]
  constructor
  · refine Edit.precedes_of_start_lt (lt_of_le_of_lt (Int.ofNat_le.2 ?_) hlt)
    exact offsetOf_le P.terminated (P.a_le_a hends.first hmk hkey.startsAt)
      (P.a_le_length hkey.startsAt)
  · refine Edit.precedes_of_not_le (Edit.not_le_of_closing (hcloses.mono ?_) rfl rfl hlevel)
    rw [hsimple hstands.simple]
    exact offsetOf_le P.terminated (P.b_le_b (hends.le_last hend hn) hends.last) (P.b_le hends.last)

/-- A body is opened before it is closed. -/
theorem opens_lt_closes {d : Definition} {m i j level : Nat} {body : List Cell} {head last : Tree}
    {opens closes : Edit} (h : d.Stands tokens m i j body) (hhead : head ∈ d.statements.head?)
    (hlast : last ∈ d.statements.getLast?) (hb : Brackets s level head last opens closes) :
    opens.start < closes.start := by
  have hle := P.stop_le_last h (h.getLast?_of_statements hlast)
    (h.mem_of_statements (List.mem_of_mem_head? hhead))
  obtain ⟨c, -, rfl, m', q, hends⟩ := P.exists_ends_of_mem h
    (h.mem_of_statements (List.mem_of_mem_head? hhead))
  have hlt := (P.start_lt_stop hends).trans_le hle
  cases hb with
  | sameLine _ => exact Int.ofNat_lt.2 hlt
  | ownLines _ =>
    obtain ⟨c', -, rfl, m'', q', hends'⟩ := P.exists_ends_of_mem h
      (h.mem_of_statements (List.mem_of_mem_getLast? hlast))
    have hstop := P.last_lt_lineStart hends'.last
    rw [← P.offset_stop hends', ← stop_eq hends'] at hstop
    exact Int.ofNat_lt.2 (((P.lineStart_firstLine_le hends).trans_lt hlt).trans hstop)

/-! ## Lines -/

/-- Nothing that is no layout ends where a line begins. -/
theorem last_ne_lineStart {line n : Nat} (h₁ : 1 ≤ line) (h₂ : line ≤ s.table.count + 1)
    (hn : StartsAt tokens n) : offsetOf text (b n) ≠ s.table.lineStart line := by
  obtain ⟨k, hk⟩ : ∃ k, b n = k + 1 := ⟨b n - 1, by have := P.a_lt_b hn; omega⟩
  have hle := P.b_le hn
  have hline : (placeOf text (b n)).line = (placeOf text k).line := by
    refine line_eq_of_no_newline (by omega) hle fun i hi hin => ?_
    obtain rfl : i = k := by omega
    exact P.getElem?_ne_of_last hn hk
  intro heq
  have hlast := (P.lineStart_le_iff h₁ h₂ hle).1 heq.ge
  rw [hline] at hlast
  have hlt := offsetOf_lt P.terminated (show k < b n by omega) hle
  have := (P.lineStart_le_iff h₁ h₂ (by omega)).2 hlast
  omega

/-- Nothing is replaced before the place where a line begins. -/
theorem start_eq_stop {o : Options} {e : Edit} (he : e ∈ (pass o s).edits) {line : Nat} (h₁ : 1 ≤ line)
    (h₂ : line ≤ s.table.count + 1) (hstop : e.stop = s.table.lineStart line) : e.start = e.stop := by
  obtain ⟨x, depth, hu, hw⟩ := exists_wraps he
  rcases hw.insertion_or_pass with h | ⟨d, t, _, hd, ht, rfl⟩
  · exact h
  · obtain ⟨m, i, j, body, hstands⟩ := P.exists_stands hu hd
    obtain ⟨hone, -⟩ := Definition.lonePass?_eq_some_iff.1 ht
    obtain ⟨c, -, rfl, m', q, hends⟩ :=
      P.exists_ends_of_mem hstands (hstands.mem_of_statements (hone ▸ List.mem_singleton_self _))
    have hstop := Int.ofNat_inj.1 hstop
    rw [P.offset_stop hends] at hstop
    exact absurd hstop (P.last_ne_lineStart h₁ h₂ hends.last)

/-- What closes a function where a line begins ends a line. -/
theorem getLast?_of_closing {o : Options} {e : Edit} (he : e ∈ (pass o s).edits) {level line : Nat}
    (horder : e.order = closing level) (h₁ : 1 ≤ line) (h₂ : line ≤ s.table.count + 1)
    (hstart : e.start = s.table.lineStart line) : e.text.getLast? = some '\n' := by
  obtain ⟨x, depth, hu, hw⟩ := exists_wraps he
  have hopening {n : Nat} (h : opening n = closing level) : False := by simp [opening, closing] at h
  cases hw with
  | definition hd hw =>
    obtain ⟨_, _, _, body, hstands⟩ := P.exists_stands hu hd
    cases hw with
    | afterLast hlast =>
      obtain ⟨c, -, rfl, m, n, hends⟩ := P.exists_ends_of_mem hstands
        (hstands.mem_of_statements (List.mem_of_mem_getLast? hlast))
      have hstart := Int.ofNat_inj.1 hstart
      rw [P.offset_stop hends] at hstart
      exact absurd hstart (P.last_ne_lineStart h₁ h₂ hends.last)
    | belowLast _ => exact List.getLast?_concat
    | shift _ => simp [insertion, shifting, closing] at horder
    | _ => exact (hopening horder).elim
  | beforeBody _ => exact (hopening horder).elim
  | afterBody hl =>
    obtain ⟨c, hlaid, htree, hplaced, -⟩ := P.exists_lambda hu hl
    obtain ⟨m, n, hends⟩ := P.exists_ends hlaid hplaced
    have hstart := Int.ofNat_inj.1 hstart
    rw [← htree, P.offset_stop hends] at hstart
    exact absurd hstart (P.last_ne_lineStart h₁ h₂ hends.last)

end Parsed

/-! ## The order of all edits -/

/-- A logical line of the text ends on the line. -/
def EndsLogicalLine (text : List Char) (line : Nat) : Prop :=
  ∃ ts, scanTokens (normalizeNewlines text) = some ts ∧
    ∃ t ∈ ts, t.lexeme = .newline ∧ t.span.start.line = line

/-- The line on which a body ends does not go on below. -/
def Definition.IsEnded (text : List Char) (d : Definition) : Prop :=
  ∀ last ∈ d.statements.getLast?, EndsLogicalLine text last.stop.line

/-- Where the edit is made a logical line begins: its text begins with a line break, or it is right below
the end of a logical line, behind texts that end in line breaks. -/
inductive BeginsLogicalLine (text : List Char) (s : Source) (edits : List Edit) (e : Edit) : Prop
  | lineBreak {rest : List Char} : e.text = '\n' :: rest → BeginsLogicalLine text s edits e
  | below {line : Nat} : EndsLogicalLine text line → e.start = s.table.lineStart (line + 1) →
      (∀ f ∈ edits, f.stop = e.start → Edit.Precedes edits f e → f.text.getLast? = some '\n') →
      BeginsLogicalLine text s edits e

/-- All edits of a function are made after the one that opens another and before the one that closes
it. -/
def Edit.Between (edits : List Edit) (opens closes : Edit) (inner : List Edit) : Prop :=
  ∀ e ∈ inner, Edit.Precedes edits opens e ∧ Edit.Precedes edits e closes

/-- All edits of the first function are made before all edits of the second. -/
def Instrument.Site.Leads (o : Options) (s : Source) (m n : Site × Int) : Prop :=
  ∀ e ∈ m.1.edits o s m.2, ∀ f ∈ n.1.edits o s n.2, Edit.Precedes (pass o s).edits e f

theorem Instrument.Site.Before.leads {o : Options} {s : Source} {m n : Site × Int}
    (h : m.1.Before s n.1) : Site.Leads o s m n := fun _ he _ hf =>
  Edit.precedes_of_not_le (h _ _ _ _ (Site.wraps_of_mem he) (Site.wraps_of_mem hf))

namespace Parsed

variable {text : List Char} {s : Source} {tokens : Array Token} {a b : Nat → Nat}
  (P : Parsed text s tokens a b)

include P

/-- What closes a body begins a logical line, if the line on which the body ends does not go on. -/
theorem beginsLogicalLine {o : Options} {x : Site} {depth : Int} {d : Definition} {head last : Tree}
    {opens closes : Edit} (hx : x ∈ sites o s [] [] s.tree)
    (hd : Function.classify s x.above x.tree depth = .definition d)
    (hlast : last ∈ d.statements.getLast?) (hb : Brackets s x.units.length head last opens closes)
    (hmem : closes ∈ (pass o s).edits) (hended : d.IsEnded text) :
    BeginsLogicalLine text s (pass o s).edits closes := by
  obtain ⟨m, i, j, body, hstands⟩ := P.exists_stands (under_of_mem_sites hx) hd
  obtain ⟨c, -, rfl, m', q, hends⟩ := P.exists_ends_of_mem hstands
    (hstands.mem_of_statements (List.mem_of_mem_getLast? hlast))
  cases hb with
  | sameLine _ => exact .lineBreak rfl
  | ownLines _ =>
    refine .below (hended _ hlast) rfl fun f hf hstop hprecedes => ?_
    have hcount := Nat.succ_le_succ (stop_eq hends ▸ P.line_le_count hends.last)
    have hstart := (P.start_eq_stop hf (Nat.succ_pos _) hcount hstop).trans hstop
    obtain ⟨level, horder⟩ := exists_closing hf (Edit.le_of_precedes hprecedes hf hmem) hstart rfl
    exact P.getLast?_of_closing hf horder (Nat.succ_pos _) hcount hstart

end Parsed

/-- A function in a function, each with statements on lines of their own. -/
def innerFunction : List Char :=
  "def f():\n    def g():\n        return 1\n    return g\n".toList

/-- A statement on the line of a docstring, and below it a definition. -/
def sharedDefinition : List Char :=
  "def f():\n    \"doc\"; x = 1\n    def g():\n        return 1\n".toList

end CallTrace
