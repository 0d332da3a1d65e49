import Mathlib
import CallTrace.Proofs.Parsed
import CallTrace.Proofs.Sites

/-!
# Where nodes stand

The nodes of a laid tree have tokens of their own, except for those inside a formatted literal, which
share its place (`Laid.under`).  So the nodes of a parsed text begin where a token begins and end where
a token ends (`Parsed.exists_ends`), and of a traced definition more is known: where the word `def`
stands, where the body begins, and how its statements lie one after the other
(`Parsed.exists_stands`).
-/

namespace CallTrace

open Syntax Instrument Text

namespace Syntax

variable {tokens : Array Token}

/-! ## The nodes below a node -/

theorem Under.exists_append {above nodes : List Tree} {t u : Tree} (h : Under above t nodes u) :
    ∃ more, nodes = more ++ above := by
  induction h with
  | self => exact ⟨[], rfl⟩
  | @item above nodes r k span ts t u _ _ ih =>
    obtain ⟨more, rfl⟩ := ih
    exact ⟨more ++ [.node r k span ts], by simp⟩

theorem Under.every {above nodes : List Tree} {t u : Tree} {q : Kind → Option Span → Prop}
    (h : Under above t nodes u) (ht : t.Every q) : u.Every q := by
  induction h with
  | self => exact ht
  | item hu _ ih => exact ih ((Tree.every_node_iff.1 ht).2 _ hu)

theorem Under.exists_node {above nodes : List Tree} {t u : Tree} (h : Under above t nodes u) :
    ∃ r k span ts, u = .node r k span ts := by
  induction h with
  | @self _ r k span ts => exact ⟨r, k, span, ts, rfl⟩
  | item _ _ ih => exact ih

/-- A node of a field of a node of a tree is a node of the tree. -/
theorem Under.of_field {above nodes nodes' : List Tree} {t u v w : Tree} {r : Role}
    (h : Under above t nodes u) (hv : v ∈ u.field r) (hw : Under (u :: nodes) v nodes' w) :
    Under above t nodes' w := by
  induction h with
  | self => exact .item (List.mem_filter.1 hv).1 hw
  | item hu _ ih => exact .item hu (ih hv hw)

/-- No definition, and in one place with all nodes that have a place. -/
def AtOnce (tokens : Array Token) (i j : Nat) : Kind → Option Span → Prop :=
  fun k s => k.isDefinition = false ∧ Tree.At (spanBetween tokens i j) s

/-- An item of a laid node is laid, too, or it belongs to a formatted literal. -/
theorem Laid.item {c : Cell} (h : Laid tokens c) {t : Tree} (ht : t ∈ c.tree.items) :
    (∃ d : Cell, d.tree = t ∧ Laid tokens d ∧ c.lo ≤ d.lo ∧ d.hi ≤ c.hi) ∨
      (c.tree.is .joinedStr = true ∧ t.Every (AtOnce tokens c.lo c.hi) ∧ c.lo < c.hi ∧
        Unlaid tokens c.lo c.hi) := by
  have among {cells : List Cell} {i j : Nat} (hi : c.lo ≤ i) (hj : j ≤ c.hi)
      (hs : Spread tokens i j cells) (hl : ∀ d ∈ cells, Laid tokens d)
      (hmem : t ∈ cells.map Cell.tree) :
      ∃ d : Cell, d.tree = t ∧ Laid tokens d ∧ c.lo ≤ d.lo ∧ d.hi ≤ c.hi := by
    obtain ⟨d, hd, rfl⟩ := List.mem_map.1 hmem
    have := hs.bounds d hd
    exact ⟨d, rfl, hl d hd, by omega, by omega⟩
  cases h with
  | leaf _ => cases ht
  | literal hk hlt hstrings hitems =>
    rcases hk with ⟨-, v, rfl⟩ | rfl
    · obtain rfl := List.mem_singleton.1 ht
      exact Or.inl ⟨⟨_, _, _⟩, rfl, .leaf (noString_self _), le_rfl, hlt.le⟩
    · refine Or.inr ⟨rfl, (hitems t ht).2.imp fun k s h => ⟨h.1.1, h.2⟩, hlt, fun k hlk hkh => ?_⟩
      obtain ⟨s, hs⟩ := hstrings k hlk hkh
      exact ⟨_, hs, rfl⟩
  | node _ _ _ _ _ _ _ _ hperm hs _ hl => exact Or.inl (among le_rfl le_rfl hs hl (hperm.mem_iff.2 ht))
  | @lambda r lo hi parameters body hlt _ _ hs _ _ _ _ hp hb =>
    exact Or.inl (among (Nat.le_succ lo) le_rfl hs (by simp [hp, hb]) ht)
  | @definition r kind items lo m b hi decorators header body _ ha hmb hm hds hhs hblock hother hbody
      hdl hhl hbl =>
    have ht : t ∈ items := ht
    have hlo : lo ≤ m := hds.le
    have hbhi : b ≤ hi := hblock.spread.le
    by_cases hr : t.role = .body
    · refine Or.inl (among (hlo.trans hmb.le) le_rfl hblock.spread hbl ?_)
      rw [hbody]
      simpa [hr] using ht
    · have hmem : t ∈ (decorators ++ header).map Cell.tree := by
        rw [hother.mem_iff]
        simpa [hr] using ht
      rw [List.map_append, List.mem_append] at hmem
      rcases hmem with hmem | hmem
      · exact Or.inl (among le_rfl (hmb.le.trans hbhi) hds hdl hmem)
      · exact Or.inl (among hlo hbhi hhs hhl hmem)

/-- A node of a laid tree is laid, or it stands inside a formatted literal and is no definition. -/
theorem Laid.under {c : Cell} (h : Laid tokens c) {above nodes : List Tree} {u : Tree}
    (hu : Under above c.tree nodes u) :
    (∃ d : Cell, d.tree = u ∧ Laid tokens d ∧ c.lo ≤ d.lo ∧ d.hi ≤ c.hi) ∨
      (nodes.any (·.is .joinedStr) = true ∧ ∃ i j, c.lo ≤ i ∧ i < j ∧ j ≤ c.hi ∧ Unlaid tokens i j ∧
        u.Every (AtOnce tokens i j)) := by
  obtain ⟨t, lo, hi⟩ := c
  simp only at hu
  induction hu generalizing lo hi with
  | self => exact Or.inl ⟨_, rfl, h, le_rfl, le_rfl⟩
  | item hmem hunder ih =>
    rcases h.item hmem with ⟨⟨d, dlo, dhi⟩, rfl, hd, hlo, hhi⟩ | ⟨hjoined, hevery, hlt, hstart⟩
    · simp only at hlo hhi
      rcases ih dlo dhi hd with ⟨e, rfl, he, h₁, h₂⟩ | ⟨hany, i, j, hi, hij, hj, hrest⟩
      · exact Or.inl ⟨e, rfl, he, hlo.trans h₁, h₂.trans hhi⟩
      · exact Or.inr ⟨hany, i, j, hlo.trans hi, hij, hj.trans hhi, hrest⟩
    · obtain ⟨more, rfl⟩ := Under.exists_append hunder
      exact Or.inr ⟨by simp_all, lo, hi, le_rfl, hlt, le_rfl, hstart, Under.every hunder hevery⟩

/-! ## Ends of laid trees -/

theorem Adorned.le {lo m : Nat} {decorators : List Tree} (h : Adorned tokens lo m decorators) :
    lo ≤ m := by
  cases h with
  | none => exact le_rfl
  | some _ h₁ h₂ _ _ _ _ => omega

/-- A statement whose first token begins a logical line begins one behind its decorators, too. -/
theorem Adorned.endedAt {lo m : Nat} {decorators : List Tree} (h : Adorned tokens lo m decorators)
    (hlo : EndedAt tokens lo) : EndedAt tokens m := by
  cases h with
  | none => exact hlo
  | some _ _ _ _ _ _ _ hended => exact hended

/-- What may stand for a string literal goes over no end of a logical line. -/
theorem Laid.exists_unlaid {c : Cell} (h : Laid tokens c) {above nodes : List Tree} {r : Role} {k : Kind}
    {span : Span} {items : List Tree} (hu : Under above c.tree nodes (.node r k (some span) items))
    (hk : k.isText = true) : ∃ i j, i < j ∧ Unlaid tokens i j ∧ span = spanBetween tokens i j := by
  rcases h.under hu with ⟨⟨tree, lo, hi⟩, htree, hlaid, -, -⟩ | ⟨-, i, j, -, hij, -, hunlaid, hevery⟩
  · simp only at htree
    subst htree
    generalize hspan : some span = place at hlaid
    cases hlaid with
    | literal _ hlt hstrings _ =>
      refine ⟨lo, hi, hlt, fun n hln hnh => ?_, Option.some.inj hspan⟩
      obtain ⟨s, hs⟩ := hstrings n hln hnh
      exact ⟨_, hs, rfl⟩
    | @node _ _ _ _ m _ _ _ _ _ _ htext _ hplaced ha _ _ _ _ =>
      split at hspan
      · rename_i hp
        refine ⟨m, hi, (hplaced hp).1, fun n hmn hnh => ?_, Option.some.inj hspan⟩
        obtain ⟨l, hl, hplain⟩ := htext hk n (ha.le.trans hmn) hnh
        rw [Lexeme.isPlain, Bool.and_eq_true, Bool.not_eq_true'] at hplain
        exact ⟨l, hl, hplain.1⟩
      · cases hspan
    | lambda _ _ _ _ _ _ _ _ _ _ => cases hk
    | definition hdef _ _ _ _ _ _ _ _ _ _ _ =>
      simp only [Kind.isText, Bool.or_eq_true, decide_eq_true_eq] at hk
      rcases hk with rfl | rfl <;> cases hdef
  · exact ⟨i, j, hij, hunlaid, (Tree.every_node_iff.1 hevery).1.2 span rfl⟩

/-- A laid tree with a place begins with a token of its own, after its decorators. -/
theorem Laid.exists_start {c : Cell} (h : Laid tokens c) {span : Span}
    (hs : c.tree.span? = some span) : ∃ m, m < c.hi ∧ StartsAt tokens m ∧
      span = spanBetween tokens m c.hi ∧ Adorned tokens c.lo m (c.tree.field .decorators) := by
  cases h with
  | leaf _ => cases hs
  | @literal r kind items lo hi hk hlt hstrings hitems =>
    obtain ⟨s, hlex⟩ := hstrings _ le_rfl hlt
    refine ⟨lo, hlt, ⟨_, hlex, rfl⟩, (Option.some.inj hs).symm, ?_⟩
    rw [Tree.field, Tree.items, List.filter_eq_nil_iff.2 fun t ht => by simpa using (hitems t ht).1]
    exact .none
  | @node r kind items lo m hi cells hdef hlambda hpass hsingle _ hun hplaced ha hperm hsp hsides hl =>
    simp only [Tree.span?] at hs
    split at hs
    · rename_i hp
      exact ⟨m, (hplaced hp).1, (hplaced hp).2, (Option.some.inj hs).symm, ha⟩
    · cases hs
  | @lambda r lo hi parameters body hlt hno hplain hsp hp hb hplaced _ hlp hlb =>
    obtain ⟨l, hlex, hl⟩ := hplain _ le_rfl hlt
    refine ⟨lo, hlt, ⟨l, hlex, (Lexeme.isPlain_iff.1 hl).1⟩, (Option.some.inj hs).symm, ?_⟩
    rw [Tree.field, Tree.items, List.filter_eq_nil_iff.2 (by simp [hp, hb])]
    exact .none
  | @definition r kind items lo m b hi decorators header body hk ha hmb hm hds hhs hblock hother hbody
      hdl hhl hbl =>
    exact ⟨m, hmb.trans_le hblock.spread.le, hm.startsAt, (Option.some.inj hs).symm, ha⟩

/-- The least of some lines is the one that comes first. -/
theorem foldl_min_line {n : Nat} {ts : List Tree} (h : ∀ t ∈ ts, n ≤ t.start.line) :
    ts.foldl (fun n t => min n t.start.line) n = n := by
  induction ts with
  | nil => rfl
  | cons t ts ih =>
    rw [List.foldl_cons, Nat.min_eq_left (h t List.mem_cons_self)]
    exact ih fun u hu => h u (List.mem_cons_of_mem t hu)

theorem Tree.start_eq {t : Tree} {p : Position} (h : t.span?.map Span.start = some p) : t.start = p := by
  obtain ⟨span, hspan, rfl⟩ := Option.map_eq_some_iff.1 h
  rw [Tree.start, hspan]
  rfl

/-- A tree on its tokens begins with the `m`-th, after its decorators, and ends with the `n`-th. -/
structure Cell.Ends (text : List Char) (tokens : Array Token) (a b : Nat → Nat) (c : Cell) (m n : Nat) :
    Prop where
  adorned : Adorned tokens c.lo m (c.tree.field .decorators)
  le : m ≤ n
  lt : n < c.hi
  first : StartsAt tokens m
  last : StartsAt tokens n
  rest : ∀ k, n < k → k < c.hi → ¬ StartsAt tokens k
  span : c.tree.span? = some ⟨placeOf text (a m), placeOf text (b n)⟩

end Syntax

namespace Function

variable {s : Source} {above : List Tree} {t : Tree} {depth : Int}

theorem eq_of_classify_definition {d : Definition} (h : classify s above t depth = .definition d) :
    (∃ r k span items, t = .node r k span items ∧ k.isDefinition = true) ∧ isMethod above = false ∧
      d = definitionOf s t depth := by
  cases t with
  | leaf r v => cases h
  | node r k span items =>
    rw [classify] at h
    split at h
    · rename_i hk
      split at h
      · cases h
      · rename_i hmethod
        exact ⟨⟨r, k, span, items, rfl, hk⟩, by simpa using hmethod, (Shape.definition.inj h).symm⟩
    · split at h
      · split at h
        · cases h
        · split at h <;> cases h
      · cases h

theorem eq_of_classify_lambda {l : BoundLambda} (h : classify s above t depth = .lambda l) :
    (∃ r span items, t = .node r .lambda span items) ∧ above.any (·.is .joinedStr) = false ∧
      t.items.find? (·.role = .body) = some l.body := by
  cases t with
  | leaf r v => cases h
  | node r k span items =>
    rw [classify] at h
    split at h
    · split at h <;> cases h
    · split at h
      · rename_i hk
        subst hk
        split at h
        · cases h
        · rename_i hjoined
          split at h
          · rename_i body hbody
            obtain rfl := Shape.lambda.inj h
            exact ⟨⟨r, span, items, rfl⟩, by simpa using hjoined, hbody⟩
          · cases h
      · cases h

/-- A body is its docstring, if it has one, and the statements after it. -/
theorem body_eq {d : Definition} (h : classify s above t depth = .definition d) :
    d.body = d.docstring.toList ++ d.statements := by
  obtain ⟨-, -, rfl⟩ := eq_of_classify_definition h
  simp only [definitionOf, Definition.body]
  cases hb : t.field .body with
  | nil => rfl
  | cons first rest =>
    rw [List.head?_cons, Option.filter_some]
    cases isDocstring first <;> rfl

end Function

/-- The word `def` of a definition is the `m`-th token, after decorators, and the body lies on the
tokens from the `i`-th up to the `j`-th. -/
structure Definition.Stands (tokens : Array Token) (d : Definition) (m i j : Nat) (body : List Cell) :
    Prop where
  lt : m < i
  keyword : KeywordAt tokens m
  span : d.node.span? = some (spanBetween tokens m j)
  block : Block tokens i j body
  trees : body.map Cell.tree = d.body
  laid : ∀ c ∈ body, Laid tokens c
  parts : d.body = d.docstring.toList ++ d.statements

namespace Definition.Stands

variable {tokens : Array Token} {d : Definition} {m i j : Nat} {body : List Cell} {t : Tree}
  (h : d.Stands tokens m i j body)

include h

theorem ne_nil : d.body ≠ [] := by
  rw [← h.trees]
  simpa using h.block.ne

theorem exists_cell (ht : t ∈ d.body) : ∃ c ∈ body, c.tree = t := by
  rw [← h.trees] at ht
  exact List.mem_map.1 ht

theorem exists_last (ht : d.body.getLast? = some t) : ∃ c ∈ body.getLast?, c.tree = t := by
  rw [← h.trees, List.getLast?_map] at ht
  exact Option.map_eq_some_iff.1 ht

theorem mem_of_docstring (ht : d.docstring = some t) : t ∈ d.body := by
  rw [h.parts, ht]
  exact List.mem_cons_self

theorem mem_of_statements (ht : t ∈ d.statements) : t ∈ d.body := by
  rw [h.parts]
  exact List.mem_append_right _ ht

theorem getLast?_of_statements (ht : d.statements.getLast? = some t) : d.body.getLast? = some t := by
  rw [h.parts, List.getLast?_append, ht]
  rfl

theorem getLast?_of_docstring (ht : d.docstring = some t) (hs : d.statements = []) :
    d.body.getLast? = some t := by
  rw [h.parts, ht, hs]
  rfl

end Definition.Stands

/-- The word `lambda` is the `m`-th token, and the body is the tree of the cell. -/
structure BoundLambda.Stands (tokens : Array Token) (l : BoundLambda) (m : Nat) (c : Cell) : Prop where
  lt : m < c.lo
  keyword : KeywordAt tokens m
  tree : c.tree = l.body
  laid : Laid tokens c
  placed : c.tree.span?.isSome = true
  simple : c.tree.IsSimple
  plain : ∀ k, m ≤ k → k < c.hi → ∃ x, lexemeAt tokens k = some x ∧ x.isPlain = true

namespace Syntax.Laid

variable {tokens : Array Token} {c : Cell} (h : Laid tokens c) {s : Source} {above nodes : List Tree}
  {t : Tree} {depth : Int}

include h

/-- A definition among the nodes of a laid tree stands on tokens of the tree. -/
theorem exists_stands {d : Definition} (hu : Under above c.tree nodes t)
    (hd : Function.classify s nodes t depth = .definition d) :
    ∃ m i j body, c.lo ≤ m ∧ j ≤ c.hi ∧ d.Stands tokens m i j body := by
  have hparts := Function.body_eq hd
  obtain ⟨⟨r, k, span, items, rfl, hk⟩, -, rfl⟩ := Function.eq_of_classify_definition hd
  rcases h.under (u := .node r k span items) hu with
    ⟨⟨tree, lo, hi⟩, rfl, hlaid, hlo, hhi⟩ | ⟨-, i, j, -, -, -, -, hevery⟩
  · cases hlaid with
    | literal hkind _ _ _ => rcases hkind with ⟨rfl, -⟩ | rfl <;> cases hk
    | node hdef _ _ _ _ _ _ _ _ _ _ _ => rw [hdef] at hk; cases hk
    | lambda _ _ _ _ _ _ _ _ _ _ => cases hk
    | definition _ _ hlt hm hds _ hblock _ hbody _ _ hl =>
      exact ⟨_, _, _, _, hlo.trans hds.le, hhi, ⟨hlt, hm, rfl, hblock, hbody, hl, hparts⟩⟩
  · rw [(Tree.every_node_iff.1 hevery).1.1] at hk
    cases hk

/-- A lambda among the nodes of a laid tree stands on tokens of the tree. -/
theorem exists_lambda {l : BoundLambda} (hu : Under above c.tree nodes t)
    (hl : Function.classify s nodes t depth = .lambda l) :
    ∃ m body, c.lo ≤ m ∧ body.hi ≤ c.hi ∧ l.Stands tokens m body := by
  obtain ⟨⟨r, span, items, rfl⟩, hnot, hbody⟩ := Function.eq_of_classify_lambda hl
  rcases h.under (u := .node r .lambda span items) hu with
    ⟨⟨tree, lo, hi⟩, rfl, hlaid, hlo, hhi⟩ | ⟨hjoined, -⟩
  · cases hlaid with
    | literal hkind _ _ _ => rcases hkind with ⟨h, -⟩ | h <;> cases h
    | node _ hne _ _ _ _ _ _ _ _ _ _ => exact absurd rfl hne
    | @lambda _ _ _ parameters body hlt hm hplain hs hp hb hplaced hsimple _ hlb =>
      have heq : body.tree = l.body := by simpa [Tree.items, hp, hb] using hbody
      obtain ⟨hm', -, hj⟩ := hs.bounds body (by simp)
      exact ⟨lo, body, hlo, hj.trans hhi, ⟨hm', hm, heq, hlb, hplaced, hsimple,
        fun k hk hki => hplain k hk (hki.trans_le hj)⟩⟩
    | definition hk _ _ _ _ _ _ _ _ _ _ _ => cases hk
  · rw [hnot] at hjoined
    cases hjoined

/-- The body of a lambda is its one item in that role. -/
theorem field_body {l : BoundLambda} (hu : Under above c.tree nodes t)
    (hl : Function.classify s nodes t depth = .lambda l) : t.field .body = [l.body] := by
  obtain ⟨⟨r, span, items, rfl⟩, hnot, hbody⟩ := Function.eq_of_classify_lambda hl
  rcases h.under (u := .node r .lambda span items) hu with
    ⟨⟨tree, lo, hi⟩, rfl, hlaid, -, -⟩ | ⟨hjoined, -⟩
  · cases hlaid with
    | literal hkind _ _ _ => rcases hkind with ⟨h, -⟩ | h <;> cases h
    | node _ hne _ _ _ _ _ _ _ _ _ _ => exact absurd rfl hne
    | @lambda _ _ _ parameters body _ _ _ _ hp hb _ _ _ _ =>
      have heq : body.tree = l.body := by simpa [Tree.items, hp, hb] using hbody
      rw [← heq]
      simp [Tree.field, Tree.items, hp, hb]
    | definition hk _ _ _ _ _ _ _ _ _ _ _ => cases hk
  · rw [hnot] at hjoined
    cases hjoined

end Syntax.Laid

namespace Parsed

variable {text : List Char} {s : Source} {tokens : Array Token} {a b : Nat → Nat}
  (P : Parsed text s tokens a b)

include P

/-! ## Tokens one after the other -/

theorem b_le_a {i j : Nat} (hij : i < j) (hj : StartsAt tokens j) : b i ≤ a j := by
  obtain ⟨l, hl, -⟩ := hj
  exact P.lies.apart hij (lt_size_of_lexemeAt hl)

theorem a_lt_a {i j : Nat} (hi : StartsAt tokens i) (hij : i < j) (hj : StartsAt tokens j) :
    a i < a j :=
  (P.a_lt_b hi).trans_le (P.b_le_a hij hj)

theorem a_le_a {i j : Nat} (hi : StartsAt tokens i) (hij : i ≤ j) (hj : StartsAt tokens j) :
    a i ≤ a j := by
  rcases Nat.lt_or_eq_of_le hij with hij | rfl
  · exact (P.a_lt_a hi hij hj).le
  · exact le_rfl

theorem b_le_b {i j : Nat} (hij : i ≤ j) (hj : StartsAt tokens j) :
    b i ≤ b j := by
  rcases Nat.lt_or_eq_of_le hij with hij | rfl
  · exact (P.b_le_a hij hj).trans (P.a_lt_b hj).le
  · exact le_rfl

theorem a_le_length {i : Nat} (hi : StartsAt tokens i) : a i ≤ (normalizeNewlines text).length :=
  (P.a_lt_b hi).le.trans (P.b_le hi)

theorem offset_eq (k : Nat) : s.table.offset (placeOf text k) = offsetOf text k := by
  rw [P.table, offsetOf]

/-- Tokens begin in the text in their order. -/
theorem offsetOf_le_iff {i j : Nat} (hi : StartsAt tokens i) (hj : StartsAt tokens j) :
    offsetOf text (a i) ≤ offsetOf text (a j) ↔ i ≤ j := by
  constructor
  · intro hle
    by_contra hlt
    exact hle.not_gt (offsetOf_lt P.terminated (P.a_lt_a hj (Nat.not_le.1 hlt) hi) (P.a_le_length hi))
  · intro hle
    exact offsetOf_le P.terminated (P.a_le_a hi hle hj) (P.a_le_length hj)

/-- Where tokens begin tells them apart. -/
theorem eq_of_offsetOf_eq {i j : Nat} (hi : StartsAt tokens i) (hj : StartsAt tokens j)
    (h : offsetOf text (a i) = offsetOf text (a j)) : i = j :=
  ((P.offsetOf_le_iff hi hj).1 h.le).antisymm ((P.offsetOf_le_iff hj hi).1 h.ge)

theorem eq_of_startAt_eq {i j : Nat} (hi : StartsAt tokens i) (hj : StartsAt tokens j)
    (h : startAt tokens i = startAt tokens j) : i = j := by
  rw [P.startAt_eq hi, P.startAt_eq hj] at h
  exact P.eq_of_offsetOf_eq hi hj (by rw [offsetOf, offsetOf, h])

theorem startAt_eq_of_lt {i : Nat} (h : i < tokens.size) : startAt tokens i = placeOf text (a i) := by
  have ht : tokens[i]? = some tokens[i] := Array.getElem?_eq_getElem h
  rw [startAt, ht]
  exact (P.lies.lies ht).start_eq

/-- The end of a line that is a token. -/
theorem newline_at {e : Nat} (h : lexemeAt tokens e = some .newline) :
    (normalizeNewlines text)[a e]? = some '\n' ∧ b e = a e + 1 := by
  obtain ⟨t, ht, hl⟩ := Option.map_eq_some_iff.1 h
  have hlies := P.lies.lies ht
  generalize a e = x at *
  generalize b e = y at *
  cases hlies with
  | spelled hs _ _ =>
    simp only at hl
    rw [hl] at hs
    cases hs
  | newline h => exact ⟨h, rfl⟩
  | mark hm _ =>
    simp only at hl
    rcases hm with rfl | rfl | rfl <;> cases hl

/-- What comes after the end of a line stands on a later line than what comes before it. -/
theorem line_lt_line {i e j : Nat} (hi : i < e) (h : lexemeAt tokens e = some .newline) (hj : e < j)
    (hs : StartsAt tokens j) : (placeOf text (b i)).line < (placeOf text (a j)).line := by
  obtain ⟨hnewline, hb⟩ := P.newline_at h
  have h₁ : b i ≤ a e := P.lies.apart hi (lt_size_of_lexemeAt h)
  have h₂ : a e < a j := by
    have := P.b_le_a hj hs
    omega
  exact (line_mono h₁).trans_lt (line_lt_of_newline hnewline h₂)

/-- No token ends after the last line. -/
theorem line_le_count {i : Nat} (h : StartsAt tokens i) :
    (placeOf text (b i)).line ≤ s.table.count := by
  obtain ⟨e, hie, hnewline⟩ := P.ends i h
  obtain ⟨hchar, -⟩ := P.newline_at hnewline
  rw [P.table]
  exact (line_mono (P.lies.apart hie (lt_size_of_lexemeAt hnewline))).trans
    (Text.line_le_count P.terminated (List.getElem?_eq_some_iff.1 hchar).1)

/-! ## Ends of nodes -/

/-- A laid tree with a place begins with one token, or with its decorators before it, and ends with
another. -/
theorem exists_ends {c : Cell} (h : Laid tokens c) (hs : c.tree.span?.isSome = true) :
    ∃ m n, c.Ends text tokens a b m n := by
  obtain ⟨span, hs⟩ := Option.isSome_iff_exists.1 hs
  obtain ⟨m, hm, hfirst, rfl, ha⟩ := h.exists_start hs
  obtain ⟨n, hmn, hn, hlast, hrest, hstop⟩ := P.exists_stop hfirst hm
  refine ⟨m, n, ⟨ha, hmn, hn, hfirst, hlast, hrest, ?_⟩⟩
  rw [hs, spanBetween, P.startAt_eq hfirst, hstop]

section Ends

variable {c : Cell} {m n : Nat} (h : c.Ends text tokens a b m n)

include h

omit P in
theorem start_eq : c.tree.start = placeOf text (a m) := by
  rw [Tree.start, h.span]
  rfl

omit P in
theorem stop_eq : c.tree.stop = placeOf text (b n) := by
  rw [Tree.stop, h.span]
  rfl

theorem offset_start : s.start c.tree = offsetOf text (a m) := by
  rw [Source.start, start_eq h, P.offset_eq]

theorem offset_stop : s.stop c.tree = offsetOf text (b n) := by
  rw [Source.stop, stop_eq h, P.offset_eq]

/-- The first line of a statement is the one on which its first decorator begins, or else it does. -/
theorem firstLine_eq :
    Source.firstLine c.tree = ((c.tree.field .decorators).headD c.tree).start.line := by
  have ha := h.adorned
  rw [Source.firstLine]
  generalize c.tree.field .decorators = decorators at ha
  cases ha with
  | none => rfl
  | @some first rest x m _ _ hxm _ hplain hspan hrest _ =>
    obtain ⟨l, hl, hlplain⟩ := hplain
    have hx : StartsAt tokens x := ⟨l, hl, (Lexeme.isPlain_iff.1 hlplain).1⟩
    have hstart : first.start = placeOf text (a x) := (Tree.start_eq hspan).trans (P.startAt_eq hx)
    rw [List.foldl_cons, start_eq h, List.headD_cons, hstart,
      Nat.min_eq_right (line_mono (P.a_le_a hx hxm.le h.first))]
    refine foldl_min_line fun d hd => ?_
    obtain ⟨y, hxy, hym, hspan⟩ := hrest d hd
    have hsize := hym.trans (lt_size_of_lexemeAt h.first.choose_spec.1)
    rw [Tree.start_eq hspan, P.startAt_eq_of_lt hsize]
    rcases Nat.lt_or_eq_of_le hxy with hxy | rfl
    · exact line_mono ((P.a_lt_b hx).le.trans (P.lies.apart hxy hsize))
    · exact le_rfl

/-- The first line of a statement is that of its first token, or of its first decorator, before which
there are only signs. -/
theorem exists_first : ∃ f, c.lo ≤ f ∧ f ≤ m ∧ StartsAt tokens f ∧
    Source.firstLine c.tree = (placeOf text (a f)).line ∧
    ((c.tree.field .decorators = [] ∧ f = m) ∨
      (c.tree.field .decorators ≠ [] ∧ (∃ l, lexemeAt tokens f = some l ∧ l.isPlain = true) ∧
        ∀ k, c.lo ≤ k → k < f → ∃ g, lexemeAt tokens k = some (.sign g))) := by
  have ha := h.adorned
  have hline := P.firstLine_eq h
  generalize c.tree.field .decorators = decorators at ha hline
  cases ha with
  | none => exact ⟨c.lo, le_rfl, le_rfl, h.first, by rw [hline, ← start_eq h]; rfl, Or.inl ⟨rfl, rfl⟩⟩
  | @some first rest x m hat hlx hxm hopen hplain hspan _ _ =>
    obtain ⟨l, hl, hlplain⟩ := hplain
    have hx : StartsAt tokens x := ⟨l, hl, (Lexeme.isPlain_iff.1 hlplain).1⟩
    refine ⟨x, hlx.le, hxm.le, hx, ?_, Or.inr ⟨by simp, ⟨l, hl, hlplain⟩, fun k hk hkx => ?_⟩⟩
    · rw [hline, List.headD_cons, Tree.start_eq hspan, P.startAt_eq hx]
    · rcases Nat.lt_or_eq_of_le hk with hk | rfl
      · exact ⟨_, hopen k hk hkx⟩
      · exact ⟨_, hat⟩

end Ends

/-! ## Functions -/

/-- The body of a definition among the nodes of the tree lies on tokens. -/
theorem exists_stands {nodes : List Tree} {t : Tree} {depth : Int} {d : Definition}
    (hu : Under [] s.tree nodes t) (hd : Function.classify s nodes t depth = .definition d) :
    ∃ m i j body, d.Stands tokens m i j body := by
  obtain ⟨m, i, j, body, -, -, h⟩ := P.laid.exists_stands hu hd
  exact ⟨m, i, j, body, h⟩

/-- The body of a lambda among the nodes of the tree lies on tokens that are no word `pass`, after other
tokens of the lambda. -/
theorem exists_lambda {nodes : List Tree} {t : Tree} {depth : Int} {l : BoundLambda}
    (hu : Under [] s.tree nodes t) (hl : Function.classify s nodes t depth = .lambda l) :
    ∃ c : Cell, Laid tokens c ∧ c.tree = l.body ∧ c.tree.span?.isSome = true ∧
      (∀ k, c.lo ≤ k → k < c.hi → ∃ x, lexemeAt tokens k = some x ∧ x.isPlain = true) ∧
      ∃ k < c.lo, StartsAt tokens k := by
  obtain ⟨k, c, -, -, h⟩ := P.laid.exists_lambda hu hl
  exact ⟨c, h.laid, h.tree, h.placed, fun n hn => h.plain n (h.lt.le.trans hn), k, h.lt, h.keyword.startsAt⟩

end Parsed

end CallTrace
