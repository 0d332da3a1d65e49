import Mathlib
import CallTrace.Proofs.Order
import CallTrace.Proofs.Statements

/-!
# The pieces of a definition

The text of a definition is cut where the node of its first statement begins: up to there it is the header,
and from there to the end of the last statement the body.  Put together the two are the definition, but for
a semicolon behind the last statement, which the node of the definition covers too
(`Parsed.exists_stop_definition`).

The node of a statement begins behind its decorators, so the cut is at the first token of the first
statement if and only if that has none; then no statement of the body reaches into the header.
`Function.pieces_decoratedBody` is a definition whose header ends with decorators of its body.
-/

namespace CallTrace

open Syntax Instrument Text

namespace Parsed

variable {text : List Char} {s : Source} {tokens : Array Token} {a b : Nat → Nat}
  (P : Parsed text s tokens a b) {i : Nat}

include P

/-- Every token ends before the text does. -/
theorem b_lt_length (h : StartsAt tokens i) : b i < (normalizeNewlines text).length := by
  obtain ⟨e, hie, hnewline⟩ := P.ends i h
  have hle := P.lies.apart hie (lt_size_of_lexemeAt hnewline)
  exact hle.trans_lt (List.getElem?_eq_some_iff.1 (P.newline_at hnewline).1).1

/-- A sign is in the text as it is spelled. -/
theorem written_sign {g : Sign} (h : lexemeAt tokens i = some (.sign g)) : ∃ spelling,
    (spelling, g) ∈ Sign.spellings ∧
      (LineTable.ofText text).between (offsetOf text (a i)) (offsetOf text (b i)) = spelling := by
  obtain ⟨spelling, hmem, hslice, hnot⟩ := P.exists_spelling h
  have hi : StartsAt tokens i := ⟨_, h, rfl⟩
  have hread := (P.normalizeNewlines_between (P.a_lt_b hi).le (P.b_le hi)).trans hslice
  exact ⟨spelling, hmem, (eq_normalizeNewlines (by rwa [hread])).trans hread⟩

/-- What stands behind a token up to the end of a semicolon. -/
theorem exists_gap_semicolon (h : StartsAt tokens i)
    (h' : lexemeAt tokens (i + 1) = some (.sign .semicolon)) : ∃ gap, isGap false gap = true ∧
      (LineTable.ofText text).between (offsetOf text (b i)) (offsetOf text (b (i + 1))) =
        gap ++ [';'] := by
  have hs' : StartsAt tokens (i + 1) := ⟨_, h', rfl⟩
  obtain ⟨spelling, hmem, hwritten⟩ := P.written_sign h'
  have hsemicolon : ∀ p ∈ Sign.spellings, p.2 = .semicolon → p.1 = [';'] := by decide
  obtain rfl := hsemicolon _ hmem rfl
  refine ⟨_, P.isGap_written h hs', ?_⟩
  rw [P.between_offsetOf (P.b_le_a (Nat.lt_add_one i) hs') (P.a_lt_b hs').le (P.b_le hs'), hwritten]

/-- A definition ends with its last statement, or with a semicolon right behind it. -/
theorem exists_stop_definition {d : Definition} {m j k : Nat} {body : List Cell}
    (h : d.Stands tokens m j k body) {c : Cell} (hc : c ∈ body.getLast?) {p q : Nat}
    (hends : c.Ends text tokens a b p q) : ∃ n, d.node.stop = placeOf text (b n) ∧
      (n = q ∨ n = q + 1 ∧ lexemeAt tokens n = some (.sign .semicolon)) := by
  have hmk : m < k := h.lt.trans_le h.block.spread.le
  have hck := (h.block.spread.bounds c (List.mem_of_mem_getLast? hc)).2.2
  obtain ⟨n, -, hnk, hn, hrest, hstop⟩ := P.exists_stop h.keyword.startsAt hmk
  obtain ⟨e, hek, hnewline, hlayout, hsemicolon⟩ := h.block.ends c hc
  have hne : n < e := by
    by_contra hle
    obtain ⟨l, hl, hlay⟩ := hlayout n (Nat.not_lt.1 hle) hnk
    rw [hn.isLayout_eq_false hl] at hlay
    cases hlay
  have hlt := hends.lt
  have hqn : q ≤ n := by
    by_contra hnq
    exact hrest q (Nat.not_le.1 hnq) (hlt.trans_le hck) hends.last
  refine ⟨n, ?_, ?_⟩
  · rw [Tree.stop, h.span]
    exact hstop
  rcases hsemicolon with hle | ⟨rfl, hsign, hbefore⟩
  · refine Or.inl (Nat.le_antisymm ?_ hqn)
    exact hends.le_last hn (hne.trans_le hle)
  · have hq : c.hi - 1 ≤ q := hends.le_last hbefore (by omega)
    have hnext : c.hi ≤ n := by
      by_contra hlt'
      exact hrest c.hi (Nat.not_le.1 hlt') (by omega) ⟨_, hsign, rfl⟩
    obtain rfl : n = c.hi := by omega
    exact Or.inr ⟨by omega, hsign⟩

end Parsed

/-- A statement without decorators begins with its first token, and no other does. -/
theorem Syntax.Adorned.eq_iff {tokens : Array Token} {lo m : Nat} {decorators : List Tree}
    (h : Adorned tokens lo m decorators) : m = lo ↔ decorators = [] := by
  cases h with
  | none => simp
  | some _ hlo hm _ _ _ _ _ => simpa using (hlo.trans hm).ne'

/-- No cell begins before the first one ends. -/
theorem Syntax.Spread.eq_or_le_lo {tokens : Array Token} {i j : Nat} {c : Cell} {cells : List Cell}
    (h : Spread tokens i j (c :: cells)) {d : Cell} (hd : d ∈ c :: cells) : d = c ∨ c.hi ≤ d.lo := by
  cases h with
  | cons _ _ _ hs => exact (List.mem_cons.1 hd).imp_right fun hd => (hs.bounds d hd).1

namespace Definition

/-- Where the header of a definition ends and the text of its body begins. -/
def cut (s : Source) (d : Definition) : Nat :=
  s.start d.node + d.header.length

/-- The statements of the body lie on tokens, the first one behind the colon of the header. -/
structure Carries (tokens : Array Token) (d : Definition) (body : List Cell) : Prop where
  opens : ∃ m n, Opens tokens m n ∧ d.node.span?.map Span.start = some (startAt tokens m)
  trees : body.map Cell.tree = d.body
  laid : ∀ c ∈ body, Laid tokens c
  follows : ∃ k, ∀ c ∈ body.head?, FollowsColon tokens k c.lo c.tree

namespace Carries

variable {tokens : Array Token} {d : Definition} {body : List Cell} (h : d.Carries tokens body) {c : Cell}

include h

theorem head?_eq (hc : c ∈ body.head?) : c.tree ∈ d.body.head? := by
  rw [← h.trees, List.head?_map]
  exact Option.mem_map_of_mem _ hc

theorem getLast?_eq (hc : c ∈ body.getLast?) : c.tree ∈ d.body.getLast? := by
  rw [← h.trees, List.getLast?_map]
  exact Option.mem_map_of_mem _ hc

end Carries

end Definition

namespace Source

variable {text : List Char} {s ended : Source} {tokens : Array Token} {a b : Nat → Nat}
  (P : Parsed (terminated text) ended tokens a b) (htable : s.table = .ofText text) {c : Cell} {m n : Nat}
  (h : c.Ends (terminated text) tokens a b m n)

include P htable h

theorem start_of_ends : s.start c.tree = offsetOf (terminated text) (a m) := by
  rw [Source.start, Parsed.start_eq h, htable,
    offset_terminated ((P.a_lt_b h.first).trans (P.b_lt_length h.first))]

theorem stop_of_ends : s.stop c.tree = offsetOf (terminated text) (b n) := by
  rw [Source.stop, Parsed.stop_eq h, htable, offset_terminated (P.b_lt_length h.last)]

theorem start_lt_stop_of_ends : s.start c.tree < s.stop c.tree := by
  rw [start_of_ends P htable h, stop_of_ends P htable h]
  exact offsetOf_lt P.terminated ((P.a_lt_b h.first).trans_le (P.b_le_b h.le h.last)) (P.b_le h.last)

end Source

namespace Function

variable {text : List Char} {s : Source} {nodes : List Tree} {t : Tree} {depth : Int} {d : Definition}

theorem node_eq (hd : classify s nodes t depth = .definition d) : d.node = t := by
  rw [(eq_of_classify_definition hd).2.2]
  rfl

theorem header_eq (hd : classify s nodes t depth = .definition d) {first : Tree}
    (hfirst : first ∈ d.body.head?) : d.header = s.table.between (s.start d.node) (s.start first) := by
  obtain ⟨-, -, rfl⟩ := eq_of_classify_definition hd
  simp only [Option.mem_def, Definition.body, definitionOf] at hfirst
  simp only [definitionOf, hfirst, Option.map_some, Option.getD_some]

theorem bodyText_eq (hd : classify s nodes t depth = .definition d) {first last : Tree}
    (hfirst : first ∈ d.body.head?) (hlast : last ∈ d.body.getLast?) :
    d.bodyText = s.table.between (s.start first) (s.stop last) := by
  obtain ⟨-, -, rfl⟩ := eq_of_classify_definition hd
  simp only [Option.mem_def, Definition.body, definitionOf] at hfirst hlast
  simp only [definitionOf, hfirst, hlast, Option.map_some, Option.getD_some]

/-- A definition of a text stands on tokens of the text with its last line ended. -/
theorem exists_carries (hp : Source.parse text = .ok s) (ht : ⟨t, nodes⟩ ∈ s.tree.walk)
    (hd : classify s nodes t depth = .definition d) :
    ∃ ended tokens a b m j k first others p q, Parsed (terminated text) ended tokens a b ∧
      s.table = .ofText text ∧ d.Stands tokens m j k (first :: others) ∧
      d.Carries tokens (first :: others) ∧ first.Ends (terminated text) tokens a b p q := by
  obtain ⟨ended, tokens, a, b, hended, P, htree, htable⟩ := Source.exists_parsed hp
  have hu := mem_walk.1 ht
  rw [← htree] at hu
  obtain ⟨m, j, k, body, -, -, hstands⟩ := P.laid.exists_stands hu hd
  obtain ⟨first, others, rfl⟩ := List.exists_cons_of_ne_nil hstands.block.ne
  have hmem : first ∈ first :: others := List.mem_cons_self
  obtain ⟨p, q, hends⟩ := P.exists_ends (hstands.laid first hmem) (hstands.block.placed first hmem)
  refine ⟨ended, tokens, a, b, m, j, k, first, others, p, q, P, htable, hstands,
    ⟨?_, hstands.trees, hstands.laid, ?_⟩, hends⟩
  · obtain ⟨⟨r, kind, span, items, rfl, hk⟩, -, rfl⟩ := eq_of_classify_definition hd
    cases (titled_of_parse P.terminated hended P.scanned).under hu with
    | node hdef _ =>
      obtain ⟨m', n, name, htitle⟩ := hdef hk
      exact ⟨m', n, htitle.toOpens, htitle.start⟩
  · obtain ⟨i, hfollows, -⟩ := P.exists_followsColon hstands rfl hends
    exact ⟨i, fun c hc => Option.mem_unique rfl hc ▸ hfollows⟩

end Function

namespace Definition.Stands

variable {text : List Char} {s ended : Source} {tokens : Array Token} {a b : Nat → Nat}
  (P : Parsed (terminated text) ended tokens a b) (htable : s.table = .ofText text) {d : Definition}
  {m j k : Nat} {first : Cell} {others : List Cell} (h : d.Stands tokens m j k (first :: others))

section

include h

/-- The statements are behind the word `def`. -/
theorem lt_start {c : Cell} (hc : c ∈ first :: others) {p q : Nat}
    (hends : c.Ends (terminated text) tokens a b p q) : m < p :=
  h.lt.trans_le ((h.block.spread.bounds c hc).1.trans hends.adorned.le)

/-- The other statements are behind the first one. -/
theorem eq_or_lt_lo {p q : Nat} (hends : first.Ends (terminated text) tokens a b p q) {c : Cell}
    (hc : c ∈ first :: others) : c = first ∨ p < c.lo :=
  (h.block.spread.eq_or_le_lo hc).imp_right fun hle => hends.le.trans_lt (hends.lt.trans_le hle)

end

include P htable h

/-- A definition begins with a token. -/
theorem start_node : s.start d.node = offsetOf (terminated text) (a m) :=
  Source.start_of_startsAt P htable h.keyword.startsAt (by rw [h.span]; rfl)

/-- The statements end with the last one, or before. -/
theorem stop_le {c last : Cell} (hc : c ∈ first :: others) (hlast : last ∈ (first :: others).getLast?) :
    s.stop c.tree ≤ s.stop last.tree := by
  have hmem := List.mem_of_mem_getLast? hlast
  obtain ⟨p', q', hends'⟩ := P.exists_ends (h.laid c hc) (h.block.placed c hc)
  obtain ⟨p'', q'', hends''⟩ := P.exists_ends (h.laid last hmem) (h.block.placed last hmem)
  have hle := hends''.le_last hends'.last (hends'.lt.trans_le (h.block.spread.hi_le hc hlast))
  rw [Source.stop_of_ends P htable hends', Source.stop_of_ends P htable hends'']
  exact offsetOf_le P.terminated (P.b_le_b hle hends''.last) (P.b_le hends''.last)

/-- A definition ends with its last statement, but for a semicolon. -/
theorem segment_eq {last : Cell} (hlast : last ∈ (first :: others).getLast?) {p q : Nat}
    (hends : last.Ends (terminated text) tokens a b p q) :
    s.segment d.node = s.table.between (s.start d.node) (s.stop last.tree) ∨
      ∃ gap, isGap false gap = true ∧
        s.segment d.node = s.table.between (s.start d.node) (s.stop last.tree) ++ gap ++ [';'] := by
  obtain ⟨n, hstop, hn⟩ := P.exists_stop_definition h hlast hends
  have hn' : StartsAt tokens n := by
    rcases hn with rfl | ⟨-, hsign⟩
    · exact hends.last
    · exact ⟨_, hsign, rfl⟩
  have hstop : s.stop d.node = offsetOf (terminated text) (b n) := by
    rw [Source.stop, hstop, htable, offset_terminated (P.b_lt_length hn')]
  rw [Source.segment, hstop, Source.stop_of_ends P htable hends]
  rcases hn with rfl | ⟨rfl, hsign⟩
  · exact Or.inl rfl
  · obtain ⟨gap, hgap, hbetween⟩ := P.exists_gap_semicolon hends.last hsign
    have hmq := (h.lt_start (List.mem_of_mem_getLast? hlast) hends).le.trans hends.le
    refine Or.inr ⟨gap, hgap, ?_⟩
    rw [h.start_node P htable, htable, between_terminated (P.b_lt_length hn'),
      between_terminated (P.b_lt_length hends.last), List.append_assoc, ← hbetween]
    exact P.between_offsetOf ((P.a_le_a h.keyword.startsAt hmq hends.last).trans (P.a_lt_b hends.last).le)
      (P.b_le_b (Nat.le_add_right q 1) hn') (P.b_le hn')

variable {p q : Nat} (hends : first.Ends (terminated text) tokens a b p q)

include hends

/-- The node of the first statement begins in the definition. -/
theorem start_node_le : s.start d.node ≤ s.start first.tree := by
  rw [h.start_node P htable, Source.start_of_ends P htable hends,
    P.offsetOf_le_iff h.keyword.startsAt hends.first]
  exact (h.lt_start List.mem_cons_self hends).le

/-- The nodes of the statements begin behind the cut. -/
theorem start_le {c : Cell} (hc : c ∈ first :: others) : s.start first.tree ≤ s.start c.tree := by
  obtain ⟨p', q', hends'⟩ := P.exists_ends (h.laid c hc) (h.block.placed c hc)
  rcases h.eq_or_lt_lo hends hc with rfl | hlt
  · exact le_rfl
  · rw [Source.start_of_ends P htable hends, Source.start_of_ends P htable hends',
      P.offsetOf_le_iff hends.first hends'.first]
    exact (hlt.trans_le hends'.adorned.le).le

variable (hheader : d.header = s.table.between (s.start d.node) (s.start first.tree))

include hheader

/-- The cut is where the node of the first statement begins. -/
theorem cut_eq : d.cut s = s.start first.tree := by
  have hle := h.start_node_le P htable hends
  have hshort : s.start first.tree ≤ s.table.text.length := by
    rw [Source.start_of_ends P htable hends, htable]
    exact offsetOf_terminated_le ((P.a_lt_b hends.first).trans (P.b_lt_length hends.first))
  rw [Definition.cut, hheader, LineTable.between, List.length_drop, List.length_take,
    Nat.min_eq_left hshort, Nat.add_sub_cancel' hle]

/-- The cut is at the first token of the body if and only if the first statement has no decorators. -/
theorem cut_eq_iff :
    d.cut s = s.table.offset (startAt tokens first.lo) ↔ first.tree.field .decorators = [] := by
  have hlo := hends.adorned.startsAt hends.first
  rw [← hends.adorned.eq_iff, h.cut_eq P htable hends hheader, Source.start_of_ends P htable hends,
    Source.offset_startAt P htable hlo]
  exact ⟨P.eq_of_offsetOf_eq hends.first hlo, fun heq => heq ▸ rfl⟩

/-- No statement reaches into the header if and only if the first one has no decorators. -/
theorem cut_le_iff :
    (∀ c ∈ first :: others, d.cut s ≤ s.table.offset (startAt tokens c.lo)) ↔
      first.tree.field .decorators = [] := by
  have hle {c : Cell} (hc : c ∈ first :: others) :
      d.cut s ≤ s.table.offset (startAt tokens c.lo) ↔ p ≤ c.lo := by
    obtain ⟨p', q', hends'⟩ := P.exists_ends (h.laid c hc) (h.block.placed c hc)
    have hlo := hends'.adorned.startsAt hends'.first
    rw [h.cut_eq P htable hends hheader, Source.start_of_ends P htable hends,
      Source.offset_startAt P htable hlo, P.offsetOf_le_iff hends.first hlo]
  rw [← hends.adorned.eq_iff]
  constructor
  · intro hall
    have hmem : first ∈ first :: others := List.mem_cons_self
    exact ((hle hmem).1 (hall first hmem)).antisymm hends.adorned.le
  · intro heq c hc
    rw [hle hc]
    rcases h.eq_or_lt_lo hends hc with rfl | hlt
    · exact heq.le
    · exact hlt.le

end Definition.Stands

namespace Function

variable {text : List Char} {s : Source} {nodes : List Tree} {t : Tree} {depth : Int} {d : Definition}

/-- A coroutine whose body ends with a semicolon. -/
def closedBody : List Char :=
  "async def f():\n    (a)\n    b; c ;\n".toList

/-- A function whose first statement has a decorator. -/
def decoratedBody : List Char :=
  "def f():\n    @a\n    def g(): pass\n".toList

end Function

end CallTrace
