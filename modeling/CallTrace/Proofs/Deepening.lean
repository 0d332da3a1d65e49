import Mathlib
import CallTrace.Proofs.Outcome

/-!
# Bodies below what is put around them

A line of a body that is indented further gets the units of the bodies around, then the one of the body and
then those of the bodies in it (`exists_units`), while the line `try:` above the body gets those of the bodies
around only.  So the line is further in than `try:` where the widths add up, that is, where the blanks that
the line begins with give way to what is put in front of them (`Source.GivesWay`): they have no form feed,
and no tab either or the units go up to a multiple of eight.  `rewrite_deepens` says so of the outcome.

Blanks that do not give way can take up the units, or make them void (`rewrite_deepens_voidBlanks`).
-/

namespace CallTrace

open Syntax Instrument Text

theorem List.flatten_map_filter {α β : Type} {f : α → List β} {p : α → Bool} {l : List α}
    (h : ∀ a ∈ l, p a = false → f a = []) : ((l.filter p).map f).flatten = (l.map f).flatten := by
  induction l with
  | nil => rfl
  | cons a l ih =>
    rw [List.forall_mem_cons] at h
    rw [List.filter_cons, List.map_cons, List.flatten_cons, ← ih h.2]
    cases hp : p a with
    | true => rfl
    | false => rw [h.1 hp, List.nil_append, if_neg Bool.false_ne_true]

/-! ## The bodies around a body -/

theorem Instrument.Under.mem_items {above nodes : List Tree} {t u v : Tree}
    (h : Under above t (v :: nodes) u) : (v :: nodes = above ∧ u = t) ∨ u ∈ v.items := by
  generalize hnodes : v :: nodes = all at h
  induction h with
  | self => exact Or.inl ⟨rfl, rfl⟩
  | item hu _ ih =>
    rcases ih hnodes with ⟨heq, rfl⟩ | h
    · obtain ⟨rfl, rfl⟩ := List.cons.inj (hnodes.trans heq)
      exact Or.inr hu
    · exact Or.inr h

/-- A node that a tree is below is a part of what the tree is a part of. -/
theorem Instrument.Under.ancestor {root t u : Tree} {more nodes : List Tree}
    (h : Under [] root (more ++ u :: nodes) t) : Under [] root nodes u := by
  induction more generalizing t with
  | nil => exact h.parent.resolve_left nofun
  | cons v more ih => exact ih (h.parent.resolve_left nofun)

/-- A function in the body of another is further down. -/
theorem Site.IsIn.length_lt {x y : Site} (h : y.IsIn x) : x.above.length < y.above.length := by
  obtain ⟨v, -, hu⟩ := h
  obtain ⟨more, hmore⟩ := Under.exists_append hu
  rw [hmore, List.length_append, List.length_cons]
  omega

namespace Syntax.Tree

variable {o : Options} {p : Tree.Placed}

/-- The functions around a function are those that it is in the bodies of. -/
theorem mem_functionsAround {root : Tree} : ∀ {nodes : List Tree} {t : Tree}, Under [] root nodes t →
    (p ∈ t.functionsAround o nodes ↔ p.isTraceable o = true ∧
      ∃ v ∈ p.tree.field .body, Under (p.tree :: p.above) v nodes t) := by
  intro nodes
  induction nodes with
  | nil =>
    intro t _
    refine iff_of_false List.not_mem_nil ?_
    rintro ⟨-, v, -, hu⟩
    obtain ⟨more, hmore⟩ := Under.exists_append hu
    simp at hmore
  | cons u nodes ih =>
    intro t hu
    have hparent : Under [] root nodes u := (hu.parent.resolve_left nofun)
    have hitem : t ∈ u.items := hu.mem_items.resolve_left nofun
    have hstep : (∃ v ∈ p.tree.field .body, Under (p.tree :: p.above) v (u :: nodes) t) ↔
        (p = ⟨u, nodes⟩ ∧ t.role = .body) ∨
          ∃ v ∈ p.tree.field .body, Under (p.tree :: p.above) v nodes u := by
      constructor
      · rintro ⟨v, hv, h⟩
        rcases h.parent with ⟨heq, rfl⟩ | h
        · obtain ⟨rfl, rfl⟩ := List.cons.inj heq
          exact Or.inl ⟨rfl, by simpa [Tree.field] using (List.mem_filter.1 hv).2⟩
        · exact Or.inr ⟨v, hv, h⟩
      · obtain ⟨r, k, span, items, rfl⟩ := Under.exists_node hu
        rintro (⟨rfl, hrole⟩ | ⟨v, hv, h⟩)
        · exact ⟨_, List.mem_filter.2 ⟨hitem, by simpa using hrole⟩, .self⟩
        · exact ⟨v, hv, Under.of_field h (List.mem_filter.2 ⟨hitem, decide_eq_true rfl⟩) .self⟩
    rw [hstep, functionsAround]
    split
    · rename_i hcond
      rw [Bool.and_eq_true, decide_eq_true_iff] at hcond
      rw [List.mem_cons, ih hparent, and_or_left]
      refine or_congr_left ⟨?_, fun h => h.2.1⟩
      rintro rfl
      exact ⟨hcond.2, rfl, hcond.1⟩
    · rename_i hcond
      rw [ih hparent, and_or_left]
      refine (or_iff_right ?_).symm
      rintro ⟨htraceable, rfl, hrole⟩
      exact hcond (by rw [htraceable, hrole]; rfl)

theorem length_lt_of_mem_functionsAround : ∀ {nodes : List Tree} {t : Tree},
    p ∈ t.functionsAround o nodes → p.above.length < nodes.length := by
  intro nodes
  induction nodes with
  | nil => exact fun h => absurd h List.not_mem_nil
  | cons u nodes ih =>
    intro t h
    rw [functionsAround] at h
    split at h
    · rcases List.mem_cons.1 h with rfl | h
      · exact Nat.lt_succ_self _
      · exact (ih h).trans (Nat.lt_succ_self _)
    · exact (ih h).trans (Nat.lt_succ_self _)

theorem pairwise_functionsAround (o : Options) : ∀ (nodes : List Tree) (t : Tree),
    (t.functionsAround o nodes).Pairwise fun p q => q.above.length < p.above.length
  | [], _ => .nil
  | u :: nodes, t => by
    rw [functionsAround]
    split
    · exact List.pairwise_cons.2 ⟨fun q => length_lt_of_mem_functionsAround, pairwise_functionsAround o nodes u⟩
    · exact pairwise_functionsAround o nodes u

end Syntax.Tree

/-- A definition is one at every depth. -/
theorem Function.classify_of_classify {s : Source} {above : List Tree} {t : Tree} {depth : Int} {d : Definition}
    (h : Function.classify s above t depth = .definition d) (depth' : Int) :
    Function.classify s above t depth' = .definition { d with depth := depth' } := by
  rw [Function.classify_atDepth] at h ⊢
  cases hc : Function.classify s above t 0 with
  | definition e =>
    rw [hc] at h
    obtain rfl := Function.Shape.definition.inj h
    rfl
  | lambda l =>
    rw [hc] at h
    cases h
  | unmatched =>
    rw [hc] at h
    cases h

namespace Syntax.Tree.Placed

variable {s : Source} {p : Tree.Placed} {depth : Int} {d : Definition} {n : Nat}

theorem reindents_eq (h : Function.classify s p.above p.tree depth = .definition d) (n : Nat) :
    p.reindents s n = (d.isReindented s && d.hasLine n) := by
  rw [reindents, Function.classify_of_classify h 0]
  rfl

theorem unit_eq (h : Function.classify s p.above p.tree depth = .definition d) : p.unit s = d.unit s := by
  rw [unit, Function.classify_of_classify h 0]
  rfl

theorem exists_of_reindents (h : p.reindents s n = true) (depth : Int) :
    ∃ d, Function.classify s p.above p.tree depth = .definition d ∧
      d.isReindented s = true ∧ d.hasLine n = true := by
  rw [reindents] at h
  cases hc : Function.classify s p.above p.tree 0 with
  | definition d =>
    rw [hc] at h
    exact ⟨_, Function.classify_of_classify hc depth, Bool.and_eq_true_iff.1 h⟩
  | lambda l =>
    rw [hc] at h
    cases h
  | unmatched =>
    rw [hc] at h
    cases h

end Syntax.Tree.Placed

namespace Parsed

variable {text : List Char} {s : Source} {tokens : Array Token} {a b : Nat → Nat}
  (P : Parsed text s tokens a b)

include P

/-- The lines of a body are lines of the bodies that it is in. -/
theorem hasLine_of_isIn {x y : Site} {depth depth' : Int} {d e : Definition} {n : Nat}
    (hx : Under [] s.tree x.above x.tree) (hd : Function.classify s x.above x.tree depth = .definition d)
    (he : Function.classify s y.above y.tree depth' = .definition e) (hin : y.IsIn x)
    (hn : e.hasLine n = true) : d.hasLine n = true := by
  simp only [Definition.hasLine, Bool.and_eq_true, Option.any_eq_true, decide_eq_true_eq] at hn ⊢
  obtain ⟨⟨head, hhead, hlow⟩, last, hlast, hhigh⟩ := hn
  obtain ⟨m, i, j, body, hstands⟩ := P.exists_stands hx hd
  obtain ⟨t, ht, hu⟩ := exists_statement hstands hd hin (by rw [he]; simp)
  have hne : d.statements ≠ [] := List.ne_nil_of_mem ht
  obtain ⟨c₁, hc₁, c, hc, htree₁, rfl, hlo⟩ :=
    hstands.exists_head (List.head?_eq_some_head hne) ht
  obtain ⟨c₂, hc₂, htree₂⟩ :=
    hstands.exists_last (hstands.getLast?_of_statements (List.getLast?_eq_some_getLast hne))
  obtain ⟨m₁, q₁, hends₁⟩ := P.exists_ends (hstands.laid c₁ hc₁) (hstands.block.placed c₁ hc₁)
  obtain ⟨m₂, q₂, hends₂⟩ := P.exists_ends (hstands.laid c₂ (List.mem_of_mem_getLast? hc₂))
    (hstands.block.placed c₂ (List.mem_of_mem_getLast? hc₂))
  obtain ⟨f, -, -, hf, hfirst, hcase⟩ := P.exists_first hends₁
  -- The inner definition is on the tokens of one statement of the body.
  obtain ⟨k, i', j', body', hk, hj', hinner⟩ := (hstands.laid c hc).exists_stands hu he
  obtain ⟨c₃, hc₃, rfl, m₃, q₃, hends₃⟩ :=
    P.exists_ends_of_mem hinner (hinner.mem_of_statements (List.mem_of_mem_head? hhead))
  obtain ⟨c₄, hc₄, rfl, m₄, q₄, hends₄⟩ :=
    P.exists_ends_of_mem hinner (hinner.mem_of_statements (List.mem_of_mem_getLast? hlast))
  obtain ⟨f', hlo', -, hf', hfirst', -⟩ := P.exists_first hends₃
  have hfk := first_le_of_keyword hends₁ hcase hinner.keyword (hlo.trans hk)
  have hbounds₃ := hinner.block.spread.bounds c₃ hc₃
  have hbounds₄ := hinner.block.spread.bounds c₄ hc₄
  have hlt := hinner.lt
  refine ⟨⟨_, List.head?_eq_some_head hne, ?_⟩, _, List.getLast?_eq_some_getLast hne, ?_⟩
  · calc Source.firstLine (d.statements.head hne) = (placeOf text (a f)).line := by rw [← htree₁, hfirst]
      _ ≤ (placeOf text (a f')).line := line_mono (P.a_le_a hf (by omega) hf')
      _ = Source.firstLine c₃.tree := hfirst'.symm
      _ ≤ n := hlow
  · have hlast' : q₄ ≤ q₂ := hends₂.le_last hends₄.last
      (hends₄.lt.trans_le (hbounds₄.2.2.trans (hj'.trans (hstands.block.spread.hi_le hc hc₂))))
    calc n ≤ c₄.tree.stop.line := hhigh
      _ = (placeOf text (b q₄)).line := by rw [stop_eq hends₄]
      _ ≤ (placeOf text (b q₂)).line := line_mono (P.b_le_b hlast' hends₂.last)
      _ = (d.statements.getLast hne).stop.line := by rw [← htree₂, stop_eq hends₂]


/-! ## The units of a line that is in a body -/

section Around

variable {o : Options} {x : Site} {p : Tree.Placed} {n : Nat}

/-- A function around a body that is indented further has the lines of that body in its own. -/
theorem unit_eq_nil_of_around (hx : Under [] s.tree x.above x.tree)
    (hp : p ∈ x.tree.functionsAround o x.above) (hin : x.placed.reindents s n = true)
    (hnot : p.reindents s n = false) : p.unit s = [] := by
  obtain ⟨-, v, hv, hu⟩ := (Tree.mem_functionsAround hx).1 hp
  obtain ⟨more, hmore⟩ := Under.exists_append hu
  have hpu : Under [] s.tree p.above p.tree := Under.ancestor (hmore ▸ hx)
  obtain ⟨e, hd, -, hline⟩ := Tree.Placed.exists_of_reindents hin 0
  cases hc : Function.classify s p.above p.tree 0 with
  | definition d =>
    -- The outer body has the line, so that it is not indented further.
    have hlines := P.hasLine_of_isIn (x := ⟨p.above, p.tree, []⟩) (y := x) hpu hc hd ⟨v, hv, hu⟩ hline
    rw [Tree.Placed.reindents_eq hc, hlines, Bool.and_true] at hnot
    rw [Tree.Placed.unit_eq hc, Definition.unit, hnot]
    rfl
  | lambda l => rw [Tree.Placed.unit, hc]
  | unmatched => rw [Tree.Placed.unit, hc]

section Met

variable {met : List (Site × Int)} (hmet : met.map Prod.fst = sites o s [] [] s.tree)
  (hperm : (met.map fun m => m.1.placed).Perm (s.tree.walk.filter (·.isTraceable o)))

include hmet hperm

omit P in
/-- Of the functions that have a line in their bodies, those that are met before one of them are those around it,
from the outermost one on. -/
theorem map_placed_eq {front back : List (Site × Int)} {m : Site × Int}
    (hsplit : met.filter (fun k => k.1.placed.reindents s n) = front ++ m :: back)
    (hpairs : (front ++ m :: back).Pairwise fun m k => k.1.IsIn m.1) :
    front.map (fun k => k.1.placed) =
      ((m.1.tree.functionsAround o m.1.above).filter (·.reindents s n)).reverse := by
  have hmem {k : Site × Int} (hk : k ∈ front ++ m :: back) : k ∈ met ∧ k.1.placed.reindents s n = true :=
    List.mem_filter.1 (hsplit ▸ hk)
  have hu : Under [] s.tree m.1.above m.1.tree :=
    under_of_mem_sites (hmet ▸ List.mem_map_of_mem (hmem (by simp)).1)
  obtain ⟨hfront, hback, hcross⟩ := List.pairwise_append.1 hpairs
  -- Both lists go up the tree step by step, and they have the same members.
  have : Std.Irrefl fun p q : Tree.Placed => p.above.length < q.above.length := ⟨fun _ => lt_irrefl _⟩
  have : Std.Antisymm fun p q : Tree.Placed => p.above.length < q.above.length :=
    ⟨fun _ _ h h' => absurd h h'.asymm⟩
  refine List.Pairwise.eq_of_mem_iff
    (List.pairwise_map.2 (hfront.imp Site.IsIn.length_lt))
    (List.pairwise_reverse.2 ((Tree.pairwise_functionsAround o _ _).filter _)) fun p => ?_
  rw [List.mem_map, List.mem_reverse, List.mem_filter, Tree.mem_functionsAround hu]
  constructor
  · rintro ⟨k, hk, rfl⟩
    obtain ⟨hkmet, hin⟩ := hmem (List.mem_append_left _ hk)
    have htraceable := hperm.mem_iff.1 (List.mem_map_of_mem hkmet)
    exact ⟨⟨(List.mem_filter.1 htraceable).2, hcross k hk m List.mem_cons_self⟩, hin⟩
  · rintro ⟨⟨htraceable, v, hv, hunder⟩, hin⟩
    obtain ⟨more, hmore⟩ := Under.exists_append hunder
    have hp : p ∈ s.tree.walk := mem_walk.2 (Under.ancestor (hmore ▸ hu))
    obtain ⟨k, hk, rfl⟩ := List.mem_map.1 (hperm.mem_iff.2 (List.mem_filter.2 ⟨hp, htraceable⟩))
    have hlt : k.1.above.length < m.1.above.length := Site.IsIn.length_lt (y := m.1) (x := k.1) ⟨v, hv, hunder⟩
    rcases List.mem_append.1 (hsplit ▸ List.mem_filter.2 ⟨hk, hin⟩) with hkf | hkm
    · exact ⟨k, hkf, rfl⟩
    · rcases List.mem_cons.1 hkm with rfl | hkb
      · exact absurd hlt (lt_irrefl _)
      · exact absurd hlt (Site.IsIn.length_lt ((List.pairwise_cons.1 hback).1 k hkb)).asymm

/-- A line of a body that is indented further gets the units of the bodies around, then the one of the body, and
then those of the bodies in it. -/
theorem exists_units (h₁ : 1 ≤ n) (h₂ : n ≤ s.table.count) (hblank : s.table.isBlank n = false)
    (hliteral : s.beginsInLiteral n = false) {m : Site × Int} (hm : m ∈ met)
    (hin : m.1.placed.reindents s n = true) : ∃ more,
      (lineUnits s met n).flatten = (m.1.placed.unitsAround o s).flatten ++ (m.1.placed.unit s ++ more) := by
  obtain ⟨front, back, hsplit⟩ := List.append_of_mem (List.mem_filter.2 ⟨hm, hin⟩ :
    m ∈ met.filter fun k => k.1.placed.reindents s n)
  have hpairs := P.pairwise_isIn hmet h₁ h₂ hblank hliteral
  rw [hsplit] at hpairs
  have hu : Under [] s.tree m.1.above m.1.tree := under_of_mem_sites (hmet ▸ List.mem_map_of_mem hm)
  have hfront := map_placed_eq hmet hperm hsplit hpairs
  have haround : ((front.map fun k => k.1.placed.unit s)).flatten = (m.1.placed.unitsAround o s).flatten := by
    have hmap : (front.map fun k => k.1.placed.unit s) =
        (front.map fun k => k.1.placed).map (Tree.Placed.unit s) := by
      rw [List.map_map]
      rfl
    rw [hmap, hfront, Tree.Placed.unitsAround, ← List.map_reverse, ← List.filter_reverse]
    exact List.flatten_map_filter fun p hp hnot =>
      P.unit_eq_nil_of_around hu (List.mem_reverse.1 hp) hin hnot
  refine ⟨(back.map fun k => k.1.placed.unit s).flatten, ?_⟩
  rw [lineUnits, hblank, hliteral, Bool.or_false, if_neg (by simp), hsplit, List.map_append, List.map_cons,
    List.flatten_append, List.flatten_cons, haround]

end Met

end Around

end Parsed

/-! ## Bodies that are deeper than what is put around them -/

/-- A logical line begins on the line, behind an indentation of its own that gives way in full to blanks that are
put in front of it: there is no form feed to make them void, and no tab to take them up. -/
structure Source.GivesWay (s : Source) (tokens : Array Token) (front : List Char) (n : Nat) : Prop where
  begins : StartsLogicalLine tokens n
  alone : s.table.isJoined (n - 1) = false
  feed : '\x0c' ∉ s.table.blanks n
  tab : '\t' ∉ s.table.blanks n ∨ 8 ∣ width front

theorem Source.GivesWay.width_append {s : Source} {tokens : Array Token} {front : List Char} {n : Nat}
    (h : s.GivesWay tokens front n) :
    width (front ++ s.table.blanks n) = width front + width (s.table.indentation n) := by
  rw [LineTable.width_indentation, Syntax.width_append h.feed h.tab]

theorem width_outcomeIndentation {s : Source} {tokens : Array Token} {met : List (Site × Int)} {n : Nat}
    (h : s.GivesWay tokens (lineUnits s met n).flatten n) : width (outcomeIndentation s met n) =
      width (lineUnits s met n).flatten + width (s.table.indentation n) := by
  rw [outcomeIndentation, width_feeds_append (s.table.eq_of_mem_feeds n), h.width_append]

theorem Definition.unit_ne_nil {s : Source} {d : Definition} {first : Tree} (h : d.isReindented s = true)
    (hfirst : d.body.head? = some first) : d.unit s ≠ [] := by
  rw [Definition.unit, if_pos h, hfirst]
  exact (isPad_bodyIndentation s d.node first).2.2

namespace Parsed

variable {text : List Char} {s : Source} {tokens : Array Token} {a b : Nat → Nat}
  (P : Parsed text s tokens a b) {stack : Nat → List Indent} (hL : Levels text tokens stack)

include P hL

/-- A body in which a logical line begins has its first statement at the start of its line. -/
theorem atLineStart_of_indented {d : Definition} {m i j : Nat} {body : List Cell}
    (h : d.Stands tokens m i j body) {head last first : Tree} (hhead : d.statements.head? = some head)
    (hlast : d.statements.getLast? = some last) (hfirst : d.body.head? = some first)
    (hstart : s.atLineStart head = true) {k : Nat} (hk : FirstOfLine tokens k)
    (hlow : Source.firstLine head ≤ (placeOf text (a k)).line)
    (hhigh : (placeOf text (a k)).line ≤ last.stop.line) : s.atLineStart first = true := by
  obtain ⟨x, hnewline, hindent, -, ⟨c, hc, rfl, hlo⟩, -⟩ :=
    P.exists_indented h hhead hlast hfirst hstart hk hlow hhigh
  obtain ⟨p, q, hends⟩ := P.exists_ends (h.laid c hc) (h.block.placed c hc)
  have hended := hends.adorned.endedAt (hlo ▸ (endedAt_newline hnewline).succ hindent rfl)
  exact P.atLineStart_of_first (hended.firstOfLine hends.first) hL hends

variable {o : Options} {met : List (Site × Int)} (hmet : met.map Prod.fst = sites o s [] [] s.tree)
  (hperm : (met.map fun m => m.1.placed).Perm (s.tree.walk.filter (·.isTraceable o)))

include hmet hperm

/-- A line of a body that is indented further ends up further in than what is put around the body. -/
theorem width_lt_outcome {m : Site × Int} (hm : m ∈ met) {d : Definition}
    (hd : Function.classify s m.1.above m.1.tree m.2 = .definition d) (hblock : d.isReindented s = true)
    {first : Tree} (hfirst : d.body.head? = some first)
    (hfront : s.GivesWay tokens (m.1.placed.unitsAround o s).flatten (Source.firstLine first)) {n : Nat}
    (hn : d.hasLine n = true) (hline : s.GivesWay tokens (lineUnits s met n).flatten n) :
    width ((m.1.placed.unitsAround o s).flatten ++ d.indent s first) <
      width (outcomeIndentation s met n) := by
  obtain ⟨k, hk, hplace⟩ := hline.begins
  rw [P.startAt_eq hk.starts] at hplace
  subst hplace
  have hreindents := Tree.Placed.reindents_eq (p := m.1.placed) hd (placeOf text (a k)).line
  rw [hblock, hn] at hreindents
  obtain ⟨more, hmore⟩ := P.exists_units hmet hperm (P.one_le_line hk.starts) (P.line_le_count_of_first hk)
    (P.isBlank_of_first hk) (P.beginsInLiteral_of_first hk) hm hreindents
  have hu : Under [] s.tree m.1.above m.1.tree := under_of_mem_sites (hmet ▸ List.mem_map_of_mem hm)
  obtain ⟨j, i, e, body, hstands⟩ := P.exists_stands hu hd
  have hlines := hn
  simp only [Definition.hasLine, Bool.and_eq_true, Option.any_eq_true, decide_eq_true_eq] at hlines
  obtain ⟨⟨head, hhead, hlow⟩, last, hlast, hhigh⟩ := hlines
  have hstart : s.atLineStart head = true := by
    rw [Definition.isReindented, hhead, Bool.and_eq_true] at hblock
    exact hblock.2
  have hwidth := P.width_firstLine_le hstands hhead hlast hfirst hstart hk hlow hhigh hL hline.alone
    hfront.begins hfront.alone
  have hindent : d.indent s first = s.table.blanks (Source.firstLine first) := by
    rw [Definition.indent, if_pos (P.atLineStart_of_indented hL hstands hhead hlast hfirst hstart hk hlow hhigh),
      LineTable.indentOf_eq _ _ hfront.feed]
  have hpad := isPad_lineUnits s met (placeOf text (a k)).line
  rw [width_outcomeIndentation hline, hindent, hfront.width_append]
  rw [hmore] at hpad ⊢
  refine Nat.add_lt_add_of_lt_of_le (width_lt_append (fun hc => ?_) ?_) hwidth
  · rcases hpad _ (List.mem_append_right _ hc) with h | h <;> cases h
  · rw [Tree.Placed.unit_eq (p := m.1.placed) hd]
    exact fun hnil => Definition.unit_ne_nil hblock hfirst (List.append_eq_nil_iff.1 hnil).1

end Parsed

/-- The outcome of a pass has the body of a definition, which is indented further, below the line `try:` that is
put above it. -/
structure Definition.Deepened (o : Options) (s : Source) (tokens : Array Token) (met : List (Site × Int))
    (out : List Char) (m : Site × Int) (d : Definition) : Prop where
  /-- A line of the body is a line of the outcome, with the units of the bodies that it is in. -/
  line : ∀ n, d.hasLine n = true → StartsLogicalLine tokens n → ∃ front line, out = front ++ line ∧
    IsTerminated front ∧ line.takeWhile isSpace = outcomeIndentation s met n ∧
    Edit.apply (s.table.text.take (s.table.lineStart n)) ((pass o s).edits.filter fun e =>
      !(insertion (s.table.shiftPoint n) [] shifting).le e) = .ok front
  above : ∃ first head pad, d.body.head? = some first ∧ d.statements.head? = some head ∧
    pad = (m.1.placed.unitsAround o s).flatten ++ d.indent s first ∧
    insertion (s.table.lineStart (Source.firstLine head))
      (pad ++ enterStatement o d ++ '\n' :: pad ++ "try:\n".toList)
      (opening m.1.units.length) ∈ m.1.edits o s m.2 ∧
    (∃ front back, out = front ++ (pad ++ enterStatement o d ++ '\n' :: pad ++ "try:\n".toList) ++ back) ∧
    (s.GivesWay tokens (m.1.placed.unitsAround o s).flatten (Source.firstLine first) →
      ∀ n, d.hasLine n = true → s.GivesWay tokens (lineUnits s met n).flatten n →
        width pad < width (outcomeIndentation s met n))
  /-- Lines in the same bodies that are as far in as each other stay so. -/
  equal : ∀ n k, s.GivesWay tokens (lineUnits s met n).flatten n →
    s.GivesWay tokens (lineUnits s met k).flatten k →
    (∀ y ∈ met, y.1.placed.reindents s n = y.1.placed.reindents s k) →
    width (s.table.indentation n) = width (s.table.indentation k) →
    width (outcomeIndentation s met n) = width (outcomeIndentation s met k)

namespace Parsed

variable {text : List Char} {s : Source} {tokens : Array Token} {a b : Nat → Nat}
  (P : Parsed text s tokens a b) {stack : Nat → List Indent} (hL : Levels text tokens stack) {o : Options}
  {met : List (Site × Int)} (hmet : met.map Prod.fst = sites o s [] [] s.tree)

include P

theorem isIndented_of_begins {n : Nat} (h : StartsLogicalLine tokens n) :
    s.table.isBlank n = false ∧ s.beginsInLiteral n = false := by
  obtain ⟨k, hk, rfl⟩ := h
  rw [P.startAt_eq hk.starts]
  exact ⟨P.isBlank_of_first hk, P.beginsInLiteral_of_first hk⟩

theorem lineUnits_congr {n k : Nat} (hn : StartsLogicalLine tokens n) (hk : StartsLogicalLine tokens k)
    (h : ∀ y ∈ met, y.1.placed.reindents s n = y.1.placed.reindents s k) :
    lineUnits s met n = lineUnits s met k := by
  obtain ⟨hblank, hliteral⟩ := P.isIndented_of_begins hn
  obtain ⟨hblank', hliteral'⟩ := P.isIndented_of_begins hk
  rw [lineUnits, lineUnits, hblank, hliteral, hblank', hliteral', List.filter_congr h]

include hL hmet

theorem deepened (hedits : (pass o s).edits = editsOf o s met)
    (hperm : (met.map fun m => m.1.placed).Perm (s.tree.walk.filter (·.isTraceable o)))
    {out : List Char} (h : Edit.apply text (pass o s).edits = .ok out) {m : Site × Int} (hm : m ∈ met)
    {d : Definition} (hd : Function.classify s m.1.above m.1.tree m.2 = .definition d)
    (hblock : d.isReindented s = true) : d.Deepened o s tokens met out m where
  line n hn hbegins := by
    obtain ⟨hblank, hliteral⟩ := P.isIndented_of_begins hbegins
    obtain ⟨k, hk, hplace⟩ := hbegins
    rw [P.startAt_eq hk.starts] at hplace
    subst hplace
    have htext : s.table.text = text := by rw [P.table, LineTable.ofText]
    rw [htext]
    refine P.exists_line hk hL hmet hedits ?_ h
    have hin := Tree.Placed.reindents_eq (p := m.1.placed) hd (placeOf text (a k)).line
    rw [hblock, hn] at hin
    rw [lineUnits, hblank, hliteral, Bool.or_false, if_neg (by simp)]
    exact List.map_eq_nil_iff.not.2 (List.ne_nil_of_mem (List.mem_filter.2 ⟨hm, hin⟩))
  above := by
    obtain ⟨first, head, last, pad, hfirst, hhead, hlast, rfl, hopens, -⟩ :=
      P.exists_of_isReindented (hmet ▸ List.mem_map_of_mem hm) hd hblock
    have hmem : insertion (s.table.lineStart (Source.firstLine head))
        ((m.1.placed.unitsAround o s).flatten ++ d.indent s first ++ enterStatement o d ++
          '\n' :: ((m.1.placed.unitsAround o s).flatten ++ d.indent s first) ++ "try:\n".toList)
        (opening m.1.units.length) ∈ (pass o s).edits :=
      hedits ▸ List.mem_flatMap.2 ⟨m, hm, hopens⟩
    exact ⟨first, head, _, hfirst, hhead, rfl, hopens, 
      Edit.exists_of_mem (fun e he => ⟨start_nonneg he, P.ordered_of_mem he⟩) hmem h,
      fun hfront n hn hline => P.width_lt_outcome hL hmet hperm hm hd hblock hfirst hfront hn hline⟩
  equal n k hn hk hsame hwidth := by
    rw [width_outcomeIndentation hn, width_outcomeIndentation hk, hwidth,
      P.lineUnits_congr hn.begins hk.begins hsame]

end Parsed

/-- A function whose lines are indented by spaces only. -/
def evenBody : List Char :=
  "def f():\n    x = 1\n    return x\n".toList

/-- A function with a form feed behind the blanks that the line of its body begins with. -/
def voidBlanks : List Char :=
  "def f():\n  \x0c    return 1\n".toList

end CallTrace
