import Mathlib
import CallTrace.Instrument.Rewrite

/-!
# The functions that a pass meets

A `Site` is a function with the nodes above it and the units by which the bodies around it are
shifted.  `sites` lists the functions that a pass meets, in the order in which it records them,
without the depths that it counts on the way.

`visit_sites` says that a pass records the edits of its sites and no others, and `mem_sites` that its
sites are the functions among the nodes of the tree.
-/

namespace CallTrace

open Syntax

namespace Function.Shape

/-- The same function at another depth. -/
def atDepth (depth : Int) : Shape → Shape
  | .definition d => .definition { d with depth }
  | .lambda l => .lambda { l with depth }
  | .unmatched => .unmatched

end Function.Shape

/-- The depth has no part in what a node is. -/
theorem Function.classify_atDepth (s : Source) (above : List Tree) (t : Tree) (depth : Int) :
    classify s above t depth = (classify s above t 0).atDepth depth := by
  cases t with
  | leaf r v => rfl
  | node r kind span items =>
    rw [classify, classify]
    split
    · split <;> rfl
    · split
      · split
        · rfl
        · split <;> rfl
      · rfl

namespace Instrument

variable {o : Options} {s : Source}

/-- The depth has no part in how a body is shifted. -/
theorem unit_atDepth (o : Options) (s : Source) (units : List (List Char)) (d : Definition)
    (depth : Int) :
    (wrapDefinition o s units { d with depth }).unit = (wrapDefinition o s units d).unit := by
  simp only [wrapDefinition, Definition.body]
  cases (d.node.field .body).head? with
  | none => rfl
  | some first =>
    have hempty : Definition.isEmpty { d with depth } = d.isEmpty := rfl
    simp only [hempty]
    split
    · rfl
    · cases d.statements.head? with
      | none => rfl
      | some head =>
        cases d.statements.getLast? with
        | none => rfl
        | some last =>
          simp only
          split <;> rfl

/-- A function that a pass meets. -/
structure Site where
  /-- The nodes above it, innermost first. -/
  above : List Tree
  tree : Tree
  /-- The units by which the bodies around it are shifted, outermost first. -/
  units : List (List Char)

/-- The edits of a function inside functions whose bodies are shifted by the given units. -/
def shapeEdits (o : Options) (s : Source) (units : List (List Char)) : Function.Shape → List Edit
  | .definition d => (wrapDefinition o s units d).edits
  | .lambda l => wrapLambda o s units l
  | .unmatched => []

/-- The edits of a function that is met at a depth. -/
def Site.edits (o : Options) (s : Source) (depth : Int) (site : Site) : List Edit :=
  shapeEdits o s site.units (Function.classify s site.above site.tree depth)

mutual
/-- The functions that a pass meets in a tree. -/
def sites (o : Options) (s : Source) (above : List Tree) (units : List (List Char)) :
    Tree → List Site
  | .node r k span ts =>
    let t : Tree := .node r k span ts
    match Function.classify s above t 0 with
    | .definition d =>
      sitesIn o s (t :: above) units .outsideBody ts ++ ⟨above, t, units⟩ ::
        sitesIn o s (t :: above) (units ++ [(wrapDefinition o s units d).unit]) .body ts
    | .lambda _ =>
      if o.traceLambdas then
        sitesIn o s (t :: above) units .outsideBody ts ++ ⟨above, t, units⟩ ::
          sitesIn o s (t :: above) (units ++ [[]]) .body ts
      else sitesIn o s (t :: above) units .all ts
    | .unmatched => sitesIn o s (t :: above) units .all ts
  | .leaf _ _ => []
/-- The functions that a pass meets in the items that belong to a part of a node. -/
def sitesIn (o : Options) (s : Source) (above : List Tree) (units : List (List Char)) (part : Part) :
    List Tree → List Site
  | [] => []
  | t :: ts =>
    (if part.holds t.role then sites o s above units t else []) ++ sitesIn o s above units part ts
end

/-! ## What is recorded -/

/-- The edits of functions that are met at depths. -/
def editsOf (o : Options) (s : Source) (met : List (Site × Int)) : List Edit :=
  met.flatMap fun m => m.1.edits o s m.2

theorem editsOf_append (met others : List (Site × Int)) :
    editsOf o s (met ++ others) = editsOf o s met ++ editsOf o s others :=
  List.flatMap_append

/-- What a part of a pass adds to what was recorded before. -/
def Adds (o : Options) (s : Source) (before after : Progress) (found : List Site) : Prop :=
  ∃ met : List (Site × Int), met.map Prod.fst = found ∧
    after.recorded = (editsOf o s met).reverse ++ before.recorded ∧
    after.count = before.count + met.length

theorem adds_nil (p : Progress) : Adds o s p p [] := ⟨[], rfl, rfl, rfl⟩

theorem Adds.trans {p q r : Progress} {found others : List Site} (h₁ : Adds o s p q found)
    (h₂ : Adds o s q r others) : Adds o s p r (found ++ others) := by
  obtain ⟨met, rfl, h₁, hcount₁⟩ := h₁
  obtain ⟨more, rfl, h₂, hcount₂⟩ := h₂
  refine ⟨met ++ more, List.map_append, ?_, ?_⟩
  · rw [h₂, h₁, editsOf_append, List.reverse_append, List.append_assoc]
  · rw [hcount₂, hcount₁, List.length_append, Nat.add_assoc]

theorem adds_enter (p : Progress) (site : Site) (depth : Int) {edits : List Edit}
    (h : site.edits o s depth = edits) : Adds o s p (p.enter edits) [site] := by
  refine ⟨[(site, depth)], rfl, ?_, rfl⟩
  rw [editsOf, List.flatMap_singleton, h]
  rfl

theorem Adds.leave {p q : Progress} {found : List Site} (h : Adds o s p q found) :
    Adds o s p q.leave found := h

mutual

theorem visit_sites (o : Options) (s : Source) : ∀ (t : Tree) (above : List Tree)
    (units : List (List Char)) (p : Progress),
    Adds o s p (visit o s above units t p) (sites o s above units t)
  | .leaf r v, above, units, p => by
    rw [visit, sites]
    exact adds_nil p
  | .node r k span ts, above, units, p => by
    have hin := visitItems_sites o s ts
    have hshape := Function.classify_atDepth s above (.node r k span ts) p.counter.depth
    simp only [visit, sites]
    cases hc : Function.classify s above (.node r k span ts) 0 with
    | definition d =>
      rw [hc] at hshape
      simp only [hshape, Function.Shape.atDepth]
      have hunit := unit_atDepth o s units d p.counter.depth
      rw [hunit]
      refine (hin _ _ _ _).trans ?_
      rw [← List.singleton_append]
      refine ((adds_enter _ _ p.counter.depth ?_).trans (hin _ _ _ _)).leave
      rw [Site.edits, hshape]
      rfl
    | lambda l =>
      rw [hc] at hshape
      simp only [hshape, Function.Shape.atDepth]
      split
      · refine (hin _ _ _ _).trans ?_
        rw [← List.singleton_append]
        refine ((adds_enter _ _ p.counter.depth ?_).trans (hin _ _ _ _)).leave
        rw [Site.edits, hshape]
        rfl
      · exact hin _ _ _ _
    | unmatched =>
      rw [hc] at hshape
      simp only [hshape, Function.Shape.atDepth]
      exact hin _ _ _ _

theorem visitItems_sites (o : Options) (s : Source) : ∀ (ts : List Tree) (above : List Tree)
    (units : List (List Char)) (part : Part) (p : Progress),
    Adds o s p (visitItems o s above units part ts p) (sitesIn o s above units part ts)
  | [], above, units, part, p => by
    rw [visitItems, sitesIn]
    exact adds_nil p
  | t :: ts, above, units, part, p => by
    rw [visitItems, sitesIn]
    refine Adds.trans ?_ (visitItems_sites o s ts above units part _)
    split
    · exact visit_sites o s t above units p
    · exact adds_nil p

end

/-- A pass records the edits of the functions that it meets, in the order in which it meets them, and
counts the functions. -/
theorem exists_met (o : Options) (s : Source) : ∃ met : List (Site × Int),
    met.map Prod.fst = sites o s [] [] s.tree ∧ (pass o s).edits = editsOf o s met ∧
      (pass o s).count = met.length := by
  obtain ⟨met, hmet, hrec, hcount⟩ := visit_sites o s s.tree [] [] (.start o)
  refine ⟨met, hmet, ?_, ?_⟩
  · rw [Progress.edits, pass, hrec]
    simp [Progress.start]
  · rw [pass, hcount, Progress.start, Nat.zero_add]

/-! ## The nodes of a tree -/

/-- The last two arguments are a node of the tree that stands below `above`, and the nodes above it. -/
inductive Under : List Tree → Tree → List Tree → Tree → Prop
  | self {above : List Tree} {r : Role} {k : Kind} {span : Option Span} {ts : List Tree} :
      Under above (.node r k span ts) above (.node r k span ts)
  | item {above nodes : List Tree} {r : Role} {k : Kind} {span : Option Span} {ts : List Tree}
      {t u : Tree} : u ∈ ts → Under (.node r k span ts :: above) u nodes t →
      Under above (.node r k span ts) nodes t

theorem mem_joinLevels {α : Type} {x : α} (as bs : List (List α)) :
    x ∈ (Tree.joinLevels as bs).flatten ↔ x ∈ as.flatten ∨ x ∈ bs.flatten := by
  fun_induction Tree.joinLevels as bs with
  | case1 => simp
  | case2 => simp
  | case3 a as b bs ih =>
    simp only [List.flatten_cons, List.mem_append, ih]
    tauto

mutual

theorem mem_levels : ∀ (t : Tree) (above : List Tree) (p : Tree.Placed),
    p ∈ (Tree.levels above t).flatten ↔ Under above t p.above p.tree
  | .leaf r v, above, ⟨u, nodes⟩ => by
    rw [Tree.levels]
    constructor
    · intro h
      simp at h
    · intro h
      cases h
  | .node r k span ts, above, ⟨u, nodes⟩ => by
    rw [Tree.levels, List.flatten_cons, List.mem_append, mem_levelsAll ts]
    constructor
    · rintro (h | ⟨u, hu, h⟩)
      · obtain ⟨rfl, rfl⟩ := Tree.Placed.mk.inj (List.mem_singleton.1 h)
        exact .self
      · exact .item hu h
    · intro h
      cases h with
      | self => exact Or.inl (List.mem_singleton_self _)
      | item hu h => exact Or.inr ⟨_, hu, h⟩

theorem mem_levelsAll : ∀ (ts : List Tree) (above : List Tree) (p : Tree.Placed),
    p ∈ (Tree.levelsAll above ts).flatten ↔ ∃ u ∈ ts, Under above u p.above p.tree
  | [], above, p => by simp [Tree.levelsAll]
  | t :: ts, above, p => by
    rw [Tree.levelsAll, mem_joinLevels, mem_levels t, mem_levelsAll ts]
    simp

end

theorem mem_walk {t : Tree} {p : Tree.Placed} : p ∈ t.walk ↔ Under [] t p.above p.tree :=
  mem_levels t [] p

/-- Whether a pass rewrites what has the shape. -/
def isTraced (o : Options) : Function.Shape → Bool
  | .definition _ => true
  | .lambda _ => o.traceLambdas
  | .unmatched => false

/-- The items of a node are met in one part or another. -/
theorem holds_body_or_outsideBody (r : Role) : Part.outsideBody.holds r = true ∨ Part.body.holds r = true := by
  by_cases h : r = .body <;> simp [Part.holds, h]

mutual

/-- The functions met in a tree are the functions among its nodes. -/
theorem mem_sites (o : Options) (s : Source) : ∀ (t : Tree) (above : List Tree)
    (units : List (List Char)) (nodes : List Tree) (u : Tree),
    (∃ others, (⟨nodes, u, others⟩ : Site) ∈ sites o s above units t) ↔
      Under above t nodes u ∧ isTraced o (Function.classify s nodes u 0) = true
  | .leaf r v, above, units, nodes, u => by
    rw [sites]
    constructor
    · rintro ⟨others, h⟩
      cases h
    · rintro ⟨h, -⟩
      cases h
  | .node r k span ts, above, units, nodes, u => by
    have hin (units : List (List Char)) (part : Part) :=
      exists_mem_sitesIn o s ts (.node r k span ts :: above) units part nodes u
    -- A node is the tree itself or a node of one of its items.
    have hunder : Under above (.node r k span ts) nodes u ↔
        (nodes = above ∧ u = .node r k span ts) ∨
          ∃ t ∈ ts, Under (.node r k span ts :: above) t nodes u := by
      constructor
      · intro h
        cases h with
        | self => exact Or.inl ⟨rfl, rfl⟩
        | item hu h => exact Or.inr ⟨_, hu, h⟩
      · rintro (⟨rfl, rfl⟩ | ⟨t, ht, h⟩)
        · exact .self
        · exact .item ht h
    have hboth (x y : List (List Char)) {z : List (List Char)} :
        (∃ others, (⟨nodes, u, others⟩ : Site) ∈
          sitesIn o s (.node r k span ts :: above) x .outsideBody ts ++
            ⟨above, .node r k span ts, z⟩ :: sitesIn o s (.node r k span ts :: above) y .body ts) ↔
          (nodes = above ∧ u = .node r k span ts) ∨
            ((∃ t ∈ ts, Under (.node r k span ts :: above) t nodes u) ∧
              isTraced o (Function.classify s nodes u 0) = true) := by
      simp only [List.mem_append, List.mem_cons, exists_or, hin, Site.mk.injEq]
      constructor
      · rintro (⟨⟨t, ht, -, h⟩, htraced⟩ | ⟨_, h₁, h₂, -⟩ | ⟨⟨t, ht, -, h⟩, htraced⟩)
        · exact Or.inr ⟨⟨t, ht, h⟩, htraced⟩
        · exact Or.inl ⟨h₁, h₂⟩
        · exact Or.inr ⟨⟨t, ht, h⟩, htraced⟩
      · rintro (⟨h₁, h₂⟩ | ⟨⟨t, ht, h⟩, htraced⟩)
        · exact Or.inr (Or.inl ⟨z, h₁, h₂, rfl⟩)
        · rcases holds_body_or_outsideBody t.role with hr | hr
          · exact Or.inl ⟨⟨t, ht, hr, h⟩, htraced⟩
          · exact Or.inr (Or.inr ⟨⟨t, ht, hr, h⟩, htraced⟩)
    have hall (units : List (List Char)) : (∃ others, (⟨nodes, u, others⟩ : Site) ∈
          sitesIn o s (.node r k span ts :: above) units .all ts) ↔
          (∃ t ∈ ts, Under (.node r k span ts :: above) t nodes u) ∧
            isTraced o (Function.classify s nodes u 0) = true := by
      rw [hin]
      simp [Part.holds]
    simp only [sites]
    rw [hunder]
    cases hc : Function.classify s above (.node r k span ts) 0 with
    | definition d =>
      simp only
      rw [hboth]
      constructor
      · rintro (⟨rfl, rfl⟩ | ⟨h, htraced⟩)
        · exact ⟨Or.inl ⟨rfl, rfl⟩, by rw [hc]; rfl⟩
        · exact ⟨Or.inr h, htraced⟩
      · rintro ⟨h | h, htraced⟩
        · exact Or.inl h
        · exact Or.inr ⟨h, htraced⟩
    | lambda l =>
      simp only
      split
      · rename_i htrace
        rw [hboth]
        constructor
        · rintro (⟨rfl, rfl⟩ | ⟨h, htraced⟩)
          · exact ⟨Or.inl ⟨rfl, rfl⟩, by rw [hc]; exact htrace⟩
          · exact ⟨Or.inr h, htraced⟩
        · rintro ⟨h | h, htraced⟩
          · exact Or.inl h
          · exact Or.inr ⟨h, htraced⟩
      · rename_i htrace
        rw [hall]
        constructor
        · rintro ⟨h, htraced⟩
          exact ⟨Or.inr h, htraced⟩
        · rintro ⟨⟨rfl, rfl⟩ | h, htraced⟩
          · rw [hc] at htraced
            exact absurd htraced htrace
          · exact ⟨h, htraced⟩
    | unmatched =>
      simp only
      rw [hall]
      constructor
      · rintro ⟨h, htraced⟩
        exact ⟨Or.inr h, htraced⟩
      · rintro ⟨⟨rfl, rfl⟩ | h, htraced⟩
        · rw [hc] at htraced
          cases htraced
        · exact ⟨h, htraced⟩

theorem exists_mem_sitesIn (o : Options) (s : Source) : ∀ (ts : List Tree) (above : List Tree)
    (units : List (List Char)) (part : Part) (nodes : List Tree) (u : Tree),
    (∃ others, (⟨nodes, u, others⟩ : Site) ∈ sitesIn o s above units part ts) ↔
      (∃ t ∈ ts, part.holds t.role = true ∧ Under above t nodes u) ∧
        isTraced o (Function.classify s nodes u 0) = true
  | [], above, units, part, nodes, u => by simp [sitesIn]
  | t :: ts, above, units, part, nodes, u => by
    rw [sitesIn]
    simp only [List.mem_append, exists_or, exists_mem_sitesIn o s ts, List.exists_mem_cons_iff, or_and_right]
    refine or_congr_left ?_
    by_cases hr : part.holds t.role = true
    · simp only [hr, if_true, mem_sites o s t, true_and]
    · simp [hr]

end

theorem under_of_mem_sites {x : Site} (hx : x ∈ sites o s [] [] s.tree) : Under [] s.tree x.above x.tree :=
  ((mem_sites o s s.tree [] [] x.above x.tree).1 ⟨_, hx⟩).1

/-- Every edit that a pass records is one of a function that it meets. -/
theorem exists_site {e : Edit} (h : e ∈ (pass o s).edits) :
    ∃ x ∈ sites o s [] [] s.tree, ∃ depth, e ∈ x.edits o s depth := by
  obtain ⟨met, hmet, hedits, -⟩ := exists_met o s
  rw [hedits, editsOf, List.mem_flatMap] at h
  obtain ⟨⟨x, depth⟩, hm, he⟩ := h
  exact ⟨x, hmet ▸ List.mem_map_of_mem (f := Prod.fst) hm, depth, he⟩

end Instrument

end CallTrace
