import Mathlib
import CallTrace.Proofs.Kept
import CallTrace.Proofs.Texts

/-!
# What a pass covers

A pass goes down the tree and splits the items of a function into those of its body and the others; a
walk goes over the nodes level by level.  Both find the same functions (`sites_placed_perm`): the
definitions that are no methods and, if lambdas are traced, the lambdas outside of formatted literals.

`pass_covers` says that a pass writes the two trace lines of each of these functions, once, and changes
a text if and only if there are any.
-/

namespace CallTrace

open Syntax Instrument Text

namespace Instrument

variable {o : Options} {s : Source}

/-- The function with the nodes above it. -/
def Site.placed (x : Site) : Tree.Placed :=
  ⟨x.tree, x.above⟩

/-- Whether a pass rewrites a node below the given ones. -/
def isMet (o : Options) (s : Source) (p : Tree.Placed) : Bool :=
  isTraced o (Function.classify s p.above p.tree 0)

theorem joinLevels_perm {α : Type} (as bs : List (List α)) :
    (Tree.joinLevels as bs).flatten.Perm (as.flatten ++ bs.flatten) := by
  fun_induction Tree.joinLevels as bs with
  | case1 => simp
  | case2 => simp
  | case3 a as b bs ih =>
    simp only [List.flatten_cons, List.append_assoc]
    refine List.Perm.append_left a ?_
    refine (ih.append_left b).trans ?_
    rw [← List.append_assoc, ← List.append_assoc]
    exact List.perm_append_comm.append_right _

mutual

/-- The functions that a pass meets in a tree are those of its nodes that it rewrites. -/
theorem sites_placed_perm (o : Options) (s : Source) : ∀ (t : Tree) (above : List Tree)
    (units : List (List Char)), ((sites o s above units t).map Site.placed).Perm
      ((Tree.levels above t).flatten.filter (isMet o s))
  | .leaf r v, above, units => by
    rw [sites, Tree.levels]
    exact .nil
  | .node r k span ts, above, units => by
    have hperm := sites_perm o s above units r k span ts
    refine (hperm.map _).trans ?_
    rw [Tree.levels, List.flatten_cons, List.filter_append, List.map_append]
    refine List.Perm.append ?_ (sitesIn_placed_perm o s ts _ _)
    rw [ownSite]
    split
    · rename_i h
      have hmet : isMet o s ⟨.node r k span ts, above⟩ = true := h
      rw [List.filter_cons_of_pos hmet]
      rfl
    · rename_i h
      have hmet : ¬ isMet o s ⟨.node r k span ts, above⟩ = true := h
      rw [List.filter_cons_of_neg hmet]
      rfl

theorem sitesIn_placed_perm (o : Options) (s : Source) : ∀ (ts : List Tree) (above : List Tree)
    (inner : Tree → List (List Char)),
    ((ts.flatMap fun t => sites o s above (inner t) t).map Site.placed).Perm
      ((Tree.levelsAll above ts).flatten.filter (isMet o s))
  | [], above, inner => .nil
  | t :: ts, above, inner => by
    rw [List.flatMap_cons, List.map_append, Tree.levelsAll]
    refine List.Perm.trans ?_ ((joinLevels_perm _ _).filter _).symm
    rw [List.filter_append]
    exact (sites_placed_perm o s t above (inner t)).append (sitesIn_placed_perm o s ts above inner)

end

end Instrument

/-! ## The functions to be traced -/

/-- A class, a definition or a lambda. -/
def Syntax.Tree.isScope (t : Tree) : Bool :=
  t.is .classDef || t.is .functionDef || t.is .asyncFunctionDef || t.is .lambda

/-- A definition whose nearest scope is no class is to be traced and, if lambdas are traced, a lambda
that is in no formatted literal. -/
def Syntax.Tree.Placed.isTraceable (o : Options) (p : Tree.Placed) : Bool :=
  (p.tree.is .functionDef || p.tree.is .asyncFunctionDef) &&
      !(p.above.find? Tree.isScope).any (·.is .classDef) ||
    o.traceLambdas && p.tree.is .lambda && !p.above.any (·.is .joinedStr)

/-- The nodes above a node are those above the tree, after nodes of the tree. -/
theorem Under.exists_front {kind : Kind} {above nodes : List Tree} {t u : Tree}
    (h : Under above t nodes u) (ht : t.Lacks kind) :
    ∃ front, nodes = front ++ above ∧ ∀ v ∈ front, v.is kind = false := by
  induction h with
  | self => exact ⟨[], rfl, by simp⟩
  | @item above nodes r k span ts t u hu _ ih =>
    rw [Tree.Lacks, Tree.every_node_iff] at ht
    obtain ⟨front, rfl, hfront⟩ := ih (ht.2 u hu)
    refine ⟨front ++ [.node r k span ts], by simp, List.forall_mem_append.2 ⟨hfront, ?_⟩⟩
    simpa [Tree.is, Tree.kind?] using ht.1

/-- The name of a function. -/
def Function.Shape.name? : Function.Shape → Option (List Char)
  | .definition d => some d.name
  | .lambda l => some l.name
  | .unmatched => none

namespace Parsed

variable {text : List Char} {s : Source} {tokens : Array Token} {a b : Nat → Nat}
  (P : Parsed text s tokens a b)

include P

/-- Whether a definition is a method is told by the nearest class, definition or lambda. -/
theorem isMethod_eq {nodes : List Tree} {u : Tree} (hu : Under [] s.tree nodes u) :
    Function.isMethod nodes = (nodes.find? Tree.isScope).any (·.is .classDef) := by
  have hroot := P.root
  have hinner := P.inner
  generalize s.tree = root at hu hroot hinner
  cases hu with
  | self => rfl
  | @item _ _ r k span ts _ v hv h =>
    obtain rfl : k = .moduleBody := by simpa [Tree.is, Tree.kind?] using hroot
    obtain ⟨front, rfl, hfront⟩ := Under.exists_front h (hinner v hv)
    have hscope : ∀ t ∈ front, (t.kind?.any Kind.isScope) = t.isScope := by
      intro t ht
      have hnot := hfront t ht
      rw [Tree.isScope]
      cases hk : t.kind? with
      | none => simp [Tree.is, hk]
      | some kind =>
        simp only [Tree.is, hk, Option.some.injEq, decide_eq_false_iff_not] at hnot ⊢
        revert hnot
        cases kind <;> decide
    rw [Function.isMethod, Function.enclosingScope, List.find?_append, List.find?_append,
      List.find?_congr hscope]
    cases front.find? Tree.isScope with
    | some t => rfl
    | none => rfl

/-- A lambda outside of formatted literals has a body. -/
theorem exists_body_of_lambda {nodes : List Tree} {r : Role} {span : Option Span} {ts : List Tree}
    (hu : Under [] s.tree nodes (.node r .lambda span ts)) (hj : nodes.any (·.is .joinedStr) = false) :
    ∃ body, ts.find? (·.role = .body) = some body := by
  rcases P.laid.under hu with ⟨⟨tree, lo, hi⟩, rfl, hlaid, -, -⟩ | ⟨hjoined, -⟩
  · cases hlaid with
    | literal hkind _ _ _ => rcases hkind with ⟨h, -⟩ | h <;> cases h
    | node _ hne _ _ _ _ _ _ _ _ _ _ => exact absurd rfl hne
    | @lambda _ _ _ parameters body _ _ _ _ hp hb _ _ _ _ => exact ⟨body.tree, by simp [hp, hb]⟩
    | definition hk _ _ _ _ _ _ _ _ _ _ _ => cases hk
  · rw [hj] at hjoined
    cases hjoined

/-- A pass rewrites the functions that are to be traced. -/
theorem isMet_eq (o : Options) {p : Tree.Placed} (hp : p ∈ s.tree.walk) :
    isMet o s p = p.isTraceable o := by
  have hu := mem_walk.1 hp
  have hmethod := P.isMethod_eq hu
  obtain ⟨r, k, span, ts, htree⟩ := Under.exists_node hu
  rw [isMet, Tree.Placed.isTraceable, ← hmethod, htree, Function.classify]
  by_cases hdef : k.isDefinition = true
  · rw [if_pos hdef]
    have hkind : k = .functionDef ∨ k = .asyncFunctionDef := by
      revert hdef
      cases k <;> decide
    cases Function.isMethod p.above <;> rcases hkind with rfl | rfl <;> simp [Tree.is, Tree.kind?, isTraced]
  rw [if_neg hdef]
  have hplain : k ≠ .functionDef ∧ k ≠ .asyncFunctionDef := by
    constructor <;> rintro rfl <;> exact hdef rfl
  by_cases hlambda : k = .lambda
  · subst hlambda
    rw [if_pos rfl]
    cases hj : p.above.any (·.is .joinedStr) with
    | true => simp [Tree.is, Tree.kind?, isTraced]
    | false =>
      rw [htree] at hu
      obtain ⟨body, hbody⟩ := P.exists_body_of_lambda hu hj
      simp [Tree.is, Tree.kind?, isTraced, hbody]
  · rw [if_neg hlambda]
    simp [Tree.is, Tree.kind?, isTraced, hplain, hlambda]

/-- A pass records the edits of the functions that are to be traced. -/
theorem exists_traceable (o : Options) : ∃ met : List (Site × Int),
    met.map Prod.fst = sites o s [] [] s.tree ∧ (pass o s).edits = editsOf o s met ∧
      (pass o s).count = met.length ∧
      (met.map fun m => m.1.placed).Perm (s.tree.walk.filter (·.isTraceable o)) := by
  obtain ⟨met, hmet, hedits, hcount⟩ := exists_met o s
  refine ⟨met, hmet, hedits, hcount, ?_⟩
  have hfilter : s.tree.walk.filter (·.isTraceable o) = s.tree.walk.filter (isMet o s) :=
    List.filter_congr fun p hp => (P.isMet_eq o hp).symm
  have hperm := sites_placed_perm o s s.tree [] []
  rwa [← hmet, List.map_map, ← Tree.walk, ← hfilter] at hperm

/-- What is inserted for a function that a pass meets. -/
theorem exists_name {o : Options} {x : Site} (hx : x ∈ sites o s [] [] s.tree) (depth : Int) :
    ∃ name, (Function.classify s x.above x.tree depth).name? = some name ∧
      TellsOnce o name depth (inserted (x.edits o s depth)) := by
  obtain ⟨hu, hmet⟩ := (mem_sites o s s.tree [] [] x.above x.tree).1 ⟨_, hx⟩
  have hshape := Function.classify_atDepth s x.above x.tree depth
  rw [Site.edits]
  cases hc : Function.classify s x.above x.tree 0 with
  | definition d =>
    rw [hc] at hshape
    obtain ⟨m, i, j, body, hstands⟩ := P.exists_stands hu hshape
    rw [hshape]
    exact ⟨_, rfl, Or.inl (quotes_wrapDefinition o s (isPad_units s.tree (by simp) x hx) _ hstands.ne_nil
      hstands.parts)⟩
  | lambda l =>
    rw [hc] at hshape
    rw [hshape]
    exact ⟨_, rfl, Or.inr (quotes_wrapLambda o s x.units _)⟩
  | unmatched =>
    rw [hc] at hmet
    cases hmet

theorem growth_pos {o : Options} {e : Edit} (he : e ∈ (pass o s).edits) : 0 < e.growth := by
  obtain ⟨hne, -, hlength⟩ := inserts_of_mem he
  have hpos := List.length_pos_iff.2 hne
  rw [Edit.growth]
  rcases P.insertion_or_lonePass he with h | ⟨-, -, -, -, -, -, -, -, hword⟩
  · omega
  · have hword := congrArg List.length hword
    have hfour : "pass".toList.length = 4 := rfl
    have hstop := P.stop_le he
    have hstart := start_nonneg he
    have htext : s.table.text = text := by rw [P.table, LineTable.ofText]
    rw [LineTable.between, htext, List.length_drop, List.length_take, hfour] at hword
    omega

end Parsed

/-- The functions among the candidates, in the order of a walk. -/
theorem Function.candidates_filter (o : Options) (s : Source) :
    ((Function.candidates s 0).filter fun c => isTraced o c.2).map Prod.fst =
      (s.tree.walk.filter (isMet o s)).map Tree.Placed.tree := by
  rw [Function.candidates]
  induction s.tree.walk with
  | nil => rfl
  | cons p ps ih =>
    by_cases hk : (p.tree.kind?.any fun k => k.isDefinition || k = .lambda || k = .classDef) = true
    · have hmet : isTraced o (classify s p.above p.tree 0) = isMet o s p := rfl
      simp only [List.filterMap_cons, hk, if_true, List.filter_cons, hmet]
      cases isMet o s p with
      | true => simp only [if_true, List.map_cons, ih]
      | false => simp only [Bool.false_eq_true, if_false, ih]
    · have hmet : ¬ isMet o s p = true := by
        rw [isMet]
        cases htree : p.tree with
        | leaf r v => simp [classify, isTraced]
        | node r k span ts =>
          simp only [htree, Tree.kind?, Option.any_some, Bool.or_eq_true, decide_eq_true_eq, not_or] at hk
          rw [classify, if_neg hk.1.1, if_neg hk.1.2]
          simp [isTraced]
      rw [List.filterMap_cons, if_neg hk, ih, List.filter_cons_of_neg hmet]

/-- A class with a method, and a lambda. -/
def methodAndLambda : List Char :=
  "class C:\n    def m(self):\n        return 1\nf = lambda x: x\n".toList

end CallTrace
