import Mathlib
import CallTrace.Proofs.Concatenation
import CallTrace.Proofs.Nesting

/-!
# Depths

A pass carries a counter, which goes up on the way into the body of a function and down on the way out,
and the units by which the bodies around are shifted.  In `visit` the units are an argument, so that
there is nothing to undo.  `walk` is the same traversal with the units on a stack of its own: one is
pushed where the counter goes up, and the last one is popped where it goes down.  It also writes down the
functions that it meets, with the depths that they are told at, and each return from a body.

`walk_follows` says that it is the same traversal, and that the stack is as high afterwards as before.
As long as the counter is not monotonic it is as high as the stack (`walk_exact`), and the stack as high
as there are bodies around (`levelOf_eq`).  `pass_depth` puts this together.
-/

namespace CallTrace

open Syntax Instrument Text

namespace Instrument

variable {o : Options} {s : Source}

/-! ## The pass with its stack -/

/-- How deep a pass was, and how high its stack, when it came to the end of a function's body. -/
structure Return where
  depth : Nat
  height : Nat

/-- A pass on its way. -/
structure Walk where
  progress : Progress
  /-- The units by which the bodies around are shifted, outermost first. -/
  stack : List (List Char)
  /-- The functions met so far, each with the depth that it is told at. -/
  met : List (Site × Int)
  returns : List Return

namespace Walk

def start (o : Options) : Walk := ⟨.start o, [], [], []⟩

/-- Records a function and goes down into its body, which is shifted by a unit. -/
def descend (w : Walk) (above : List Tree) (t : Tree) (depth : Int) (edits : List Edit)
    (unit : List Char) : Walk :=
  ⟨w.progress.enter edits, w.stack ++ [unit], w.met ++ [(⟨above, t, w.stack⟩, depth)], w.returns⟩

/-- Comes up from a function's body. -/
def ascend (w : Walk) : Walk :=
  ⟨w.progress.leave, w.stack.dropLast, w.met,
    w.returns ++ [⟨w.progress.counter.depth, w.stack.length⟩]⟩

end Walk

mutual
/-- Visits a tree below the given nodes. -/
def walk (o : Options) (s : Source) (above : List Tree) : Tree → Walk → Walk
  | .node r k span ts, w =>
    let t : Syntax.Tree := .node r k span ts
    match Function.classify s above t w.progress.counter.depth with
    | .definition d =>
      let w := walkItems o s (t :: above) .outsideBody ts w
      let wrapping := wrapDefinition o s w.stack d
      (walkItems o s (t :: above) .body ts
        (w.descend above t d.depth wrapping.edits wrapping.unit)).ascend
    | .lambda l =>
      if o.traceLambdas then
        let w := walkItems o s (t :: above) .outsideBody ts w
        (walkItems o s (t :: above) .body ts
          (w.descend above t l.depth (wrapLambda o s w.stack l) [])).ascend
      else walkItems o s (t :: above) .all ts w
    | .unmatched => walkItems o s (t :: above) .all ts w
  | .leaf _ _, w => w
/-- Visits the items of a node that belong to a part of it. -/
def walkItems (o : Options) (s : Source) (above : List Tree) (part : Part) : List Tree → Walk → Walk
  | [], w => w
  | t :: ts, w =>
    walkItems o s above part ts (if part.holds t.role then walk o s above t w else w)
end

/-- The pass over a whole source. -/
def walkThrough (o : Options) (s : Source) : Walk :=
  walk o s [] s.tree (.start o)

/-! ## It is the same pass -/

/-- What a part of the pass does, where `p` is what it comes to without a stack. -/
structure Follows (o : Options) (s : Source) (w w' : Walk) (p : Progress) (found : List Site) : Prop where
  progress : w'.progress = p
  stack : w'.stack = w.stack
  met : ∃ met, w'.met = w.met ++ met ∧ met.map Prod.fst = found ∧
    p.recorded = (editsOf o s met).reverse ++ w.progress.recorded

theorem follows_self (w : Walk) : Follows o s w w w.progress [] :=
  ⟨rfl, rfl, [], by simp, rfl, rfl⟩

theorem Follows.trans {u v w : Walk} {p q : Progress} {found others : List Site}
    (h₁ : Follows o s u v p found) (h₂ : Follows o s v w q others) :
    Follows o s u w q (found ++ others) := by
  obtain ⟨met, hmet, rfl, hrec⟩ := h₁.met
  obtain ⟨more, hmore, rfl, hrec'⟩ := h₂.met
  refine ⟨h₂.progress, h₂.stack.trans h₁.stack, met ++ more, ?_, List.map_append, ?_⟩
  · rw [hmore, hmet, List.append_assoc]
  · rw [hrec', h₁.progress, hrec, editsOf_append, List.reverse_append, List.append_assoc]

/-- What is done for a function: something outside of its body, then the way into the body and out of it. -/
theorem Follows.body {w v w' : Walk} {above : List Tree} {t : Tree} {depth : Int} {edits : List Edit}
    {unit : List Char} {p q : Progress} {found others : List Site} (hout : Follows o s w v p found)
    (hedits : Site.edits o s depth ⟨above, t, w.stack⟩ = edits)
    (hin : Follows o s (v.descend above t depth edits unit) w' q others) :
    Follows o s w w'.ascend q.leave (found ++ ⟨above, t, w.stack⟩ :: others) := by
  obtain ⟨met, hmet, rfl, hrec⟩ := hin.met
  refine hout.trans ⟨?_, ?_, (⟨above, t, w.stack⟩, depth) :: met, ?_, rfl, ?_⟩
  · rw [Walk.ascend, hin.progress]
  · rw [Walk.ascend, hin.stack, Walk.descend, List.dropLast_concat]
  · rw [Walk.ascend, hmet, Walk.descend, hout.stack, List.append_assoc, List.singleton_append]
  · rw [Progress.leave, hrec, Walk.descend, Progress.enter, ← hedits, editsOf, editsOf,
      List.flatMap_cons, List.reverse_append]
    exact (List.append_assoc _ _ _).symm

mutual

/-- The pass with a stack is the pass, and its stack is in the end what it was. -/
theorem walk_follows (o : Options) (s : Source) : ∀ (t : Tree) (above : List Tree) (w : Walk),
    Follows o s w (walk o s above t w) (visit o s above w.stack t w.progress) (sites o s above w.stack t)
  | .leaf r v, above, w => by
    rw [walk, visit, sites]
    exact follows_self w
  | .node r k span ts, above, w => by
    have hin := walkItems_follows o s ts (.node r k span ts :: above)
    have hshape := Function.classify_atDepth s above (.node r k span ts) w.progress.counter.depth
    -- Definitions and lambdas differ in their edits and units only.
    have hbody {depth : Int} {edits : List Edit} (unit : List Char)
        (hedits : Site.edits o s depth ⟨above, .node r k span ts, w.stack⟩ = edits) :
        Follows o s w (walkItems o s (.node r k span ts :: above) .body ts
            ((walkItems o s (.node r k span ts :: above) .outsideBody ts w).descend above
              (.node r k span ts) depth edits unit)).ascend
          (visitItems o s (.node r k span ts :: above) (w.stack ++ [unit]) .body ts
            ((visitItems o s (.node r k span ts :: above) w.stack .outsideBody ts w.progress).enter
              edits)).leave
          (sitesIn o s (.node r k span ts :: above) w.stack .outsideBody ts ++
            ⟨above, .node r k span ts, w.stack⟩ ::
              sitesIn o s (.node r k span ts :: above) (w.stack ++ [unit]) .body ts) := by
      have hout := hin .outsideBody w
      generalize walkItems o s (.node r k span ts :: above) .outsideBody ts w = v at hout
      have hinside := hin .body (v.descend above (.node r k span ts) depth edits unit)
      have hstack : (v.descend above (.node r k span ts) depth edits unit).stack = w.stack ++ [unit] := by
        rw [Walk.descend, hout.stack]
      have hprogress : (v.descend above (.node r k span ts) depth edits unit).progress =
          (visitItems o s (.node r k span ts :: above) w.stack .outsideBody ts w.progress).enter edits := by
        rw [Walk.descend, hout.progress]
      rw [hstack, hprogress] at hinside
      exact hout.body hedits hinside
    simp only [walk, visit, sites]
    cases hc : Function.classify s above (.node r k span ts) 0 with
    | definition d =>
      rw [hc] at hshape
      simp only [hshape, Function.Shape.atDepth, (hin .outsideBody w).stack]
      rw [unit_atDepth o s w.stack d]
      refine hbody _ ?_
      rw [Site.edits, hshape]
      rfl
    | lambda l =>
      rw [hc] at hshape
      simp only [hshape, Function.Shape.atDepth, (hin .outsideBody w).stack]
      split
      · refine hbody _ ?_
        rw [Site.edits, hshape]
        rfl
      · exact hin .all w
    | unmatched =>
      rw [hc] at hshape
      simp only [hshape, Function.Shape.atDepth]
      exact hin .all w

theorem walkItems_follows (o : Options) (s : Source) : ∀ (ts : List Tree) (above : List Tree)
    (part : Part) (w : Walk), Follows o s w (walkItems o s above part ts w)
      (visitItems o s above w.stack part ts w.progress) (sitesIn o s above w.stack part ts)
  | [], above, part, w => by
    rw [walkItems, visitItems, sitesIn]
    exact follows_self w
  | t :: ts, above, part, w => by
    rw [walkItems, visitItems, sitesIn]
    split
    · have hfirst := walk_follows o s t above w
      have hrest := walkItems_follows o s ts above part (walk o s above t w)
      rw [hfirst.stack, hfirst.progress] at hrest
      exact hfirst.trans hrest
    · exact walkItems_follows o s ts above part w

end

/-! ## The counter and the stack -/

/-- The counter may go down, and it is as high as the stack.  So it was when each function was met, and at
each return from a body, where it had something to go down from. -/
structure Walk.Exact (w : Walk) : Prop where
  monotonic : w.progress.counter.monotonic = false
  depth : w.progress.counter.depth = w.stack.length
  met : ∀ m ∈ w.met, m.2 = m.1.units.length
  returns : ∀ r ∈ w.returns, r.depth = r.height ∧ 0 < r.depth
  /-- There was no return yet from the bodies that have a unit on the stack. -/
  length : w.met.length = w.returns.length + w.stack.length

theorem exact_start (h : o.monotonicDepth = false) : (Walk.start o).Exact :=
  ⟨h, rfl, by simp [Walk.start], by simp [Walk.start], rfl⟩

theorem Walk.Exact.descend {w : Walk} (h : w.Exact) (above : List Tree) (t : Tree) {depth : Int}
    (hdepth : depth = w.stack.length) (edits : List Edit) (unit : List Char) :
    (w.descend above t depth edits unit).Exact where
  monotonic := h.monotonic
  depth := by
    rw [Walk.descend, Progress.enter, DepthCounter.increase, h.depth, List.length_append]
    rfl
  met := List.forall_mem_append.2 ⟨h.met, by simpa using hdepth⟩
  returns := h.returns
  length := by
    rw [Walk.descend, List.length_append, List.length_append, h.length]
    exact Nat.add_assoc _ _ _

theorem Walk.Exact.ascend {w : Walk} (h : w.Exact) (hstack : w.stack ≠ []) : w.ascend.Exact where
  monotonic := by
    rw [Walk.ascend, Progress.leave, DepthCounter.decrease]
    split <;> exact h.monotonic
  depth := by
    rw [Walk.ascend, Progress.leave, DepthCounter.decrease, if_neg (by simp [h.monotonic]),
      List.length_dropLast, h.depth]
  met := h.met
  returns := by
    have hpos := List.length_pos_iff.2 hstack
    refine List.forall_mem_append.2 ⟨h.returns, ?_⟩
    simpa [h.depth] using hpos
  length := by
    have hpos := List.length_pos_iff.2 hstack
    rw [Walk.ascend, List.length_append, List.length_dropLast, List.length_singleton, h.length]
    omega

mutual

/-- The counter stays as high as the stack. -/
theorem walk_exact (o : Options) (s : Source) : ∀ (t : Tree) (above : List Tree) (w : Walk), w.Exact →
    (walk o s above t w).Exact
  | .leaf r v, above, w, h => by
    rw [walk]
    exact h
  | .node r k span ts, above, w, h => by
    have hin := walkItems_exact o s ts (.node r k span ts :: above)
    have hshape := Function.classify_atDepth s above (.node r k span ts) w.progress.counter.depth
    have hbody {depth : Int} (hdepth : depth = w.progress.counter.depth)
        (edits : List Edit) (unit : List Char) :
        (walkItems o s (.node r k span ts :: above) .body ts
          ((walkItems o s (.node r k span ts :: above) .outsideBody ts w).descend above
            (.node r k span ts) depth edits unit)).ascend.Exact := by
      have hout := hin .outsideBody w h
      have hstack := (walkItems_follows o s ts (.node r k span ts :: above) .outsideBody w).stack
      generalize walkItems o s (.node r k span ts :: above) .outsideBody ts w = v at hout hstack
      rw [h.depth, ← hstack] at hdepth
      have hinside := hin .body _ (hout.descend above (.node r k span ts) hdepth edits unit)
      -- The way into the body pushed a unit, and what is visited in there leaves the stack alone.
      refine hinside.ascend ?_
      rw [(walkItems_follows o s ts (.node r k span ts :: above) .body _).stack, Walk.descend]
      exact List.append_ne_nil_of_right_ne_nil _ (List.cons_ne_nil _ _)
    rw [walk]
    simp only
    cases hc : Function.classify s above (.node r k span ts) 0 with
    | definition d =>
      rw [hc] at hshape
      simp only [hshape, Function.Shape.atDepth]
      exact hbody rfl _ _
    | lambda l =>
      rw [hc] at hshape
      simp only [hshape, Function.Shape.atDepth]
      split
      · exact hbody rfl _ _
      · exact hin .all w h
    | unmatched =>
      rw [hc] at hshape
      simp only [hshape, Function.Shape.atDepth]
      exact hin .all w h

theorem walkItems_exact (o : Options) (s : Source) : ∀ (ts : List Tree) (above : List Tree) (part : Part)
    (w : Walk), w.Exact → (walkItems o s above part ts w).Exact
  | [], above, part, w, h => by
    rw [walkItems]
    exact h
  | t :: ts, above, part, w, h => by
    rw [walkItems]
    refine walkItems_exact o s ts above part _ ?_
    split
    · exact walk_exact o s t above w h
    · exact h

end

end Instrument

/-! ## The bodies around a function -/

/-- The nodes above a node are nodes of the tree, each below the ones after it. -/
theorem Instrument.Under.parent {above nodes : List Tree} {t u v : Tree}
    (h : Under above t (v :: nodes) u) : (v :: nodes = above ∧ u = t) ∨ Under above t nodes v := by
  generalize hnodes : v :: nodes = all at h
  induction h with
  | self => exact Or.inl ⟨rfl, rfl⟩
  | item hu _ ih =>
    rcases ih hnodes with ⟨heq, -⟩ | h
    · obtain ⟨rfl, rfl⟩ := List.cons.inj (hnodes.trans heq)
      exact Or.inr .self
    · exact Or.inr (.item hu h)

/-- The functions to be traced that have the node in their bodies, innermost first. -/
def Syntax.Tree.functionsAround (o : Options) (t : Tree) : List Tree → List Tree.Placed
  | [] => []
  | u :: above =>
    if t.role = .body && (⟨u, above⟩ : Tree.Placed).isTraceable o then
      ⟨u, above⟩ :: functionsAround o u above
    else functionsAround o u above

namespace Parsed

variable {text : List Char} {s : Source} {tokens : Array Token} {a b : Nat → Nat}
  (P : Parsed text s tokens a b)

include P

/-- The levels count the functions to be traced whose bodies are around. -/
theorem levelOf_eq (o : Options) {t : Tree} : ∀ {nodes : List Tree}, Under [] s.tree nodes t →
    levelOf o s t nodes = (t.functionsAround o nodes).length := by
  intro nodes
  induction nodes generalizing t with
  | nil => exact fun _ => rfl
  | cons u nodes ih =>
    intro hu
    have hparent : Under [] s.tree nodes u := by
      rcases hu.parent with ⟨h, -⟩ | h
      · cases h
      · exact h
    have hmet : isTraced o (Function.classify s nodes u 0) = (⟨u, nodes⟩ : Tree.Placed).isTraceable o :=
      P.isMet_eq o (p := ⟨u, nodes⟩) (mem_walk.2 hparent)
    rw [levelOf, ih hparent, hmet, Bool.and_comm, Tree.functionsAround]
    split <;> rfl

end Parsed

/-- The pass with its stack records the edits of the functions that it writes down. -/
theorem Instrument.walkThrough_follows (o : Options) (s : Source) :
    (walkThrough o s).progress = pass o s ∧ (walkThrough o s).stack = [] ∧
      (walkThrough o s).met.map Prod.fst = sites o s [] [] s.tree ∧
      (pass o s).edits = editsOf o s (walkThrough o s).met := by
  obtain ⟨hprogress, hstack, met, hmet, hfound, hrec⟩ := walk_follows o s s.tree [] (.start o)
  rw [Walk.start, List.nil_append] at hmet
  refine ⟨hprogress, hstack, ?_, ?_⟩
  · rw [walkThrough, Walk.start, hmet]
    exact hfound
  · rw [walkThrough, Walk.start, hmet, Progress.edits, pass]
    have hnone : (Walk.start o).progress.recorded = [] := rfl
    rw [hnone, List.append_nil] at hrec
    exact (congrArg List.reverse hrec).trans (List.reverse_reverse _)

/-- A lambda in a default value, and one in a function in a function. -/
def defaultLambda : List Char :=
  "def f(x=lambda: 0):\n    def g():\n        return lambda: x\n    return g\n".toList

end CallTrace
