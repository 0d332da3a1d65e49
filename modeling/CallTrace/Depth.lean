/-!
# Depth

A counter says how deep a function lies.  It is raised on the way into a
function's body and lowered on the way out, so that functions side by side are
equally deep; a monotonic counter is never lowered, so that every function lies
deeper than the one before it.
-/

namespace CallTrace

/-- The depth reached, and whether it only grows. -/
structure DepthCounter where
  monotonic : Bool
  depth : Nat := 0
  deriving DecidableEq, Repr

namespace DepthCounter

/-- Goes one level down. -/
def increase (c : DepthCounter) : DepthCounter :=
  { c with depth := c.depth + 1 }

/-- Comes one level up, but not above the outermost one; a monotonic counter stays. -/
def decrease (c : DepthCounter) : DepthCounter :=
  if c.monotonic then c else { c with depth := c.depth - 1 }

theorem decrease_increase {c : DepthCounter} (h : c.monotonic = false) :
    c.increase.decrease = c := by
  cases c
  simp_all [increase, decrease]

end DepthCounter

end CallTrace
