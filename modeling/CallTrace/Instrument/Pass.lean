import CallTrace.Depth
import CallTrace.Instrument.Layout

/-!
# The pass over a tree

One traversal from the top down finds the functions and collects their edits.
Decorators, defaults and annotations are visited before the edits of their
function are recorded, and its body after that, one level deeper: they run
outside of it.
-/

namespace CallTrace.Instrument

open Syntax

/-- What a pass has come to. -/
structure Progress where
  counter : DepthCounter
  /-- The edits recorded, last first. -/
  recorded : List Edit
  /-- How many functions were found. -/
  count : Nat

namespace Progress

def start (o : Options) : Progress :=
  ⟨{ monotonic := o.monotonicDepth }, [], 0⟩

/-- The edits in the order in which they were recorded. -/
def edits (p : Progress) : List Edit :=
  p.recorded.reverse

/-- Records the edits of a function and goes down into its body. -/
def enter (p : Progress) (edits : List Edit) : Progress :=
  ⟨p.counter.increase, edits.reverse ++ p.recorded, p.count + 1⟩

/-- Comes up from a function's body. -/
def leave (p : Progress) : Progress :=
  { p with counter := p.counter.decrease }

end Progress

/-- A part of a node's items. -/
inductive Part
  | all
  | body
  | outsideBody
  deriving DecidableEq, Repr

/-- Whether an item in the given role belongs to the part. -/
def Part.holds : Part → Role → Bool
  | .all, _ => true
  | .body, r => r = .body
  | .outsideBody, r => r ≠ .body

mutual
/-- Visits a tree below the given nodes, inside functions whose bodies are shifted by `units`,
outermost first. -/
def visit (o : Options) (s : Source) (above : List Tree) (units : List (List Char)) :
    Tree → Progress → Progress
  | .node r k span ts, p =>
    let t : Syntax.Tree := .node r k span ts
    match Function.classify s above t p.counter.depth with
    | .definition d =>
      let p := visitItems o s (t :: above) units .outsideBody ts p
      let wrapping := wrapDefinition o s units d
      let p := p.enter wrapping.edits
      (visitItems o s (t :: above) (units ++ [wrapping.unit]) .body ts p).leave
    | .lambda l =>
      if o.traceLambdas then
        let p := visitItems o s (t :: above) units .outsideBody ts p
        let p := p.enter (wrapLambda o s units l)
        (visitItems o s (t :: above) (units ++ [[]]) .body ts p).leave
      else visitItems o s (t :: above) units .all ts p
    | .unmatched => visitItems o s (t :: above) units .all ts p
  | .leaf _ _, p => p
/-- Visits the items of a node that belong to a part of it. -/
def visitItems (o : Options) (s : Source) (above : List Tree) (units : List (List Char))
    (part : Part) : List Tree → Progress → Progress
  | [], p => p
  | t :: ts, p =>
    visitItems o s above units part ts
      (if part.holds t.role then visit o s above units t p else p)
end

/-- The pass over a whole source. -/
def pass (o : Options) (s : Source) : Progress :=
  visit o s [] [] s.tree (.start o)

end CallTrace.Instrument
