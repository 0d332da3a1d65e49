import CallTrace.Syntax.Grammar.Phrase

/-!
# Conditions on trees

Some phrases read more than the language allows in their place, an expression
for a target of an assignment, say; the tree then tells whether it may stand
there.  A display of targets is fit when each of its items is.
-/

namespace CallTrace.Syntax

namespace Kind

/-- A name, an attribute or a subscript. -/
def isSingleTarget (k : Kind) : Bool :=
  k = .nameExpr || k = .attributeOf || k = .subscript

/-- A display whose items may be targets. -/
def isTargetDisplay (k : Kind) : Bool :=
  k = .tupleDisplay || k = .listDisplay

end Kind

namespace Tree

mutual
/-- Whether an assignment may bind the tree. -/
def isAssignable : Tree → Bool
  | node _ k _ ts => k.isSingleTarget || ((k.isTargetDisplay || k = .starred) && allAssignable ts)
  | leaf _ _ => false
def allAssignable : List Tree → Bool
  | [] => true
  | t :: ts => isAssignable t && allAssignable ts
end

mutual
/-- Whether a deletion may name the tree. -/
def isDeletable : Tree → Bool
  | node _ k _ ts => k.isSingleTarget || (k.isTargetDisplay && allDeletable ts)
  | leaf _ _ => false
def allDeletable : List Tree → Bool
  | [] => true
  | t :: ts => isDeletable t && allDeletable ts
end

/-- The number that a constant holds. -/
def numeral? (t : Tree) : Option Numeral :=
  match t.item? .value with
  | some (leaf _ (.number n)) => some n
  | _ => none

end Tree

/-- Whether a tree meets a condition. -/
def Check.holds : Check → Tree → Bool
  | .assignable, t => t.isAssignable
  | .single, t => t.kind?.any Kind.isSingleTarget
  | .deletable, t => t.isDeletable
  | .realNumber, t => t.numeral?.any (!·.isImaginary)
  | .imaginaryNumber, t => t.numeral?.any (·.isImaginary)

end CallTrace.Syntax
