import CallTrace.Syntax.Kind
import CallTrace.Syntax.Numeral
import CallTrace.Syntax.Position

/-!
# Syntax trees

A tree is a node with the items it holds, or a leaf with a value that is no
node: a name, a constant, an operator.  Every item carries the role that it
plays in the node above it, so a node needs one list of items for all its
fields.  The items stand in the order of the kind's fields; where a field holds
several, they keep the order of the text.

`Tree.walk` visits the nodes level by level, each with the nodes above it.
-/

namespace CallTrace.Syntax

/-- What an operator does. -/
inductive Operation
  | add | subtract | multiply | matrixMultiply | divide | modulo | power | shiftLeft | shiftRight
  | bitOr | bitXor | bitAnd | floorDivide | both | either | invert | negate | plus | minus
  | equal | notEqual | less | lessEqual | greater | greaterEqual | same | notSame | inside
  | notInside
  deriving DecidableEq, Repr

/-- An item that is no node. -/
inductive Leaf
  /-- A name in its normal form. -/
  | word (text : List Char)
  /-- The place of an item that the source leaves out. -/
  | absent
  /-- The value of a text literal by code points, and whether it is marked as Unicode. -/
  | text (codes : List Nat) (marked : Bool)
  | bytes (values : List Nat)
  | number (value : Numeral)
  | truth (value : Bool)
  | nothing
  | ellipsis
  | operation (meaning : Operation)
  /-- A small number or flag that belongs to the node above. -/
  | count (n : Nat)
  deriving DecidableEq, Repr

/-- A piece of syntax in the role that it plays in the node above it. -/
inductive Tree
  | node (role : Role) (kind : Kind) (span : Option Span) (items : List Tree)
  | leaf (role : Role) (value : Leaf)
  deriving Repr

namespace Tree

def role : Tree → Role
  | node r _ _ _ => r
  | leaf r _ => r

def kind? : Tree → Option Kind
  | node _ k _ _ => some k
  | leaf _ _ => none

def span? : Tree → Option Span
  | node _ _ s _ => s
  | leaf _ _ => none

def items : Tree → List Tree
  | node _ _ _ ts => ts
  | leaf _ _ => []

/-- Whether the tree is a node of the given kind. -/
def is (t : Tree) (k : Kind) : Bool :=
  t.kind? = some k

/-- Where the node begins; a node without a place counts as beginning the text. -/
def start (t : Tree) : Position :=
  t.span?.elim .origin Span.start

/-- Where the node ends. -/
def stop (t : Tree) : Position :=
  t.span?.elim .origin Span.stop

/-- The items that play a role in the node. -/
def field (t : Tree) (r : Role) : List Tree :=
  t.items.filter (·.role = r)

/-- The first item that plays a role in the node. -/
def item? (t : Tree) (r : Role) : Option Tree :=
  t.items.find? (·.role = r)

/-- The word that plays a role in the node. -/
def word? (t : Tree) (r : Role) : Option (List Char) :=
  match t.item? r with
  | some (leaf _ (.word text)) => some text
  | _ => none

/-- Gives a role to a tree that has none. -/
def assume (r : Role) : Tree → Tree
  | node .unset k s ts => node r k s ts
  | leaf .unset v => leaf r v
  | t => t

/-- Puts an item before the first of a list whose role ranks higher. -/
def insertByRank (k : Kind) (t : Tree) : List Tree → List Tree
  | [] => [t]
  | u :: rest => if k.rank t.role ≤ k.rank u.role then t :: u :: rest else u :: insertByRank k t rest

/-- The items in the order of the kind's fields. -/
def arrange (k : Kind) : List Tree → List Tree
  | [] => []
  | t :: rest => insertByRank k t (arrange k rest)

/-- A node without a role yet, over the given piece of source. -/
def make (k : Kind) (s : Span) (ts : List Tree) : Tree :=
  node .unset k (if k.isPlaced then some s else none) (arrange k ts)

/-- Adds items to a node. -/
def extend (extra : List Tree) : Tree → Tree
  | node r k s ts => node r k s (arrange k (extra ++ ts))
  | leaf r v => leaf r v

mutual
/-- Gives every placed node of the tree one place. -/
def relocate (s : Span) : Tree → Tree
  | node r k place ts => node r k (place.map fun _ => s) (relocateAll s ts)
  | leaf r v => leaf r v
/-- Gives every placed node of the trees one place. -/
def relocateAll (s : Span) : List Tree → List Tree
  | [] => []
  | t :: ts => relocate s t :: relocateAll s ts
end

/-! ## Walks -/

/-- A node with the nodes above it, innermost first. -/
structure Placed where
  tree : Tree
  above : List Tree

/-- Joins two lists of levels level by level. -/
def joinLevels : List (List α) → List (List α) → List (List α)
  | [], bs => bs
  | as, [] => as
  | a :: as, b :: bs => (a ++ b) :: joinLevels as bs

mutual
/-- The nodes of a tree by their distance from the root. -/
def levels (above : List Tree) : Tree → List (List Placed)
  | node r k s ts => [⟨node r k s ts, above⟩] :: levelsAll (node r k s ts :: above) ts
  | leaf _ _ => []
/-- The nodes of some trees by their distance from the roots. -/
def levelsAll (above : List Tree) : List Tree → List (List Placed)
  | [] => []
  | t :: ts => joinLevels (levels above t) (levelsAll above ts)
end

/-- The nodes of a tree, outer levels first, from left to right within a level. -/
def walk (t : Tree) : List Placed :=
  (levels [] t).flatten

end Tree

end CallTrace.Syntax
