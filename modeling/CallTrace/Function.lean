import CallTrace.Source
import CallTrace.Unicode.Word

/-!
# Functions that can be traced

A function is a definition by a statement, which has a name, or a lambda, whose
name is that of the one target it is bound to.  A definition directly in the
body of a class is a method and is left alone, and so is a lambda inside a
formatted literal, whose text cannot be edited.

The name of a definition is the word after `def` in the text of its header; a
header in which that word cannot be made out, because a line break stands
before it, say, gives its name by the tree.
-/

namespace CallTrace

open Syntax

/-- A definition with the pieces that tracing it needs. -/
structure Definition where
  node : Tree
  name : List Char
  depth : Int
  /-- The text from `def` or `async` to the first statement of the body. -/
  header : List Char
  /-- The text of the body. -/
  bodyText : List Char
  docstring : Option Tree
  /-- The statements after the docstring. -/
  statements : List Tree

/-- A lambda with the name it is bound to. -/
structure BoundLambda where
  node : Tree
  name : List Char
  depth : Int
  body : Tree

/-- What a node is to the tracer. -/
inductive Function.Shape
  | definition (d : Definition)
  | lambda (l : BoundLambda)
  | unmatched

namespace Definition

/-- The statements of the body. -/
def body (d : Definition) : List Tree :=
  d.node.field .body

/-- Whether the body does nothing. -/
def isEmpty (d : Definition) : Bool :=
  match d.statements with
  | [] => true
  | [t] => t.is .passStmt
  | _ => false

end Definition

namespace Function

/-- What is left of a text after a word and at least one blank. -/
def afterWord (word text : List Char) : Option (List Char) :=
  let rest := text.drop word.length
  if word.isPrefixOf text && rest.head?.any Unicode.isBlank then some (rest.dropWhile Unicode.isBlank)
  else none

/-- The word after `def` in a header. -/
def writtenName (header : List Char) : Option (List Char) :=
  let rest := (afterWord ['a', 's', 'y', 'n', 'c'] header).getD header
  (afterWord ['d', 'e', 'f'] rest).bind fun name =>
    let word := name.takeWhile Unicode.isWord
    if word.isEmpty then none else some word

/-- Whether a statement is a text that stands alone. -/
def isDocstring (t : Tree) : Bool :=
  t.is .exprStmt && (t.item? .value).any fun value =>
    value.is .constant && value.items.any fun
      | .leaf .value (.text _ _) => true
      | _ => false

/-- The name of a tree that is a name. -/
def targetName (t : Tree) : Option (List Char) :=
  if t.is .nameExpr then t.word? .name else none

/-- The name that a lambda is bound to by the node above it. -/
def bindingName (above : List Tree) (t : Tree) : List Char :=
  match above with
  | parent :: _ =>
    if t.role ≠ .value then []
    else if parent.is .assign then
      match parent.field .targets with
      | [target] => (targetName target).getD []
      | _ => []
    else if parent.is .annAssign || parent.is .namedExpr then
      ((parent.item? .target).bind targetName).getD []
    else []
  | [] => []

/-- The nearest node above that is a scope. -/
def enclosingScope (above : List Tree) : Option Tree :=
  above.find? fun t => t.kind?.any Kind.isScope

/-- Whether a definition below the given nodes is a method. -/
def isMethod (above : List Tree) : Bool :=
  (enclosingScope above).any (·.is .classDef)

/-- The pieces of a definition. -/
def definitionOf (s : Source) (t : Tree) (depth : Int) : Definition :=
  let body := t.field .body
  let bodyStart := (body.head?.map s.start).getD (s.stop t)
  let bodyStop := (body.getLast?.map s.stop).getD (s.stop t)
  let header := s.table.between (s.start t) bodyStart
  let docstring := body.head?.filter isDocstring
  { node := t
    name := (writtenName header).getD ((t.word? .name).getD [])
    depth
    header
    bodyText := s.table.between bodyStart bodyStop
    docstring
    statements := if docstring.isSome then body.drop 1 else body }

/-- What a node below the given nodes is to the tracer. -/
def classify (s : Source) (above : List Tree) (t : Tree) (depth : Int) : Shape :=
  match t with
  | .node _ kind _ items =>
    if kind.isDefinition then
      if isMethod above then .unmatched else .definition (definitionOf s t depth)
    else if kind = .lambda then
      if above.any (·.is .joinedStr) then .unmatched
      else match items.find? (·.role = .body) with
        | some body => .lambda ⟨t, bindingName above t, depth, body⟩
        | none => .unmatched
    else .unmatched
  | .leaf _ _ => .unmatched

/-- The nodes of a source that are functions or classes, each with its shape. -/
def candidates (s : Source) (depth : Int) : List (Tree × Shape) :=
  s.tree.walk.filterMap fun p =>
    if p.tree.kind?.any fun k => k.isDefinition || k = .lambda || k = .classDef then
      some (p.tree, classify s p.above p.tree depth)
    else none

end Function

end CallTrace
