import CallTrace.Number.Shortest
import CallTrace.Text.Quoted

/-!
# Values

The plain data that functions are called with and that trace lines are made of.
`describe` writes a value so that texts are told from other values; `shown`
writes a text as it is.
-/

namespace CallTrace

/-- A piece of plain data. -/
inductive Value
  | nothing
  | truth (b : Bool)
  | integer (i : Int)
  | real (r : Binary64)
  | text (s : List Char)
  | list (items : List Value)
  /-- Keys and what stands under them, in their order. -/
  | table (entries : List (List Char × Value))
  deriving Inhabited

namespace Value

/-- Whether a value counts as true: nothing, zeros and empty values do not. -/
def isTruthy : Value → Bool
  | .nothing => false
  | .truth b => b
  | .integer i => i != 0
  | .real r => r.isNonzero
  | .text s => !s.isEmpty
  | .list items => !items.isEmpty
  | .table entries => !entries.isEmpty

/-- The name of a value's type. -/
def typeName : Value → String
  | .nothing => "NoneType"
  | .truth _ => "bool"
  | .integer _ => "int"
  | .real _ => "float"
  | .text _ => "str"
  | .list _ => "list"
  | .table _ => "dict"

/-- Whether a value can be looked up as a key. -/
def isKey : Value → Bool
  | .list _ | .table _ => false
  | _ => true

/-- Texts with a comma and a blank between them. -/
def separated : List (List Char) → List Char
  | [] => []
  | [s] => s
  | s :: rest => s ++ ',' :: ' ' :: separated rest

mutual
/-- A value as it is written in a program. -/
def describe : Value → List Char
  | .nothing => "None".toList
  | .truth b => if b then "True".toList else "False".toList
  | .integer i => Text.decimalInt i
  | .real r => r.text
  | .text s => Text.quote s
  | .list items => '[' :: (separated (describeItems items) ++ [']'])
  | .table entries => '\x7b' :: (separated (describeEntries entries) ++ ['\x7d'])
/-- The items of a list, each as it is written. -/
def describeItems : List Value → List (List Char)
  | [] => []
  | v :: rest => describe v :: describeItems rest
/-- The entries of a table, each as it is written. -/
def describeEntries : List (List Char × Value) → List (List Char)
  | [] => []
  | (k, v) :: rest => (Text.quote k ++ ':' :: ' ' :: describe v) :: describeEntries rest
end

/-- A value as it is printed. -/
def shown : Value → List Char
  | .text s => s
  | v => v.describe

/-- The text that a value is, if it is one and holds something. -/
def name? : Value → Option (List Char)
  | .text [] => none
  | .text s => some s
  | _ => none

theorem name?_eq_some_iff {v : Value} {s : List Char} : v.name? = some s ↔ v = .text s ∧ s ≠ [] := by
  unfold name?
  split <;> simp_all
  rintro rfl
  assumption

end Value

end CallTrace
