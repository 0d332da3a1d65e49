import CallTrace.Source
import CallTrace.Text.Slice

/-!
# Questions about a source

The line table can be asked about any whole number.  A line number below one
counts lines from the end where it asks for the place of a line, and names an
empty line where it asks for text; a negative column counts bytes from the end
of the line.  A question without an answer says why.
-/

namespace CallTrace.Source

open Syntax Text

/-- Why a question has no answer. -/
inductive LookupError
  | noSuchLine
  /-- The column falls inside a character. -/
  | insideCharacter
  /-- The node has no place in the text. -/
  | unplaced
  deriving DecidableEq, Repr

/-- The text of a line. -/
def lineAt (s : Source) (n : Int) : List Char :=
  if 0 < n then s.table.line n.toNat else []

/-- Where a line begins. -/
def lineStartAt (s : Source) (n : Int) : Except LookupError Nat :=
  let count : Int := s.table.count
  if count < n then .ok s.table.text.length
  else
    let index := if n - 1 < 0 then n - 1 + count else n - 1
    if index < 0 then .error .noSuchLine
    else match s.table.lines[index.toNat]? with
      | some line => .ok line.start
      | none => .error .noSuchLine

/-- The indentation of a line. -/
def indentAt (s : Source) (n : Int) : List Char :=
  if 0 < n then s.table.indentOf n.toNat else []

/-- Where indentation may be put into a line. -/
def shiftPointAt (s : Source) (n : Int) : Except LookupError Nat :=
  (s.lineStartAt n).map (· + ((s.lineAt n).takeWhile (· = '\x0c')).length)

/-- Whether a line shows nothing. -/
def isBlankAt (s : Source) (n : Int) : Bool :=
  Unicode.allBlank (s.lineAt n)

/-- The offset of a line and a column in bytes. -/
def offsetAt (s : Source) (n column : Int) : Except LookupError Nat :=
  let line := s.lineAt n
  match charsWithin line (place (bytes line) column) with
  | none => .error .insideCharacter
  | some chars => (s.lineStartAt n).map (· + chars)

/-- What a report says about a node. -/
inductive NodeReport
  /-- A node inside a formatted literal, with the nodes above it. -/
  | inLiteral (node : Tree) (above : List Tree)
  | placed (node : Tree) (above : List Tree) (start stop : Nat) (segment : List Char)
      (atLineStart : Bool) (firstLine : Nat)

/-- The report about one node. -/
def reportOn (s : Source) (p : Tree.Placed) : Except LookupError NodeReport :=
  if p.above.any (·.is .joinedStr) then .ok (.inLiteral p.tree p.above)
  else if p.tree.span?.isNone then .error .unplaced
  else .ok (.placed p.tree p.above (s.start p.tree) (s.stop p.tree) (s.segment p.tree)
    (s.atLineStart p.tree) (firstLine p.tree))

/-- The reports about all nodes of the named kinds. -/
def report (s : Source) (kinds : List String) : Except LookupError (List NodeReport) :=
  (s.tree.walk.filter fun p => p.tree.kind?.any fun k => kinds.contains k.name).mapM s.reportOn

end CallTrace.Source
