import CallTrace.Edit
import CallTrace.Function
import CallTrace.Instrument.Options
import CallTrace.Text.Quoted

/-!
# Where the trace statements go

A traced definition tells that it is entered, runs its statements in a `try`,
and tells in the `finally` that it is left.  How that is written depends on how
the body stands in the text:

* a body that does nothing is replaced by the two telling statements, or has
  them put after its docstring;
* a body on the header's line, or after the docstring's, goes to a line of its
  own under `try`, behind one unit of indentation;
* a body on lines of its own is indented by one more unit, line by line, except
  for blank lines and lines that begin inside a string literal.

A traced lambda has its body wrapped in calls.

All edits refer to the text as it is.  At one offset, closing texts come first,
those of inner functions before those of outer ones, then opening texts, outer
ones first, then indentation.
-/

namespace CallTrace.Instrument

open Syntax

/-- The expression by which traced code reaches the functions that write trace lines. -/
def runtime : List Char := "__import__('tracehook.runtime').runtime".toList

/-- The order of the text that closes a function, at a level of nesting. -/
def closing (level : Nat) : List Int := [0, -(level : Int)]

/-- The order of the text that opens a function, at a level of nesting. -/
def opening (level : Nat) : List Int := [1, level]

/-- The order of indentation. -/
def shifting : List Int := [2, 0]

/-- An edit that only inserts. -/
def insertion (offset : Nat) (text : List Char) (order : List Int) : Edit :=
  ⟨offset, offset, text, order⟩

/-- The statement that writes a trace line. -/
def emission (line : List Char) : List Char :=
  runtime ++ ".emit(".toList ++ Text.quote line ++ [')']

/-- How the body of a definition is indented, and by what more. -/
structure Indentation where
  /-- The indentation of the body. -/
  indent : List Char
  /-- What is added to it. -/
  unit : List Char
  deriving DecidableEq, Repr

/-- A tab where the indentation has tabs, four spaces elsewhere. -/
def usualUnit (indent : List Char) : List Char :=
  if indent.contains '\t' then ['\t'] else [' ', ' ', ' ', ' ']

/-- The indentation of a body whose first statement is given: that of its line, or one unit more than
the header's where it shares the header's line. -/
def bodyIndentation (s : Source) (node first : Tree) : Indentation :=
  let header := s.table.indentOf node.start.line
  if !s.atLineStart first then
    let unit := usualUnit header
    ⟨header ++ unit, unit⟩
  else
    let indent := s.table.indentOf (Source.firstLine first)
    if header.isPrefixOf indent && header.length < indent.length then
      ⟨indent, indent.drop header.length⟩
    else ⟨indent, usualUnit indent⟩

/-- The edits for a function, and the unit by which the lines of its body are shifted. -/
structure Wrapping where
  edits : List Edit
  unit : List Char

/-- The edits that indent the lines from `start` to `stop` by a unit. -/
def shifts (s : Source) (unit : List Char) (start stop : Nat) : List Edit :=
  ((List.range' start (stop + 1 - start)).filter fun n =>
    !s.beginsInLiteral n && !s.table.isBlank n).map fun n =>
      insertion (s.table.shiftPoint n) unit shifting

/-- The edits for a definition inside functions whose bodies are shifted by the given units. -/
def wrapDefinition (o : Options) (s : Source) (units : List (List Char)) (d : Definition) :
    Wrapping :=
  match d.body.head? with
  | none => ⟨[], []⟩
  | some first =>
    let level := units.length
    let inline := !s.atLineStart first
    let ⟨indent, unit⟩ := bodyIndentation s d.node first
    let pad := units.flatten ++ indent
    let enter := emission (o.entering d.name d.depth)
    let leave := emission (o.leaving d.name d.depth)
    let newLine := '\n' :: pad
    let docstringEdits :=
      match d.docstring with
      | some doc => if inline then [insertion (s.start doc) newLine (opening level)] else []
      | none => []
    if d.isEmpty then
      let bodyEdit :=
        match d.statements, d.docstring with
        | stmt :: _, _ =>
          let lead := if s.atLineStart stmt then [] else newLine
          [⟨s.start stmt, s.stop stmt, lead ++ enter ++ newLine ++ leave, opening level⟩]
        | [], some doc => [insertion (s.stop doc) (newLine ++ enter ++ newLine ++ leave) (opening level)]
        | [], none => []
      ⟨docstringEdits ++ bodyEdit, []⟩
    else
      match d.statements.head?, d.statements.getLast? with
      | some head, some last =>
        if !s.atLineStart head then
          ⟨docstringEdits ++
            [insertion (s.start head)
               (newLine ++ enter ++ newLine ++ "try:".toList ++ newLine ++ unit) (opening level),
             insertion (s.stop last)
               (newLine ++ "finally:".toList ++ newLine ++ unit ++ leave) (closing level)], []⟩
        else
          let startLine := Source.firstLine head
          let stopLine := last.stop.line
          ⟨docstringEdits ++
            insertion (s.table.lineStart startLine)
              (pad ++ enter ++ newLine ++ "try:\n".toList) (opening level) ::
            (shifts s unit startLine stopLine ++
             [insertion (s.table.lineStart (stopLine + 1))
               (pad ++ "finally:".toList ++ newLine ++ unit ++ leave ++ ['\n']) (closing level)]),
           unit⟩
      | _, _ => ⟨docstringEdits, []⟩

/-- The edits for a lambda inside functions whose bodies are shifted by the given units. -/
def wrapLambda (o : Options) (s : Source) (units : List (List Char)) (l : BoundLambda) :
    List Edit :=
  let level := units.length
  let enter := Text.quote (o.entering l.name l.depth)
  let leave := Text.quote (o.leaving l.name l.depth)
  [insertion (s.start l.body)
     (runtime ++ ".emit_through(".toList ++ leave ++ ", (".toList ++ runtime ++ ".emit(".toList ++
       enter ++ "), (".toList) (opening level),
   insertion (s.stop l.body) "))[1])".toList (closing level)]

end CallTrace.Instrument
