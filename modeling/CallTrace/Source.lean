import CallTrace.Syntax.Grammar.Run
import CallTrace.Text.LineTable

/-!
# Parsed sources

A source is a text with its line table and its syntax tree.  Parsing refuses a
text that holds a null character before it looks at anything else; otherwise
the text is read with all its line endings written as `\n` and with an ending
on its last line, which moves no line and no column.

The literals that run over several lines are kept apart: the lines that begin
inside one must keep their first character where it is.
-/

namespace CallTrace

open Syntax Text

/-- Why a text is no program. -/
inductive ParseError
  | nullCharacter
  | invalid
  deriving DecidableEq, Repr

/-- What a null character in a text is reported as. -/
def ParseError.nullMessage : List Char :=
  "source code string cannot contain null bytes".toList

/-- A parsed text. -/
structure Source where
  table : LineTable
  tree : Tree
  /-- The pieces of source of the string literals that run over several lines. -/
  literals : List Span

namespace Source

/-- The place of a node that is a constant or a formatted literal on several lines. -/
def literalSpan? (t : Tree) : Option Span :=
  if t.is .constant || t.is .joinedStr then t.span?.filter fun s => s.start.line < s.stop.line
  else none

/-- Parses a text. -/
def parse (text : List Char) : Except ParseError Source :=
  if text.contains '\x00' then .error .nullCharacter
  else match parseLines (terminated (normalizeNewlines text)) with
    | none => .error .invalid
    | some tree =>
      .ok ⟨.ofText text, tree, tree.walk.filterMap fun p => literalSpan? p.tree⟩

/-- Whether a line begins inside a string literal. -/
def beginsInLiteral (s : Source) (n : Nat) : Bool :=
  s.literals.any fun span => span.start.line < n && n ≤ span.stop.line

/-- The lines that begin inside a string literal. -/
def literalLines (s : Source) : List Nat :=
  (List.range (s.table.count + 1)).filter s.beginsInLiteral

/-- The offset where a node begins. -/
def start (s : Source) (t : Tree) : Nat :=
  s.table.offset t.start

/-- The offset where a node ends. -/
def stop (s : Source) (t : Tree) : Nat :=
  s.table.offset t.stop

/-- The text that a node covers. -/
def segment (s : Source) (t : Tree) : List Char :=
  s.table.between (s.start t) (s.stop t)

/-- Whether only blanks stand before a node on its first line. -/
def atLineStart (s : Source) (t : Tree) : Bool :=
  s.table.atLineStart t.start

/-- The line on which a statement begins, its decorators counted. -/
def firstLine (t : Tree) : Nat :=
  (t.field .decorators).foldl (fun n d => min n d.start.line) t.start.line

end Source

end CallTrace
