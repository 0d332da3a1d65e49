import CallTrace.Instrument.Pass
import CallTrace.Log

/-!
# Instrumented texts

A text without functions to trace comes back as it is.  Every other text first
gets an ending on its last line, and is then edited.
-/

namespace CallTrace.Instrument

/-- Why a text cannot be instrumented. -/
inductive RewriteError
  | parse (error : ParseError)
  | overlap (error : Overlap)
  deriving DecidableEq, Repr

/-- A text that was searched for functions. -/
structure Instrumented where
  /-- How many functions were found. -/
  count : Nat
  /-- Whether anything is to be changed. -/
  isChanged : Bool
  /-- The text with the edits made. -/
  result : Except Overlap (List Char)

/-- Searches a text for functions and makes their edits. -/
def instrument (o : Options) (text : List Char) : Except ParseError Instrumented :=
  let full := Text.terminated text
  match Source.parse full with
  | .error e => .error e
  | .ok source =>
    let progress := pass o source
    .ok <|
      if progress.edits.isEmpty then ⟨progress.count, false, .ok text⟩
      else ⟨progress.count, true, Edit.apply full progress.edits⟩

/-- What the log says of a text that was changed; `filename` names it. -/
def Instrumented.logs (i : Instrumented) (filename : List Char) : List LogRecord :=
  if i.isChanged then
    [.debug "tracehook.rewriter".toList
      ("instrumented ".toList ++ Text.decimal i.count ++ " function(s) in ".toList ++ filename)]
  else []

/-- The instrumented text. -/
def rewrite (o : Options) (text : List Char) : Except RewriteError (List Char) :=
  match instrument o text with
  | .error e => .error (.parse e)
  | .ok i => i.result.mapError .overlap

end CallTrace.Instrument
