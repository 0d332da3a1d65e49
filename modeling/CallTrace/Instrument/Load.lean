import CallTrace.Encoding
import CallTrace.Instrument.Rewrite

/-!
# Instrumenting what is loaded

A module comes as the octets of a file, or as a text; octets are decoded first.
-/

namespace CallTrace.Instrument

/-- What a module is loaded from. -/
inductive Content
  | octets (file : List UInt8)
  | plain (text : List Char)

/-- Why a module cannot be loaded. -/
inductive LoadError
  | decode (error : DecodeError)
  | rewrite (error : RewriteError)
  deriving DecidableEq, Repr

/-- The text of a module as it is written. -/
def Content.decoded : Content → Except DecodeError (List Char)
  | .octets file => Encoding.moduleText file
  | .plain text => .ok text

/-- The instrumented text, with what the log says of it; `filename` names the text there. -/
def rewriteLogged (o : Options) (filename text : List Char) :
    Except RewriteError (List Char × List LogRecord) :=
  match instrument o text with
  | .error e => .error (.parse e)
  | .ok i =>
    match i.result with
    | .error e => .error (.overlap e)
    | .ok rewritten => .ok (rewritten, i.logs filename)

/-- The text that is compiled in place of a module's own, with what the log says of it. -/
def loadLogged (o : Options) (filename : List Char) (content : Content) :
    Except LoadError (List Char × List LogRecord) :=
  match content.decoded with
  | .error e => .error (.decode e)
  | .ok text => (rewriteLogged o filename text).mapError .rewrite

/-- The text that is compiled in place of a module's own. -/
def load (o : Options) (content : Content) : Except LoadError (List Char) :=
  match content.decoded with
  | .error e => .error (.decode e)
  | .ok text => (rewrite o text).mapError .rewrite

/-- Without the log, the text is the instrumented one. -/
theorem rewriteLogged_fst (o : Options) (filename text : List Char) :
    (rewriteLogged o filename text).map (·.1) = rewrite o text := by
  unfold rewriteLogged rewrite
  cases instrument o text with
  | error e => rfl
  | ok i =>
    simp only
    cases i.result with
    | error e => rfl
    | ok rewritten => rfl

end CallTrace.Instrument
