import CallTrace.Log
import CallTrace.Value

/-!
# Emission of trace lines

Trace lines go to the current sink; where none was set, one that writes to the
standard error is put in its place.  A sink may itself emit lines or set the
sink, and go on from what comes of that, so emissions could nest: while a sink
writes a line that was emitted, a guard is up, and whatever is emitted then is
dropped.  The guard comes down again also when the sink fails.

A line may also be written on a sink directly.  That is no emission, so the
guard stays as it is, and what the sink emits is emitted.

The history tells of every emission, of every write with its end, and of every
sink that was set.
-/

namespace CallTrace.Emission

/-- The stream that a sink was given. -/
inductive Stream
  /-- A stream in memory, which may count as false.  Sinks that share it know it by a name; a stream that
  is a sink's own goes by the sink's identifier. -/
  | given (name : Option (List Char)) (isFalsy : Bool)
  /-- No stream. -/
  | absent
  deriving DecidableEq, Repr

/-- A stream of the sink's own. -/
def Stream.memory : Stream := .given none false

/-- A stream of the sink's own that counts as false. -/
def Stream.falsy : Stream := .given none true

/-- The logger of trace lines. -/
def baseLogger : List Char := "tracehook.trace".toList

/-- The logger of a name below the logger of trace lines. -/
def namedLogger (name : List Char) : List Char := baseLogger ++ '.' :: name

/-- The level of lines that are logged without one. -/
def usualLevel : Value := .integer LogRecord.debugLevel

/-- The sink that lines go to. -/
inductive Current
  | unset
  /-- The one that was put in place of none. -/
  | usual
  | given (id : List Char)
  deriving DecidableEq, Repr

/-- Why writing fails. -/
inductive Failure
  | raised (message : List Char)
  | invalidLevel
  deriving DecidableEq, Repr

/-- What a failure is reported as. -/
def Failure.message : Failure → List Char
  | .raised message => message
  | .invalidLevel => "level must be an integer".toList

/-- What a sink leaves behind. -/
inductive Trail
  | line (sink : List Char) (v : Value)
  /-- The value that came back from an emission. -/
  | through (sink : List Char) (v : Value)

/-- An entry of the history. -/
inductive Deed
  | emission (line : Value)
  /-- A sink begins to write a line. -/
  | write (target : Current) (line : Value)
  /-- The sink that began last is done. -/
  | written
  | set (id : Option (List Char))

/-- The current sink, the guard, and what was written. -/
structure State where
  current : Current
  isWriting : Bool
  trail : List Trail
  standardError : List Char
  /-- The content of each stream in memory. -/
  streams : List (List Char × List Char)
  logs : List LogRecord
  history : List Deed

/-- What an operation comes to. -/
abbrev Outcome (α : Type) := Except Failure α × State

/-- What a sink does with a line.  How it goes on depends on what came of an action and on the state by
then. -/
inductive Program
  | finish (outcome : Except Failure Unit)
  | leave (t : Trail) (next : State → Program)
  | emit (line : Value) (next : Except Failure Unit → State → Program)
  /-- Emits a line, and the value comes back. -/
  | emitThrough (line value : Value) (next : Except Failure Value → State → Program)
  /-- Sets the sink, and the one before comes back. -/
  | setSink (id : Option (List Char)) (next : Current → State → Program)

/-- Where lines are written. -/
inductive Sink
  /-- A sink that does something with its identifier and the line. -/
  | program (write : List Char → Value → State → Program)
  | stream (target : Stream)
  /-- A logger by its name, and the level of every line. -/
  | logging (logger : List Char) (level : Value)

/-- What a sink does that does one thing after the other. -/
inductive SinkAction
  | record
  /-- Emits the line behind a lead. -/
  | emit (lead : List Char)
  /-- Emits a line and records the value that comes back. -/
  | emitThrough (line value : Value)
  | setSink (id : Option (List Char))
  | raise (message : Value)

/-- Does one thing after the other with a line.  A failure of an emission ends it. -/
def Program.ofActions (id : List Char) (line : Value) : List SinkAction → Program
  | [] => .finish (.ok ())
  | .record :: rest => .leave (.line id line) fun _ => ofActions id line rest
  | .emit lead :: rest => .emit (.text (lead ++ line.shown)) fun outcome _ =>
    match outcome with
    | .ok _ => ofActions id line rest
    | .error e => .finish (.error e)
  | .emitThrough other value :: rest => .emitThrough other value fun outcome _ =>
    match outcome with
    | .ok v => .leave (.through id v) fun _ => ofActions id line rest
    | .error e => .finish (.error e)
  | .setSink other :: rest => .setSink other fun _ _ => ofActions id line rest
  | .raise message :: _ => .finish (.error (.raised message.shown))

/-- A sink that does one thing after the other. -/
def Sink.script (actions : List SinkAction) : Sink :=
  .program fun id line _ => .ofActions id line actions

/-- The stream in memory that a sink was given. -/
def Sink.streamName? (id : List Char) : Sink → Option (List Char)
  | .stream (.given name _) => some (name.getD id)
  | _ => none

/-- The sinks by their identifiers. -/
abbrev Sinks := List (List Char × Sink)

/-- The sink that a line goes to: the usual one where none was set. -/
def Current.resolved : Current → Current
  | .unset => .usual
  | current => current

/-- What is current once a sink was set, or none. -/
def Current.of (id : Option (List Char)) : Current := id.elim .unset .given

namespace State

/-- Nothing is set or written yet. -/
def start (sinks : Sinks) : State :=
  ⟨.unset, false, [], [],
   (sinks.filterMap fun (id, sink) => sink.streamName? id).eraseDups.map fun name => (name, []),
   [], []⟩

/-- Forgets what was written, but not the content of the streams and the history. -/
def fresh (s : State) : State := { s with trail := [], standardError := [], logs := [] }

/-- Puts the usual sink in place of none. -/
def resolved (s : State) : State :=
  { s with current := s.current.resolved }

/-- Adds an entry to the history. -/
def note (s : State) (e : Deed) : State := { s with history := s.history ++ [e] }

/-- Appends to a stream in memory. -/
def append (s : State) (name text : List Char) : State :=
  { s with streams := s.streams.map fun (k, content) =>
      (k, if k = name then content ++ text else content) }

/-- Appends to the standard error. -/
def complain (s : State) (text : List Char) : State :=
  { s with standardError := s.standardError ++ text }

end State

/-- A line as it is written on a stream. -/
def printed (line : Value) : List Char := line.shown ++ ['\n']

/-- Writes a line on a stream: one that is absent or counts as false stands for the standard error. -/
def writeStream (id : List Char) (line : Value) (s : State) : Stream → State
  | .given name isFalsy =>
    if isFalsy then s.complain (printed line) else s.append (name.getD id) (printed line)
  | .absent => s.complain (printed line)

/-- The number of a level, if it is one. -/
def levelNumber? : Value → Option Int
  | .integer i => some i
  | .truth b => some (if b then 1 else 0)
  | _ => none

/-- Logs a line at a level, if the level is positive and reaches the threshold. -/
def writeLog (threshold : Int) (logger : List Char) (line : Value) (s : State) (level : Value) :
    Outcome Unit :=
  match levelNumber? level with
  | none => (.error .invalidLevel, s)
  | some n =>
    if 0 < n ∧ threshold ≤ n then
      (.ok (), { s with logs := s.logs ++ [⟨n.toNat, logger, line.shown⟩] })
    else (.ok (), s)

/-- Sets the sink. -/
def setSink (s : State) (id : Option (List Char)) : State :=
  { s.note (.set id) with current := .of id }

/-- A way to emit lines. -/
abbrev Emitter := Value → State → Outcome Unit

/-- Emits a line and gives a value back. -/
def emitThrough (emit : Emitter) (line value : Value) (s : State) : Outcome Value :=
  let (outcome, s) := emit line s
  (outcome.map fun _ => value, s)

/-- Does what a sink does; `emit` is how it emits lines. -/
def act (emit : Emitter) : Program → State → Outcome Unit
  | .finish outcome, s => (outcome, s)
  | .leave t next, s =>
    let s := { s with trail := s.trail ++ [t] }
    act emit (next s) s
  | .emit line next, s =>
    let (outcome, s) := emit line s
    act emit (next outcome s) s
  | .emitThrough line value next, s =>
    let (outcome, s) := emitThrough emit line value s
    act emit (next outcome s) s
  | .setSink id next, s =>
    let previous := s.current
    let s := setSink s id
    act emit (next previous s) s

/-- Writes a line on a sink. -/
def writeOn (threshold : Int) (emit : Emitter) (id : List Char) (line : Value) (s : State) :
    Sink → Outcome Unit
  | .program write => act emit (write id line s) s
  | .stream target => (.ok (), writeStream id line s target)
  | .logging logger level => writeLog threshold logger line s level

/-- The sink that is current, with its identifier. -/
def currentSink (sinks : Sinks) : Current → List Char × Sink
  | .given id => (id, (sinks.lookup id).getD (.stream .absent))
  | .unset | .usual => ([], .stream .absent)

/-- Has a sink write a line. -/
def write (sinks : Sinks) (threshold : Int) (emit : Emitter) (target : Current) (line : Value)
    (s : State) : Outcome Unit :=
  let (id, sink) := currentSink sinks target
  let (outcome, s) := writeOn threshold emit id line (s.note (.write target line)) sink
  (outcome, s.note .written)

/-- Emits a line; `emit` is how the sink emits lines meanwhile. -/
def emitWith (sinks : Sinks) (threshold : Int) (emit : Emitter) : Emitter := fun line s =>
  let s := s.note (.emission line)
  if s.isWriting then (.ok (), s)
  else
    let s := s.resolved
    let (outcome, s) := write sinks threshold emit s.current line { s with isWriting := true }
    (outcome, { s with isWriting := false })

/-- Emits a line while another one is being written: the guard drops it. -/
def emitWithin (sinks : Sinks) (threshold : Int) : Emitter :=
  emitWith sinks threshold fun _ s => (.ok (), s)

/-- Emits a line.  No deeper than this do emissions nest. -/
def emit (sinks : Sinks) (threshold : Int) : Emitter :=
  emitWith sinks threshold (emitWithin sinks threshold)

/-- An operation on the emission of lines. -/
inductive Step
  | setSink (id : Option (List Char))
  | getSink
  | emit (line : Value)
  | emitThrough (line value : Value)
  /-- Writes on a sink directly. -/
  | write (id : List Char) (line : Value)

/-- What an operation gives. -/
inductive Result
  | sink (current : Current)
  | plain (v : Value)

/-- Performs an operation. -/
def perform (sinks : Sinks) (threshold : Int) (s : State) : Step → Outcome Result
  | .setSink id => (.ok (.sink s.current), setSink s id)
  | .getSink => (.ok (.sink s.resolved.current), s.resolved)
  | .emit line =>
    let (outcome, s) := emit sinks threshold line s
    (outcome.map fun _ => .plain .nothing, s)
  | .emitThrough line value =>
    let (outcome, s) := emitThrough (emit sinks threshold) line value s
    (outcome.map .plain, s)
  | .write id line =>
    let (outcome, s) := write sinks threshold (emit sinks threshold) (.given id) line s
    (outcome.map fun _ => .plain .nothing, s)

/-- Performs one operation after the other, whatever comes of them. -/
def runAll (sinks : Sinks) (threshold : Int) (steps : List Step) (s : State) : State :=
  steps.foldl (fun s step => (perform sinks threshold s step).2) s

end CallTrace.Emission
