import CallTrace.Tracer.World

/-!
# What functions do

A function that is called ends, or it emits a line or performs an operation on
the tracer and goes on from there.  How it goes on depends on what came of that
and on the world by then, so a function may keep a state, catch a failure or pass
it on.  A `Setting` holds all functions, and the sink that lines are written to.
-/

namespace CallTrace.Tracer

/-- An operation on a tracer. -/
inductive Step
  /-- A new tracer, on which each function is traced under its own name. -/
  | construct (functions : List Reference)
  /-- Registers a function and runs it at once. -/
  | createTrace (name : Value) (function : Reference)
  | register (name : Value) (function : Reference) (before after : Option Reference)
  | invoke (name : Value) (arguments : Arguments)
  | contains (name : Value)
  | size
  | descriptor (name : Value)

/-- What a function does. -/
inductive Program
  | finish (outcome : Except Failure Value)
  | emit (line : Value) (next : Except Failure Unit → World → Program)
  | perform (s : Step) (next : Except Failure Result → World → Program)

/-- The functions and the sink. -/
structure Setting where
  namings : Namings
  /-- What a function does when it is called. -/
  behaviour : List Char → Input → World → Program
  /-- What comes of writing a line. -/
  sink : Value → World → Except Failure Unit

/-- What a function does that does one thing after the other. -/
inductive Action
  | emit (line : Value)
  | step (s : Step)
  | raise (kind : Raised) (message : Value)
  | giveBack (v : Value)
  | giveArguments

/-- Does one thing after the other.  What comes of an operation is left aside; a line that cannot be
written ends it. -/
def Program.ofActions (input : Input) : List Action → Program
  | [] => .finish (.ok .nothing)
  | .emit line :: rest => .emit line fun written _ =>
    match written with
    | .ok _ => ofActions input rest
    | .error e => .finish (.error e)
  | .step s :: rest => .perform s fun _ _ => ofActions input rest
  | .raise kind message :: _ => .finish (.error (.raised kind message.shown))
  | .giveBack v :: _ => .finish (.ok v)
  | .giveArguments :: _ => .finish (.ok input.toValue)

/-- A function that can be traced. -/
structure Callable where
  naming : Naming
  actions : List Action

/-- The functions by their identifiers. -/
abbrev Functions := List (List Char × Callable)

/-- How the functions are named. -/
def Functions.namings (functions : Functions) : Namings :=
  fun id => (functions.lookup id).map (·.naming)

/-- The functions, and a sink on which every line can be written. -/
def Functions.setting (functions : Functions) : Setting where
  namings := functions.namings
  behaviour id input _ := .ofActions input ((functions.lookup id).elim [] (·.actions))
  sink _ _ := .ok ()

end CallTrace.Tracer
