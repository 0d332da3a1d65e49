import CallTrace.Tracer.Program

/-!
# Running a tracer

A traced function runs between its hooks: the one before it, then, if that went
well, the function and in any case the one after it, whose failure counts for
more than the function's own.  Functions and hooks may perform further operations
on the tracer, so that operations nest; what happens is recorded in order.

A new tracer takes the place of the current one only when all its functions have
run; until then the operations that these functions perform go to the current
one.
-/

namespace CallTrace.Tracer

/-- What calling a function comes to. -/
abbrev Call := List Char → Input → World → Except Failure Value × World

/-- The line of the usual hook before a function. -/
def beforeLine : List Char := "before".toList

/-- The line of the usual hook after a function. -/
def afterLine : List Char := "after".toList

/-- The answer to an invalid name. -/
def invalidNameAnswer : List Char := "function name must be a non-empty string".toList

/-- Calls what was passed where a function is expected. -/
def callReference (call : Call) (input : Input) (w : World) :
    Reference → Except Failure Value × World
  | .function id => call id input w
  | .plain v => (.error (.calledPlain v), w)

namespace Setting

variable (σ : Setting) (call : Call)

/-- Emits a line. -/
def emit (line : Value) (w : World) : Except Failure Unit × World :=
  let w := w.record (.line line)
  (σ.sink line w, w)

/-- Runs a hook; `usualLine` is the line of the usual one. -/
def runHook (usualLine : List Char) (d : Descriptor) (w : World) :
    Hook → Except Failure Unit × World
  | .usual => σ.emit (.text usualLine) w
  | .given r =>
    let (outcome, w) := callReference call (.descriptor d) w r
    (outcome.map fun _ => (), w)

/-- Runs a traced function between its hooks. -/
def bracket (d : Descriptor) (a : Arguments) (w : World) : Except Failure Value × World :=
  match σ.runHook call beforeLine d w d.before with
  | (.error e, w) => (.error e, w)
  | (.ok _, w) =>
    let (outcome, w) := callReference call (.arguments a) w d.original
    match σ.runHook call afterLine d w d.after with
    | (.error e, w) => (.error e, w)
    | (.ok _, w) => (outcome, w)

/-- Registers a function on a tracer. -/
def registerOn (i : Nat) (name : Value) (function : Reference) (before after : Option Reference)
    (w : World) : Except Failure Bool × World :=
  match (w.tracer i).accept σ.namings name function before after with
  | .error e => (.error e, w)
  | .ok none => (.ok false, w.log (takenNotice ((name.name?).getD [])))
  | .ok (some d) => (.ok true, w.put i d)

/-- Runs what stands under a name of a tracer. -/
def invokeOn (i : Nat) (name : Value) (a : Arguments) (w : World) : Except Failure Value × World :=
  match (w.tracer i).lookup name with
  | .error e => (.error e, w)
  | .ok none => (.error (.notTraced name), w)
  | .ok (some d) => σ.bracket call d a w

/-- Registers a function on a tracer and, if that put it in, runs it at once. -/
def createTraceOn (i : Nat) (name : Value) (function : Reference) (w : World) :
    Except Failure Value × World :=
  match name.name? with
  | none => (.ok (.text invalidNameAnswer), w)
  | some s =>
    if function.isCallable then
      match σ.registerOn i name function none none w with
      | (.error e, w) => (.error e, w)
      | (.ok false, w) => (.ok .nothing, w)
      | (.ok true, w) =>
        let (outcome, w) := σ.invokeOn call i name ⟨[], []⟩ (w.note (.traced i s))
        (outcome.map fun _ => .nothing, w)
    else (.ok .nothing, w.log (notCallableNotice s))

/-- Traces functions on a tracer, one after the other, each under its own name. -/
def constructOn (i : Nat) : List Reference → World → Except Failure Unit × World
  | [], w => (.ok (), w)
  | f :: rest, w =>
    match σ.createTraceOn call i (.text (f.traceName σ.namings)) f w with
    | (.error e, w) => (.error e, w)
    | (.ok _, w) => constructOn i rest w

/-- Performs an operation. -/
def perform (w : World) : Step → Except Failure Result × World
  | .construct functions =>
    match σ.constructOn call w.tracers.length functions w.opened with
    | (.error e, w') => (.error e, w')
    | (.ok _, w') => (.ok (.plain .nothing), w'.switchTo w.tracers.length)
  | .createTrace name function =>
    let (outcome, w) := σ.createTraceOn call w.current name function w
    (outcome.map .plain, w)
  | .register name function before after =>
    let (outcome, w) := σ.registerOn w.current name function before after w
    (outcome.map fun b => .plain (.truth b), w)
  | .invoke name a =>
    let (outcome, w) := σ.invokeOn call w.current name a w
    (outcome.map .plain, w)
  | .contains name => ((w.registry.lookup name).map fun d => .plain (.truth d.isSome), w)
  | .size => (.ok (.plain (.integer w.registry.size)), w)
  | .descriptor name =>
    match w.registry.lookup name with
    | .error e => (.error e, w)
    | .ok none => (.error (.noEntry name), w)
    | .ok (some d) => (.ok (.descriptor d), w)

/-- Does what a function does. -/
def act : Program → World → Except Failure Value × World
  | .finish outcome, w => (outcome, w)
  | .emit line next, w =>
    let (written, w) := σ.emit line w
    act (next written w) w
  | .perform s next, w =>
    let (outcome, w) := σ.perform call w s
    let w := w.record (.step outcome)
    act (next outcome w) w

/-- Calls a function; calls nested deeper than `depth` fail. -/
def callWithin : Nat → Call
  | 0, _, _, w => (.error .tooDeep, w)
  | depth + 1, id, input, w =>
    let w := w.record (.call id input)
    σ.act (callWithin depth) (σ.behaviour id input w) w

/-- Performs operations one after the other. -/
def runAll (depth : Nat) : List Step → World → World
  | [], w => w
  | s :: rest, w => runAll depth rest (σ.perform (σ.callWithin depth) w.fresh s).2

end Setting

/-- How deeply calls may be nested. -/
def depthBound : Nat := 250

/-- Performs an operation with the given functions. -/
def run (functions : Functions) (w : World) (s : Step) : Except Failure Result × World :=
  functions.setting.perform (functions.setting.callWithin depthBound) w s

end CallTrace.Tracer
