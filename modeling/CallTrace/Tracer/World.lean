import CallTrace.Tracer.Registry

/-!
# The world of the tracers

All tracers that were made, the one that is current, and everything that has
happened: what the functions and the lines did, which descriptor came into which
tracer, and which of them were put in to be run at once.  The history is never
cut; `fresh` only moves the mark up to which it has been reported.
-/

namespace CallTrace.Tracer

/-- The arguments of a call. -/
structure Arguments where
  positional : List Value
  named : List (List Char × Value)

/-- What a function is called with. -/
inductive Input
  | arguments (a : Arguments)
  /-- The descriptor that a hook is passed. -/
  | descriptor (d : Descriptor)

/-- The arguments as a value: the positional ones, then each named one with its name.  What a hook
gives back is dropped, so there it does not matter. -/
def Input.toValue : Input → Value
  | .arguments a => .list (a.positional ++ a.named.map fun (k, v) => .list [.text k, v])
  | .descriptor _ => .nothing

/-- What an operation gives. -/
inductive Result
  | plain (v : Value)
  | descriptor (d : Descriptor)

/-- What happens while a tracer runs. -/
inductive Event
  | line (v : Value)
  | call (function : List Char) (input : Input)
  /-- An operation that a function performed is over. -/
  | step (outcome : Except Failure Result)

/-- An entry of the history; tracers are counted in the order in which they were made. -/
inductive Deed
  | event (e : Event)
  /-- A descriptor came into a tracer. -/
  | registered (tracer : Nat) (d : Descriptor)
  /-- What came in under a name is run at once. -/
  | traced (tracer : Nat) (name : List Char)

/-- The event that an entry of the history tells of. -/
def Deed.event? : Deed → Option Event
  | .event e => some e
  | _ => none

/-- The tracers and what has happened so far. -/
structure World where
  tracers : List Registry
  current : Nat
  history : List Deed
  /-- How much of the history has been reported. -/
  reported : Nat
  logs : List LogRecord

namespace World

/-- One tracer, which is empty. -/
def start : World := ⟨[.empty], 0, [], 0, []⟩

/-- A tracer by its number. -/
def tracer (w : World) (i : Nat) : Registry := w.tracers.getD i .empty

/-- The tracer that operations go to. -/
def registry (w : World) : Registry := w.tracer w.current

/-- The events that have not been reported. -/
def events (w : World) : List Event := (w.history.drop w.reported).filterMap Deed.event?

def note (w : World) (deed : Deed) : World := { w with history := w.history ++ [deed] }

def record (w : World) (e : Event) : World := w.note (.event e)

def log (w : World) (l : LogRecord) : World := { w with logs := w.logs ++ [l] }

/-- Makes a tracer. -/
def opened (w : World) : World := { w with tracers := w.tracers ++ [.empty] }

def switchTo (w : World) (i : Nat) : World := { w with current := i }

/-- Puts a descriptor into a tracer, under its name. -/
def put (w : World) (i : Nat) (d : Descriptor) : World :=
  { w with tracers := w.tracers.modify i (·.insert d.name d) }.note (.registered i d)

/-- Counts all that has happened as reported. -/
def fresh (w : World) : World := { w with reported := w.history.length, logs := [] }

variable {w : World} {i j : Nat} {d : Descriptor} {deed : Deed}

@[simp]
theorem history_note : (w.note deed).history = w.history ++ [deed] := rfl

@[simp]
theorem history_record {e : Event} : (w.record e).history = w.history ++ [.event e] := rfl

@[simp]
theorem history_opened : w.opened.history = w.history := rfl

@[simp]
theorem history_put : (w.put i d).history = w.history ++ [.registered i d] := rfl

@[simp]
theorem tracer_note : (w.note deed).tracer i = w.tracer i := rfl

@[simp]
theorem length_opened : w.opened.tracers.length = w.tracers.length + 1 := List.length_append

@[simp]
theorem length_put : (w.put i d).tracers.length = w.tracers.length := List.length_modify ..

/-- A tracer that is not made yet holds nothing. -/
theorem tracer_of_length_le (h : w.tracers.length ≤ i) : w.tracer i = .empty := by
  rw [tracer, List.getD_eq_getElem?_getD, List.getElem?_eq_none h]
  rfl

@[simp]
theorem tracer_opened : w.opened.tracer i = w.tracer i := by
  by_cases h : i < w.tracers.length
  · simp only [tracer, opened, List.getD_eq_getElem?_getD]
    rw [List.getElem?_append_left h]
  · rw [tracer_of_length_le (by omega : w.tracers.length ≤ i)]
    simp only [tracer, opened, List.getD_eq_getElem?_getD]
    rw [List.getElem?_append_right (by omega)]
    cases i - w.tracers.length <;> rfl

/-- Putting a descriptor in changes that one tracer. -/
theorem tracer_put (h : i < w.tracers.length) :
    (w.put i d).tracer j = if j = i then (w.tracer i).insert d.name d else w.tracer j := by
  simp only [tracer, put, note, List.getD_eq_getElem?_getD, List.getElem?_modify]
  by_cases hj : j = i
  · subst hj
    simp [h]
  · have hi : i ≠ j := fun h => hj h.symm
    simp [hi, hj]

end World

end CallTrace.Tracer
