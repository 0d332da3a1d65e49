import CallTrace.Log
import CallTrace.Value

/-!
# The registry of a tracer

A tracer knows functions by name.  Under each name stands one descriptor: the
function and what runs before and after it.  The first registration of a name
stays for good; a later one is refused and changes nothing.
-/

namespace CallTrace.Tracer

/-- What is passed where a function is expected: a function by its identifier, or plain data. -/
inductive Reference
  | function (id : List Char)
  | plain (v : Value)

/-- What runs before or after a traced function: the usual line, or what was given. -/
inductive Hook
  | usual
  | given (r : Reference)

namespace Reference

/-- Whether what a reference stands for can be called. -/
def isCallable : Reference → Bool
  | .function _ => true
  | .plain _ => false

/-- The function that a reference stands for. -/
def id : Reference → List Char
  | .function id => id
  | .plain _ => []

end Reference

/-- A traced function under its name. -/
structure Descriptor where
  name : List Char
  original : Reference
  before : Hook
  after : Hook

/-- The function that is traced. -/
def Descriptor.function (d : Descriptor) : List Char := d.original.id

/-- The errors that a function may raise itself. -/
inductive Raised
  | value
  | key
  | runtime
  | type
  deriving DecidableEq, Repr

/-- Why an operation fails. -/
inductive Failure
  /-- The name of a registration is no text or is empty. -/
  | invalidName (name : Value)
  /-- Data is registered in place of a function. -/
  | notCallable (name : List Char) (v : Value)
  /-- A name without descriptor is invoked. -/
  | notTraced (name : Value)
  /-- The descriptor of a name that has none is asked for. -/
  | noEntry (name : Value)
  /-- The value cannot be a key. -/
  | notKey (v : Value)
  /-- Data is called. -/
  | calledPlain (v : Value)
  | raised (kind : Raised) (message : List Char)
  /-- Calls are nested too deeply. -/
  | tooDeep

namespace Failure

/-- What a failure is reported as. -/
def message : Failure → List Char
  | .invalidName v => "function name must be a non-empty string, got ".toList ++ v.describe
  | .notCallable name v => name ++ " is not callable: ".toList ++ v.describe
  | .notTraced v => v.describe ++ " is not traced".toList
  | .noEntry v => v.shown
  | .notKey v => "unhashable type: '".toList ++ v.typeName.toList ++ ['\'']
  | .calledPlain v => '\'' :: v.typeName.toList ++ "' object is not callable".toList
  | .raised _ message => message
  | .tooDeep => []

end Failure

/-- What is known of the functions that may be referred to. -/
structure Naming where
  name : Option Value
  qualifiedName : Option Value
  /-- How the function is described. -/
  description : List Char
  /-- Whether the function counts as false. -/
  isFalsy : Bool

/-- The naming of functions by their identifiers. -/
abbrev Namings := List Char → Option Naming

/-- The name that all anonymous functions have. -/
def anonymousName : List Char := "<lambda>".toList

namespace Reference

/-- Whether a reference counts as true. -/
def isTruthy (namings : Namings) : Reference → Bool
  | .function id => (namings id).all (!·.isFalsy)
  | .plain v => v.isTruthy

/-- The hook that a reference stands for: one that counts as false stands for the usual one. -/
def hook (namings : Namings) (r : Reference) : Hook :=
  if r.isTruthy namings then .given r else .usual

end Reference

/-- The hook that stands for what was or was not given. -/
def hookOf (namings : Namings) (r : Option Reference) : Hook :=
  r.elim .usual (·.hook namings)

/-- The name of a function: its qualified name, else its name, if that is a text; its description if it
has no name of its own. -/
def Naming.traceName (n : Naming) : List Char :=
  if n.name.any fun v => v.name? = some anonymousName then n.description
  else
    let chosen := match n.qualifiedName with
      | some q => if q.isTruthy then some q else n.name
      | none => n.name
    ((chosen.bind Value.name?).getD n.description)

/-- The name under which a reference is traced that comes without a name. -/
def Reference.traceName (namings : Namings) : Reference → List Char
  | .function id => ((namings id).map Naming.traceName).getD []
  | .plain v => v.describe

/-- Descriptors under their keys, in the order in which the keys came in. -/
structure Registry where
  entries : List (List Char × Descriptor)

namespace Registry

def empty : Registry := ⟨[]⟩

def size (r : Registry) : Nat := r.entries.length

def names (r : Registry) : List (List Char) := r.entries.map (·.1)

/-- The descriptor of a name. -/
def find? (r : Registry) (name : List Char) : Option Descriptor := r.entries.lookup name

/-- Puts a descriptor under a key: in the place of the one that stands there, else at the end. -/
def insert (r : Registry) (key : List Char) (d : Descriptor) : Registry := ⟨go r.entries⟩
where
  go : List (List Char × Descriptor) → List (List Char × Descriptor)
    | [] => [(key, d)]
    | (k, e) :: rest => if k = key then (key, d) :: rest else (k, e) :: go rest

/-- The descriptor of a value that may be a name. -/
def lookup (r : Registry) (name : Value) : Except Failure (Option Descriptor) :=
  if name.isKey then
    .ok (match name with
      | .text s => r.find? s
      | _ => none)
  else .error (.notKey name)

/-- The descriptor that a registration puts in, or nothing if its name is taken. -/
def accept (namings : Namings) (r : Registry) (name : Value) (function : Reference)
    (before after : Option Reference) : Except Failure (Option Descriptor) :=
  match name.name? with
  | none => .error (.invalidName name)
  | some s =>
    match function with
    | .plain v => .error (.notCallable s v)
    | .function id =>
      if (r.find? s).isSome then .ok none
      else .ok (some ⟨s, .function id, hookOf namings before, hookOf namings after⟩)

variable {r : Registry} {key name : List Char} {d : Descriptor}

/-- What is found after a descriptor was put under a key. -/
theorem find?_insert :
    (r.insert key d).find? name = if name = key then some d else r.find? name := by
  obtain ⟨entries⟩ := r
  simp only [find?, insert]
  induction entries with
  | nil =>
    rw [insert.go, List.lookup_cons]
    by_cases h : name = key
    · simp [h]
    · simp [beq_eq_false_iff_ne.mpr h, h]
  | cons entry rest ih =>
    obtain ⟨k, e⟩ := entry
    rw [insert.go]
    by_cases hk : k = key
    · subst hk
      by_cases h : name = k
      · simp [h]
      · simp [List.lookup_cons, beq_eq_false_iff_ne.mpr h, h]
    · rw [if_neg hk]
      by_cases h : name = k
      · subst h
        simp [hk]
      · simp [List.lookup_cons, beq_eq_false_iff_ne.mpr h, ih]

/-- A key that nothing stands under comes at the end. -/
theorem entries_insert (h : r.find? key = none) :
    (r.insert key d).entries = r.entries ++ [(key, d)] := by
  obtain ⟨entries⟩ := r
  simp only [find?, insert] at h ⊢
  induction entries with
  | nil => rfl
  | cons entry rest ih =>
    obtain ⟨k, e⟩ := entry
    by_cases hk : k = key
    · simp [hk] at h
    · have hk' : key ≠ k := fun h => hk h.symm
      simp only [List.lookup_cons, beq_eq_false_iff_ne.mpr hk'] at h
      simp [insert.go, hk, ih h]

end Registry

/-- The logger of the tracer. -/
def logger : List Char := "tracehook.registry".toList

/-- The notice that data was passed in place of a function. -/
def notCallableNotice (name : List Char) : LogRecord :=
  .warning logger (name ++ " is not callable, skipping.".toList)

/-- The notice that a name is taken. -/
def takenNotice (name : List Char) : LogRecord :=
  .warning logger (name ++ " already traced, skipping.".toList)

end CallTrace.Tracer
