import CallTrace.Instrument.Options
import CallTrace.Log
import CallTrace.Scope
import CallTrace.Text.Quoted

/-!
# Load hooks

An import asks a list of finders, the first one first.  A context puts its load
hook, a marked finder, at the front of that list; as long as there is a marked
finder, whoever owns it, no other one is put in.  Other programs may have finders
of their own in the list, and may take any finder out of it, so a context keeps
in mind which finder it put in last and looks whether it is still there.

`isInstalled_install` says that a context has its hook in the list once it has
been installed.
-/

namespace CallTrace.Import

/-- Who owns a load hook: the context that is always there, or another one by its name. -/
inductive Owner
  | usual
  | named (name : List Char)
  deriving DecidableEq, Repr

/-- How the modules in a scope are instrumented. -/
structure Context where
  options : Options
  scope : Scope
  deriving DecidableEq, Repr

/-- A finder; no two have the same number. -/
structure Finder where
  number : Nat
  /-- Whose load hook it is, if it is one. -/
  owner : Option Owner
  deriving DecidableEq, Repr

/-- The finders that are asked, and what the contexts have put in. -/
structure Finders where
  list : List Finder
  /-- The finder that each context has put in last. -/
  own : Owner → Option Finder
  /-- The number of the next finder. -/
  next : Nat

namespace Finders

/-- No load hook has been put in. -/
def start : Finders := ⟨[], fun _ => none, 0⟩

/-- The load hook in the list. -/
def hook? (f : Finders) : Option Finder :=
  f.list.find? (·.owner.isSome)

/-- Whose load hook is in the list. -/
def owner? (f : Finders) : Option Owner :=
  f.hook?.bind (·.owner)

/-- Puts the load hook of a context at the front, unless there is one. -/
def install (f : Finders) (o : Owner) : Bool × Finders :=
  if f.hook?.isSome then (false, f)
  else
    let finder : Finder := ⟨f.next, some o⟩
    (true,
     { list := finder :: f.list
       own := fun other => if other = o then some finder else f.own other
       next := f.next + 1 })

/-- Whether the finder that a context has put in is in the list. -/
def isInstalled (f : Finders) (o : Owner) : Bool :=
  (f.own o).any f.list.contains

/-- Whether the finder that a context has put in is the first of the list. -/
def isFirst (f : Finders) (o : Owner) : Bool :=
  match f.own o, f.list with
  | some finder, first :: _ => finder = first
  | _, _ => false

theorem isInstalled_install {f : Finders} {o : Owner} (h : f.hook? = none) :
    (f.install o).2.isInstalled o = true := by
  simp [install, h, isInstalled]

end Finders

/-- The logger of the load hook. -/
def hookLogger : List Char := "tracehook.hook".toList

/-- Paths as they are shown together. -/
def shownPaths : List (List Char) → List Char
  | [] => ['(', ')']
  | [path] => '(' :: Text.quote path ++ [',', ')']
  | path :: rest => '(' :: Text.quote path ++ rest.flatMap (fun p => ',' :: ' ' :: Text.quote p) ++ [')']

/-- The notice that a load hook was put in. -/
def installedNotice (c : Context) : LogRecord :=
  .debug hookLogger
    ("load hook installed (roots=".toList ++ c.scope.roots.elim "None".toList shownPaths ++ [')'])

/-- The notice that there already is a load hook. -/
def refusedNotice : LogRecord :=
  .warning hookLogger "tracehook load hook already installed, skipping.".toList

/-- The notice that a module is instrumented. -/
def foundNotice (name file : List Char) : LogRecord :=
  .debug hookLogger ("instrumenting ".toList ++ name ++ " from ".toList ++ file)

end CallTrace.Import
