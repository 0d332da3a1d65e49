import CallTrace.Path

/-!
# Scope

Which modules are instrumented.  A scope with roots holds the files at or below
one of them; a scope without roots holds every file except those of the standard
library, but the directories of installed packages inside it count.

The tracer's own modules are never in scope.
-/

namespace CallTrace

/-- Where the standard library and installed packages are. -/
structure Library where
  standard : List (List Char)
  packages : List (List Char)
  deriving DecidableEq, Repr

/-- The files to be instrumented. -/
structure Scope where
  roots : Option (List (List Char))
  library : Library
  deriving DecidableEq, Repr

namespace Scope

/-- The scope with the given roots, which are read from a directory; an empty list stands for none. -/
def ofRoots (directory : List Char) (library : Library) : Option (List (List Char)) → Scope
  | none | some [] => ⟨none, library⟩
  | some roots => ⟨some (roots.map (Path.absolute directory)), library⟩

/-- Whether an absolute path is in scope. -/
def coversAbsolute (s : Scope) (path : List Char) : Bool :=
  match s.roots with
  | some roots => roots.any (Path.isUnder path)
  | none =>
    !s.library.standard.any (Path.isUnder path) || s.library.packages.any (Path.isUnder path)

/-- Whether the file of a module, if it has one, is in scope. -/
def covers (s : Scope) (directory : List Char) (origin : Option (List Char)) : Bool :=
  match origin with
  | none | some [] => false
  | some path => s.coversAbsolute (Path.absolute directory path)

end Scope

/-- The package of the tracer. -/
def ownPackage : List Char := "tracehook".toList

/-- Whether a module of the given name may be instrumented: it is not the tracer's own. -/
def mayInstrument (name : List Char) : Bool :=
  name != ownPackage && !(ownPackage ++ ['.']).isPrefixOf name

end CallTrace
