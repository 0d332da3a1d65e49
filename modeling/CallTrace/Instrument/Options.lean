/-!
# Options of instrumentation

How deep a trace line is indented per level, how depth is counted, and whether
lambdas are traced too.
-/

namespace CallTrace

/-- What the user chooses. -/
structure Options where
  indentUnit : List Char := [' ', ' ']
  monotonicDepth : Bool := false
  traceLambdas : Bool := false
  deriving DecidableEq, Repr

namespace Options

/-- The indentation of a trace line. -/
def indentation (o : Options) (depth : Int) : List Char :=
  (List.replicate depth.toNat o.indentUnit).flatten

/-- The line that tells that a function is entered. -/
def entering (o : Options) (name : List Char) (depth : Int) : List Char :=
  o.indentation depth ++ "Entering ".toList ++ name

/-- The line that tells that a function is left. -/
def leaving (o : Options) (name : List Char) (depth : Int) : List Char :=
  o.indentation depth ++ "Leaving ".toList ++ name

end Options

end CallTrace
