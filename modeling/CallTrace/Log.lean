/-!
# Log records

What the library has to say about its own work, with the name of the part that
says it.
-/

namespace CallTrace

/-- A message of a logger at a level. -/
structure LogRecord where
  level : Nat
  logger : List Char
  message : List Char
  deriving DecidableEq, Repr

namespace LogRecord

def debugLevel : Nat := 10

def warningLevel : Nat := 30

/-- A message on the progress of the work. -/
def debug (logger message : List Char) : LogRecord := ⟨debugLevel, logger, message⟩

/-- A message on something that was left undone. -/
def warning (logger message : List Char) : LogRecord := ⟨warningLevel, logger, message⟩

end LogRecord

end CallTrace
