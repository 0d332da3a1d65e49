import CallTrace.Syntax.Grammar.Statement

/-!
# The rules by name

The phrases that the grammar's references stand for.
-/

namespace CallTrace.Syntax

/-- The phrase of a rule. -/
def grammar : Rule → Phrase
  | .expression => Grammar.expression
  | .inversion => Grammar.inversion
  | .factor => Grammar.factor
  | .primary => Grammar.primary
  | .pattern => Grammar.pattern
  | .statement => Grammar.statement
  | .elifTail => Grammar.elifTail

end CallTrace.Syntax
