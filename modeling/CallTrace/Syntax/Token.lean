import CallTrace.Syntax.Numeral
import CallTrace.Syntax.Position
import CallTrace.Syntax.Symbol

/-!
# Tokens

A program is read as a list of tokens: words, numbers, string literals and
signs, and the layout between them, which is the end of a logical line and the
steps of indentation.
-/

namespace CallTrace.Syntax

/-- What a token is; names and string literals keep their spelling. -/
inductive Lexeme
  | keyword (word : Keyword)
  | name (spelling : List Char)
  | number (value : Numeral)
  | string (spelling : List Char)
  | sign (sign : Sign)
  | newline
  | indent
  | dedent
  | finish
  deriving DecidableEq, Repr

/-- Whether a lexeme is layout, which no piece of source ends with. -/
def Lexeme.isLayout : Lexeme → Bool
  | .newline | .indent | .dedent | .finish => true
  | _ => false

/-- A lexeme in its place. -/
structure Token where
  lexeme : Lexeme
  span : Span
  deriving DecidableEq, Repr

end CallTrace.Syntax
