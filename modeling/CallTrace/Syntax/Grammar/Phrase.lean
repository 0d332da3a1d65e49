import CallTrace.Syntax.Token
import CallTrace.Syntax.Tree

/-!
# Phrases

The grammar of the language is a value: a phrase says which tokens it takes and
which trees it yields.  Alternatives are tried in order and the first that
succeeds is taken for good.

Constructions that begin alike are written with a fork: the common part is read
once, and each branch says how the construction may go on and what node it then
makes of everything since the fork began.  So no part of a program is read again
and again at every depth of nesting.
-/

namespace CallTrace.Syntax

/-- The rules of the grammar that refer back to themselves through others. -/
inductive Rule
  | expression | inversion | factor | primary | pattern | statement | elifTail
  deriving DecidableEq, Repr

/-- Conditions on trees that the order of tokens does not express. -/
inductive Check
  /-- What may be bound by an assignment. -/
  | assignable
  /-- A name, an attribute or a subscript. -/
  | single
  | deletable
  | realNumber
  | imaginaryNumber
  deriving DecidableEq, Repr

mutual
/-- A pattern of tokens with the trees that it yields. -/
inductive Phrase
  | keyword (word : Keyword)
  | sign (sign : Sign)
  /-- A word that is reserved in this place only. -/
  | soft (word : List Char)
  | newline
  | indent
  | dedent
  | finish
  /-- Any name, yielded as a leaf in the given role. -/
  | name (role : Role)
  | number
  /-- Adjacent string literals. -/
  | strings
  /-- Yields a tree and takes no token. -/
  | emit (t : Tree)
  | rule (r : Rule)
  | seq (parts : List Phrase)
  | alt (choices : List Phrase)
  | opt (p : Phrase)
  | many (p : Phrase)
  /-- Succeeds where the phrase would, and takes nothing. -/
  | ahead (p : Phrase)
  /-- Succeeds where the phrase would not, and takes nothing. -/
  | absent (p : Phrase)
  /-- Gives a role to the trees that have none. -/
  | as (role : Role) (p : Phrase)
  | node (kind : Kind) (p : Phrase)
  | fork (first : Phrase) (branches : List Branch)
  /-- Forks again and again as long as a branch succeeds. -/
  | grow (first : Phrase) (branches : List Branch)
  /-- Adds the trees of the first phrase to the node of the second. -/
  | adorn (extra p : Phrase)
  | check (c : Check) (p : Phrase)
/-- A way to go on after a fork. -/
inductive Branch
  /-- Reads the rest; the trees before it get the role, and all become a node if a kind is given. -/
  | close (role : Role) (kind : Option Kind) (rest : Phrase)
  /-- Reads more and forks again; the trees before it get the role. -/
  | more (role : Role) (rest : Phrase) (branches : List Branch)
end

namespace Phrase

/-- The phrase once or more. -/
def atLeastOne (p : Phrase) : Phrase := seq [p, many p]

/-- The phrase once or more with commas between. -/
def commaList (p : Phrase) : Phrase := seq [p, many (seq [sign .comma, p])]

/-- The phrase between parentheses. -/
def inParens (p : Phrase) : Phrase := seq [sign .leftParen, p, sign .rightParen]

/-- Yields the meaning of an operator. -/
def meaning (o : Operation) : Phrase := emit (.leaf .operation (.operation o))

/-- Yields nothing and takes nothing. -/
def nothing : Phrase := seq []

end Phrase

/-- Leaves what came before the fork as it is. -/
def Branch.keep : Branch := .close .unset none .nothing

end CallTrace.Syntax
