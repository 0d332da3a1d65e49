import CallTrace.Syntax.Grammar.Check
import CallTrace.Syntax.Grammar.Rules
import CallTrace.Syntax.Literal
import CallTrace.Unicode.Compatibility

/-!
# Reading tokens by the grammar

`Phrase.run` tries a phrase at a place in a list of tokens; it yields the place
after the phrase and the trees that the phrase makes, or nothing.  Each way to
combine phrases has a function of its own, which gets the reader of the parts as
an argument; so what holds of all combinations is shown once for each.

A node covers the source from the token where its phrase begins to the last
token before its end that is no layout.
-/

namespace CallTrace.Syntax

/-- A place among the tokens, and the trees made on the way there. -/
abbrev Reading := Nat × List Tree

/-- Reads from a place on, if it can. -/
abbrev Reader := Nat → Option Reading

namespace Reader

/-- One after the other. -/
def chain (read : Phrase → Reader) : List Phrase → Reader
  | [], i => some (i, [])
  | p :: ps, i =>
    match read p i with
    | none => none
    | some (j, ts) =>
      match chain read ps j with
      | none => none
      | some (k, us) => some (k, ts ++ us)

/-- The first that succeeds. -/
def first (read : Phrase → Reader) : List Phrase → Reader
  | [], _ => none
  | p :: ps, i =>
    match read p i with
    | some r => some r
    | none => first read ps i

/-- As often as it succeeds and goes forward, at most `budget` times. -/
def repeated (read : Reader) : Nat → Reader
  | 0, i => some (i, [])
  | budget + 1, i =>
    match read i with
    | none => some (i, [])
    | some (j, ts) =>
      if j ≤ i then some (i, [])
      else match repeated read budget j with
        | none => none
        | some (k, us) => some (k, ts ++ us)

/-- Lets a step go on from its own result, as often as it succeeds, at most `budget` times. -/
def growth (step : Nat → List Tree → Option Reading) : Nat → Nat → List Tree → Reading
  | 0, i, held => (i, held)
  | budget + 1, i, held =>
    match step i held with
    | none => (i, held)
    | some (j, ts) => growth step budget j ts

/-- Makes a node of some trees, if a kind is given. -/
def wrap (kind : Option Kind) (span : Span) (ts : List Tree) : List Tree :=
  match kind with
  | none => ts
  | some k => [Tree.make k span ts]

mutual
/-- Goes on after a fork by one branch; `spanTo` gives the piece of source from the fork to a
place. -/
def follow (read : Phrase → Reader) (spanTo : Nat → Span) (held : List Tree) : Branch → Reader
  | .close role kind rest, i =>
    match read rest i with
    | none => none
    | some (j, ts) => some (j, wrap kind (spanTo j) (held.map (·.assume role) ++ ts))
  | .more role rest branches, i =>
    match read rest i with
    | none => none
    | some (j, ts) => followFirst read spanTo (held.map (·.assume role) ++ ts) branches j
/-- Goes on after a fork by the first branch that succeeds. -/
def followFirst (read : Phrase → Reader) (spanTo : Nat → Span) (held : List Tree) :
    List Branch → Reader
  | [], _ => none
  | b :: bs, i =>
    match follow read spanTo held b i with
    | some r => some r
    | none => followFirst read spanTo held bs i
end

end Reader

/-- Where a token begins. -/
def startAt (tokens : Array Token) (i : Nat) : Position :=
  tokens[i]?.elim .origin (·.span.start)

/-- Where the last token before a place ends, layout left aside. -/
def stopBefore (tokens : Array Token) : Nat → Position
  | 0 => .origin
  | i + 1 =>
    match tokens[i]? with
    | none => stopBefore tokens i
    | some t => if t.lexeme.isLayout then stopBefore tokens i else t.span.stop

/-- The piece of source between two places among the tokens. -/
def spanBetween (tokens : Array Token) (i j : Nat) : Span :=
  ⟨startAt tokens i, stopBefore tokens j⟩

/-- Takes one given lexeme. -/
def takeLexeme (tokens : Array Token) (l : Lexeme) (i : Nat) : Option Reading :=
  match tokens[i]? with
  | some t => if t.lexeme = l then some (i + 1, []) else none
  | none => none

/-- The spellings of the string literals that stand side by side from a place on. -/
def literalsAt (tokens : Array Token) : Nat → Nat → List (List Char)
  | 0, _ => []
  | budget + 1, i =>
    match tokens[i]? with
    | some ⟨.string spelling, _⟩ => spelling :: literalsAt tokens budget (i + 1)
    | _ => []

/-- Tries a phrase at a place; the fuel bounds how deep phrases may nest. -/
def Phrase.run : Nat → Array Token → Phrase → Reader
  | 0, _, _, _ => none
  | fuel + 1, tokens, phrase, i =>
    let read := run fuel tokens
    match phrase with
    | .keyword k => takeLexeme tokens (.keyword k) i
    | .sign s => takeLexeme tokens (.sign s) i
    | .soft word => takeLexeme tokens (.name word) i
    | .newline => takeLexeme tokens .newline i
    | .indent => takeLexeme tokens .indent i
    | .dedent => takeLexeme tokens .dedent i
    | .finish => takeLexeme tokens .finish i
    | .name role =>
      match tokens[i]? with
      | some ⟨.name spelling, _⟩ =>
        some (i + 1, [.leaf role (.word (Unicode.normalize spelling))])
      | _ => none
    | .number =>
      match tokens[i]? with
      | some ⟨.number value, span⟩ =>
        some (i + 1, [.make .constant span [.leaf .value (.number value)]])
      | _ => none
    | .strings =>
      let spellings := literalsAt tokens (tokens.size - i) i
      if spellings.isEmpty then none
      else
        let stop := i + spellings.length
        let expression (text : List Char) : Option Tree := do
          let inner ← scanTokens (text ++ ['\n'])
          let (_, ts) ← run fuel inner.toArray Grammar.starExpressions 0
          ts.head?
        (Literal.toNode? expression (spanBetween tokens i stop) spellings).map
          fun t => (stop, [t])
    | .emit t => some (i, [t])
    | .rule r => read (grammar r) i
    | .seq ps => Reader.chain read ps i
    | .alt ps => Reader.first read ps i
    | .opt p => (read p i).or (some (i, []))
    | .many p => Reader.repeated (read p) (tokens.size - i) i
    | .ahead p => (read p i).map fun _ => (i, [])
    | .absent p => if (read p i).isSome then none else some (i, [])
    | .as role p => (read p i).map fun (j, ts) => (j, ts.map (·.assume role))
    | .node kind p =>
      (read p i).map fun (j, ts) => (j, [.make kind (spanBetween tokens i j) ts])
    | .fork p branches =>
      (read p i).bind fun (j, ts) =>
        Reader.followFirst read (spanBetween tokens i) ts branches j
    | .grow p branches =>
      (read p i).map fun (j, ts) =>
        Reader.growth (fun k held => Reader.followFirst read (spanBetween tokens i) held branches k)
          (tokens.size - j) j ts
    | .adorn extra p =>
      (read extra i).bind fun (j, more) =>
        (read p j).map fun (k, ts) => (k, ts.map (·.extend more))
    | .check c p => (read p i).filter fun (_, ts) => ts.all c.holds

/-- How deep phrases nest at most before a character of the text is taken. -/
def nestingPerCharacter : Nat := 200

/-- The tree of a text whose lines all end in `\n`. -/
def parseLines (text : List Char) : Option Tree := do
  let tokens ← scanTokens text
  let (_, ts) ← Grammar.program.run (nestingPerCharacter * (text.length + 2)) tokens.toArray 0
  ts.head?

end CallTrace.Syntax
