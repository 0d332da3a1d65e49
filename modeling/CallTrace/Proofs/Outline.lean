import Mathlib
import CallTrace.Proofs.Reading
import CallTrace.Proofs.Trees

/-!
# What a phrase alone says of its readings

Much of what is needed of a reading can be told from the phrase: whether a token is taken, whether
layout may be taken, whether the reading ends a logical line, how many trees it yields.  An `Outline`
is such a description; it is computed by going through the phrase, and `grammar_outline` says what
comes out for the rules of the grammar.

`holds_of_run` says that every reading is as its phrase's outline describes it.
-/

namespace CallTrace.Syntax

variable {tokens : Array Token}

/-- The lexeme of a token. -/
def lexemeAt (tokens : Array Token) (i : Nat) : Option Lexeme :=
  tokens[i]?.map Token.lexeme

/-- Neither layout nor the word `pass`. -/
def Lexeme.isPlain (l : Lexeme) : Bool :=
  !l.isLayout && l ≠ .keyword .passWord

/-- A token in the place is no layout. -/
def StartsAt (tokens : Array Token) (i : Nat) : Prop :=
  ∃ l, lexemeAt tokens i = some l ∧ l.isLayout = false

/-- A keyword is the token in the place. -/
def KeywordAt (tokens : Array Token) (i : Nat) : Prop :=
  ∃ k, lexemeAt tokens i = some (.keyword k)

theorem StartsAt.isLayout_eq_false {tokens : Array Token} {i : Nat} {l : Lexeme} (h : StartsAt tokens i)
    (hl : lexemeAt tokens i = some l) : l.isLayout = false := by
  obtain ⟨l', hl', hnot⟩ := h
  rwa [Option.some.inj (hl.symm.trans hl')]

theorem KeywordAt.startsAt {tokens : Array Token} {i : Nat} (h : KeywordAt tokens i) :
    StartsAt tokens i := by
  obtain ⟨k, hk⟩ := h
  exact ⟨_, hk, rfl⟩

/-- Before the place a logical line ends, and then there is only layout. -/
def EndedAt (tokens : Array Token) (i : Nat) : Prop :=
  ∃ e < i, lexemeAt tokens e = some .newline ∧
    ∀ k, e ≤ k → k < i → ∃ l, lexemeAt tokens k = some l ∧ l.isLayout = true

/-- A node with a place and without a role. -/
def Tree.IsBare (t : Tree) : Prop :=
  ∃ k s ts, t = .node .unset k (some s) ts

/-- No node of the tree is a definition of a function or a class. -/
abbrev Tree.IsSimple (t : Tree) : Prop :=
  t.Every fun k _ => k.isDefinition = false ∧ k ≠ .classDef

/-- The one tree of a reading begins after opening parentheses alone. -/
def Heads (tokens : Array Token) (i j : Nat) (ts : List Tree) : Prop :=
  ∃ t m, ts = [t] ∧ i ≤ m ∧ m < j ∧ StartsAt tokens m ∧
    (∀ k, i ≤ k → k < m → lexemeAt tokens k = some (.sign .leftParen)) ∧
    t.span?.map Span.start = some (startAt tokens m)

/-- What is known of the readings of a phrase. -/
structure Outline where
  /-- No token is taken. -/
  still : Bool
  /-- A token is taken, and the first is no layout. -/
  leads : Bool
  /-- Only opening parentheses are taken, and no tree is made. -/
  opens : Bool
  /-- One tree is made, before which only opening parentheses stand. -/
  heads : Bool
  /-- Neither layout nor the word `pass` is taken. -/
  plain : Bool
  /-- No definition is made. -/
  simple : Bool
  /-- No tree is a decorator. -/
  unadorning : Bool
  /-- Where a logical line has ended before, one has ended after. -/
  keeps : Bool
  /-- A logical line has ended. -/
  closes : Bool
  /-- All trees are nodes with a place and without a role. -/
  bare : Bool
  /-- How many trees there are. -/
  count : Option Nat
  deriving DecidableEq

namespace Outline

/-- The reading of the tokens from the `i`-th up to the `j`-th as some trees is as described. -/
structure Holds (o : Outline) (tokens : Array Token) (i j : Nat) (ts : List Tree) : Prop where
  le : i ≤ j
  taken : ∀ k, i ≤ k → k < j → k < tokens.size
  still : o.still = true → j = i
  leads : o.leads = true → i < j ∧ StartsAt tokens i
  opens : o.opens = true →
    (∀ k, i ≤ k → k < j → lexemeAt tokens k = some (.sign .leftParen)) ∧ ts = []
  heads : o.heads = true → Heads tokens i j ts
  plain : o.plain = true →
    ∀ k, i ≤ k → k < j → ∃ l, lexemeAt tokens k = some l ∧ l.isPlain = true
  simple : o.simple = true → ∀ t ∈ ts, t.IsSimple
  unadorning : o.unadorning = true → ∀ t ∈ ts, t.role ≠ .decorators
  keeps : o.keeps = true → EndedAt tokens i → EndedAt tokens j
  closes : o.closes = true → EndedAt tokens j
  bare : o.bare = true → ∀ t ∈ ts, t.IsBare
  count : ∀ n ∈ o.count, ts.length = n

/-- Nothing is taken or made. -/
def nothing : Outline := ⟨true, false, true, false, true, true, true, true, false, true, some 0⟩

/-- Nothing is known. -/
def unknown : Outline :=
  ⟨false, false, false, false, false, false, false, false, false, false, none⟩

/-- One token without a value. -/
def ofLexeme (l : Lexeme) : Outline :=
  ⟨false, !l.isLayout, l = .sign .leftParen, false, l.isPlain, true, true, l.isLayout, l = .newline, true,
    some 0⟩

/-- A token that is yielded as a leaf. -/
def leaf (r : Role) : Outline :=
  ⟨false, true, false, false, true, true, r ≠ .decorators, false, false, false, some 1⟩

/-- An expression. -/
def expression : Outline :=
  ⟨false, true, false, true, true, true, true, false, false, true, some 1⟩

/-- One after the other. -/
def andThen (a b : Outline) : Outline where
  still := a.still && b.still
  leads := a.leads || (a.still && b.leads)
  opens := a.opens && b.opens
  heads := (a.opens && b.heads) || (a.heads && b.count = some 0)
  plain := a.plain && b.plain
  simple := a.simple && b.simple
  unadorning := a.unadorning && b.unadorning
  keeps := (a.keeps && b.keeps) || (a.closes && b.keeps) || b.closes
  closes := b.closes || (a.closes && b.keeps)
  bare := a.bare && b.bare
  count := a.count.bind fun m => b.count.map (m + ·)

/-- One or the other. -/
def either (a b : Outline) : Outline where
  still := a.still && b.still
  leads := a.leads && b.leads
  opens := a.opens && b.opens
  heads := a.heads && b.heads
  plain := a.plain && b.plain
  simple := a.simple && b.simple
  unadorning := a.unadorning && b.unadorning
  keeps := a.keeps && b.keeps
  closes := a.closes && b.closes
  bare := a.bare && b.bare
  count := if a.count = b.count then a.count else none

/-- Again and again. -/
def again (a : Outline) : Outline where
  still := a.still
  leads := false
  opens := a.opens
  heads := false
  plain := a.plain
  simple := a.simple
  unadorning := a.unadorning
  keeps := a.keeps
  closes := false
  bare := a.bare
  count := if a.count = some 0 then some 0 else none

/-- The trees get a role. -/
def inRole (role : Role) (a : Outline) : Outline :=
  { a with bare := (role = .unset && a.bare) || a.count = some 0,
           unadorning := role ≠ .decorators && a.unadorning }

/-- The trees become items of a node. -/
def inNode (kind : Kind) (a : Outline) : Outline where
  still := a.still
  leads := a.leads
  opens := false
  heads := kind.isPlaced && a.leads
  plain := a.plain
  simple := a.simple && !kind.isDefinition && kind ≠ .classDef
  unadorning := true
  keeps := a.keeps
  closes := a.closes
  bare := kind.isPlaced
  count := some 1

/-- The trees become items of a node, if a kind is given. -/
def inKind (kind : Option Kind) (a : Outline) : Outline :=
  match kind with
  | some k => a.inNode k
  | none => a

/-- Some trees are added to those of the second reading. -/
def adorn (extra a : Outline) : Outline :=
  { extra.andThen a with
    opens := false, heads := false, count := a.count, bare := a.bare, unadorning := a.unadorning }

/-- What a rule reads. -/
def ofRule : Rule → Outline
  | .statement => ⟨false, true, false, false, false, false, true, true, true, true, none⟩
  | .elifTail => ⟨false, true, false, true, false, false, true, true, true, true, some 1⟩
  | _ => expression

end Outline

mutual
/-- The outline of a phrase. -/
def Phrase.outline : Phrase → Outline
  | .keyword k => .ofLexeme (.keyword k)
  | .sign s => .ofLexeme (.sign s)
  | .soft word => .ofLexeme (.name word)
  | .newline => .ofLexeme .newline
  | .indent => .ofLexeme .indent
  | .dedent => .ofLexeme .dedent
  | .finish => .ofLexeme .finish
  | .name role => .leaf role
  | .number => .expression
  | .strings => .expression
  | .emit (.leaf r _) =>
    { Outline.nothing with
      opens := false, bare := false, count := some 1, unadorning := r ≠ .decorators }
  | .emit (.node _ _ _ _) => .unknown
  | .rule r => .ofRule r
  | .seq ps => Phrase.outlineSeq ps
  | .alt ps => Phrase.outlineAlt ps
  | .opt p => .either p.outline .nothing
  | .many p => p.outline.again
  | .ahead _ => .nothing
  | .absent _ => .nothing
  | .as role p => p.outline.inRole role
  | .node kind p => p.outline.inNode kind
  | .fork p branches => Branch.outlineAny p.outline branches
  | .grow p branches =>
    let held := p.outline
    if Branch.outlineAny held branches = held then held else .unknown
  | .adorn extra p => extra.outline.adorn p.outline
  | .check _ p => p.outline
/-- The outline of phrases one after the other. -/
def Phrase.outlineSeq : List Phrase → Outline
  | [] => .nothing
  | p :: ps => p.outline.andThen (Phrase.outlineSeq ps)
/-- The outline of a choice. -/
def Phrase.outlineAlt : List Phrase → Outline
  | [] => .unknown
  | [p] => p.outline
  | p :: ps => p.outline.either (Phrase.outlineAlt ps)
/-- The outline of a branch with what was read before it. -/
def Branch.outline (held : Outline) : Branch → Outline
  | .close role kind rest => (held.inRole role |>.andThen rest.outline).inKind kind
  | .more role rest branches => Branch.outlineAny (held.inRole role |>.andThen rest.outline) branches
/-- The outline of some branches with what was read before them. -/
def Branch.outlineAny (held : Outline) : List Branch → Outline
  | [] => .unknown
  | [b] => b.outline held
  | b :: bs => (b.outline held).either (Branch.outlineAny held bs)
end

/-- What the rules of the grammar read. -/
theorem grammar_outline (r : Rule) : (grammar r).outline = .ofRule r := by
  cases r <;> rfl

/-! ## Outlines describe readings -/

theorem lexemeAt_eq {i : Nat} {t : Token} (h : tokens[i]? = some t) : lexemeAt tokens i = some t.lexeme := by
  rw [lexemeAt, h, Option.map_some]

theorem lt_size_of_lexemeAt {i : Nat} {l : Lexeme} (h : lexemeAt tokens i = some l) : i < tokens.size := by
  obtain ⟨t, ht, -⟩ := Option.map_eq_some_iff.1 h
  exact (Array.getElem?_eq_some_iff.1 ht).1

/-- Layout after the end of a logical line. -/
theorem EndedAt.succ {i : Nat} {l : Lexeme} (h : EndedAt tokens i) (hl : lexemeAt tokens i = some l)
    (hlayout : l.isLayout = true) : EndedAt tokens (i + 1) := by
  obtain ⟨e, he, hn, hk⟩ := h
  refine ⟨e, by omega, hn, fun k hek hki => ?_⟩
  rcases Nat.lt_or_eq_of_le (Nat.le_of_lt_succ hki) with hki | rfl
  · exact hk k hek hki
  · exact ⟨l, hl, hlayout⟩

theorem endedAt_newline {i : Nat} (h : lexemeAt tokens i = some .newline) : EndedAt tokens (i + 1) := by
  refine ⟨i, Nat.lt_succ_self i, h, fun k hik hki => ?_⟩
  obtain rfl : k = i := by omega
  exact ⟨.newline, h, rfl⟩

theorem Lexeme.isPlain_iff {l : Lexeme} :
    l.isPlain = true ↔ l.isLayout = false ∧ l ≠ .keyword .passWord := by
  simp [Lexeme.isPlain]

theorem Tree.isBare_make {k : Kind} {s : Span} {ts : List Tree} (h : k.isPlaced = true) :
    (Tree.make k s ts).IsBare :=
  ⟨k, s, Tree.arrange k ts, by rw [Tree.make, if_pos h]⟩

theorem Tree.isBare_assume {t : Tree} (h : t.IsBare) : (t.assume .unset).IsBare := by
  obtain ⟨k, s, ts, rfl⟩ := h
  exact ⟨k, s, ts, rfl⟩

theorem Tree.role_assume_ne {r s : Role} {t : Tree} (hr : r ≠ s) (ht : t.role ≠ s) :
    (t.assume r).role ≠ s := by
  cases t with
  | node role k s ts => cases role <;> first | exact hr | exact ht
  | leaf role v => cases role <;> first | exact hr | exact ht

theorem Tree.role_extend (extra : List Tree) (t : Tree) : (t.extend extra).role = t.role := by
  cases t <;> rfl

theorem Tree.span?_assume (r : Role) (t : Tree) : (t.assume r).span? = t.span? := by
  cases t with
  | node role k s ts => cases role <;> rfl
  | leaf role v => cases role <;> rfl

namespace Outline

variable {a b : Outline} {i j k : Nat} {ts us : List Tree}

theorem holds_nothing (i : Nat) : nothing.Holds tokens i i [] where
  le := le_rfl
  taken := fun k hik hki => absurd hki (Nat.not_lt.2 hik)
  still := fun _ => rfl
  leads := by intro h; cases h
  opens := fun _ => ⟨fun k hik hki => absurd hki (Nat.not_lt.2 hik), rfl⟩
  heads := by intro h; cases h
  plain := fun _ k hik hki => absurd hki (Nat.not_lt.2 hik)
  simple := by simp
  unadorning := by simp
  keeps := fun _ h => h
  closes := by intro h; cases h
  bare := by simp
  count := by simp [nothing]

theorem holds_unknown (hij : i ≤ j) (ht : ∀ k, i ≤ k → k < j → k < tokens.size) :
    unknown.Holds tokens i j ts := by
  constructor <;> first | assumption | simp [unknown]

theorem holds_ofLexeme {l : Lexeme} (h : lexemeAt tokens i = some l) :
    (ofLexeme l).Holds tokens i (i + 1) [] where
  le := Nat.le_succ i
  taken := by
    intro k hik hki
    obtain rfl : k = i := by omega
    exact lt_size_of_lexemeAt h
  still := by intro h; cases h
  leads := fun hl => ⟨Nat.lt_succ_self i, l, h, by simpa [ofLexeme] using hl⟩
  opens := by
    intro hl
    refine ⟨fun k hik hki => ?_, rfl⟩
    obtain rfl : k = i := by omega
    rw [h, show l = .sign .leftParen by simpa [ofLexeme] using hl]
  heads := by intro h; cases h
  plain := by
    intro hl k hik hki
    obtain rfl : k = i := by omega
    exact ⟨l, h, hl⟩
  simple := by simp
  unadorning := by simp
  keeps := fun hl he => he.succ h hl
  closes := by
    intro hl
    refine endedAt_newline ?_
    rw [h, show l = .newline by simpa [ofLexeme] using hl]
  bare := by simp
  count := by simp [ofLexeme]

theorem holds_leaf {l : Lexeme} (h : lexemeAt tokens i = some l) (hl : l.isPlain = true) (r : Role)
    (v : Leaf) : (leaf r).Holds tokens i (i + 1) [.leaf r v] where
  le := Nat.le_succ i
  taken := (holds_ofLexeme h).taken
  still := by intro h; cases h
  leads := fun _ => ⟨Nat.lt_succ_self i, l, h, (Lexeme.isPlain_iff.1 hl).1⟩
  opens := by intro h; cases h
  heads := by intro h; cases h
  plain := fun _ => (holds_ofLexeme h).plain hl
  simple := by simp
  unadorning := by simp [leaf, Tree.role]
  keeps := by intro h; cases h
  closes := by intro h; cases h
  bare := by intro h; cases h
  count := by simp [leaf]

/-- A node made of tokens that are plain. -/
theorem holds_expression {kind : Kind} {span : Span} (hij : i < j)
    (hp : ∀ k, i ≤ k → k < j → ∃ l, lexemeAt tokens k = some l ∧ l.isPlain = true)
    (hk : kind.isPlaced = true) (hs : span.start = startAt tokens i)
    (hq : (Tree.make kind span ts).IsSimple) :
    expression.Holds tokens i j [.make kind span ts] := by
  obtain ⟨l, hl, hplain⟩ := hp i le_rfl hij
  have hstart : StartsAt tokens i := ⟨l, hl, (Lexeme.isPlain_iff.1 hplain).1⟩
  refine
    { le := hij.le
      taken := fun k hik hkj => ?_
      still := by intro h; cases h
      leads := fun _ => ⟨hij, hstart⟩
      opens := by intro h; cases h
      heads := fun _ => ⟨_, i, rfl, le_rfl, hij, hstart, fun k hik hki => absurd hki (Nat.not_lt.2 hik), ?_⟩
      plain := fun _ => hp
      simple := fun _ => by simpa using hq
      unadorning := by simp [Tree.make, Tree.role]
      keeps := by intro h; cases h
      closes := by intro h; cases h
      bare := fun _ => by simpa using Tree.isBare_make hk
      count := by simp [expression] }
  · obtain ⟨l, hl, -⟩ := hp k hik hkj
    exact lt_size_of_lexemeAt hl
  · rw [Tree.make, if_pos hk, ← hs]
    rfl

theorem Holds.andThen (ha : a.Holds tokens i j ts) (hb : b.Holds tokens j k us) :
    (a.andThen b).Holds tokens i k (ts ++ us) where
  le := ha.le.trans hb.le
  taken := by
    intro n hin hnk
    rcases Nat.lt_or_ge n j with hnj | hnj
    · exact ha.taken n hin hnj
    · exact hb.taken n hnj hnk
  still := by
    intro h
    obtain ⟨h₁, h₂⟩ := Bool.and_eq_true_iff.1 h
    rw [hb.still h₂, ha.still h₁]
  leads := by
    intro h
    rcases Bool.or_eq_true_iff.1 h with h | h
    · exact ⟨(ha.leads h).1.trans_le hb.le, (ha.leads h).2⟩
    · obtain ⟨h₁, h₂⟩ := Bool.and_eq_true_iff.1 h
      obtain rfl := ha.still h₁
      exact hb.leads h₂
  opens := by
    intro h
    obtain ⟨h₁, h₂⟩ := Bool.and_eq_true_iff.1 h
    obtain ⟨ha₁, rfl⟩ := ha.opens h₁
    obtain ⟨hb₁, rfl⟩ := hb.opens h₂
    refine ⟨fun n hin hnk => ?_, rfl⟩
    rcases Nat.lt_or_ge n j with hnj | hnj
    · exact ha₁ n hin hnj
    · exact hb₁ n hnj hnk
  heads := by
    intro h
    rcases Bool.or_eq_true_iff.1 h with h | h
    · obtain ⟨h₁, h₂⟩ := Bool.and_eq_true_iff.1 h
      obtain ⟨ha₁, rfl⟩ := ha.opens h₁
      obtain ⟨t, m, ht, hjm, hmk, hm, hopen, hspan⟩ := hb.heads h₂
      refine ⟨t, m, ht, ha.le.trans hjm, hmk, hm, fun n hin hnm => ?_, hspan⟩
      rcases Nat.lt_or_ge n j with hnj | hnj
      · exact ha₁ n hin hnj
      · exact hopen n hnj hnm
    · obtain ⟨h₁, h₂⟩ := Bool.and_eq_true_iff.1 h
      obtain ⟨t, m, rfl, him, hmj, hm, hopen, hspan⟩ := ha.heads h₁
      obtain rfl : us = [] := List.eq_nil_of_length_eq_zero (hb.count 0 (by simpa using h₂))
      exact ⟨t, m, rfl, him, hmj.trans_le hb.le, hm, hopen, hspan⟩
  plain := by
    intro h
    obtain ⟨h₁, h₂⟩ := Bool.and_eq_true_iff.1 h
    intro n hin hnk
    rcases Nat.lt_or_ge n j with hnj | hnj
    · exact ha.plain h₁ n hin hnj
    · exact hb.plain h₂ n hnj hnk
  simple := by
    intro h
    obtain ⟨h₁, h₂⟩ := Bool.and_eq_true_iff.1 h
    exact List.forall_mem_append.2 ⟨ha.simple h₁, hb.simple h₂⟩
  unadorning := by
    intro h
    obtain ⟨h₁, h₂⟩ := Bool.and_eq_true_iff.1 h
    exact List.forall_mem_append.2 ⟨ha.unadorning h₁, hb.unadorning h₂⟩
  keeps := by
    intro h he
    rcases Bool.or_eq_true_iff.1 h with h | h
    · rcases Bool.or_eq_true_iff.1 h with h | h
      · obtain ⟨h₁, h₂⟩ := Bool.and_eq_true_iff.1 h
        exact hb.keeps h₂ (ha.keeps h₁ he)
      · obtain ⟨h₁, h₂⟩ := Bool.and_eq_true_iff.1 h
        exact hb.keeps h₂ (ha.closes h₁)
    · exact hb.closes h
  closes := by
    intro h
    rcases Bool.or_eq_true_iff.1 h with h | h
    · exact hb.closes h
    · obtain ⟨h₁, h₂⟩ := Bool.and_eq_true_iff.1 h
      exact hb.keeps h₂ (ha.closes h₁)
  bare := by
    intro h
    obtain ⟨h₁, h₂⟩ := Bool.and_eq_true_iff.1 h
    exact List.forall_mem_append.2 ⟨ha.bare h₁, hb.bare h₂⟩
  count := by
    intro n hn
    obtain ⟨m, hm, hn⟩ := Option.bind_eq_some_iff.1 hn
    obtain ⟨m', hm', rfl⟩ := Option.map_eq_some_iff.1 hn
    rw [List.length_append, ha.count m hm, hb.count m' hm']

theorem Holds.either_left (ha : a.Holds tokens i j ts) (b : Outline) :
    (a.either b).Holds tokens i j ts where
  le := ha.le
  taken := ha.taken
  still := fun h => ha.still (Bool.and_eq_true_iff.1 h).1
  leads := fun h => ha.leads (Bool.and_eq_true_iff.1 h).1
  opens := fun h => ha.opens (Bool.and_eq_true_iff.1 h).1
  heads := fun h => ha.heads (Bool.and_eq_true_iff.1 h).1
  plain := fun h => ha.plain (Bool.and_eq_true_iff.1 h).1
  simple := fun h => ha.simple (Bool.and_eq_true_iff.1 h).1
  unadorning := fun h => ha.unadorning (Bool.and_eq_true_iff.1 h).1
  keeps := fun h => ha.keeps (Bool.and_eq_true_iff.1 h).1
  closes := fun h => ha.closes (Bool.and_eq_true_iff.1 h).1
  bare := fun h => ha.bare (Bool.and_eq_true_iff.1 h).1
  count := by
    intro n hn
    rw [either] at hn
    split at hn
    · exact ha.count n hn
    · cases hn

theorem either_comm (a b : Outline) : a.either b = b.either a := by
  simp only [either, Bool.and_comm, mk.injEq, true_and]
  split <;> simp_all [eq_comm]

theorem Holds.either_right (a : Outline) (hb : b.Holds tokens i j ts) :
    (a.either b).Holds tokens i j ts := by
  rw [either_comm]
  exact hb.either_left a

theorem Holds.inRole (role : Role) (ha : a.Holds tokens i j ts) :
    (a.inRole role).Holds tokens i j (ts.map (·.assume role)) where
  le := ha.le
  taken := ha.taken
  still := ha.still
  leads := ha.leads
  opens := by
    intro h
    obtain ⟨h₁, rfl⟩ := ha.opens h
    exact ⟨h₁, rfl⟩
  heads := by
    intro h
    obtain ⟨t, m, rfl, him, hmj, hm, hopen, hspan⟩ := ha.heads h
    exact ⟨_, m, rfl, him, hmj, hm, hopen, by rwa [Tree.span?_assume]⟩
  plain := ha.plain
  simple := by
    intro h t ht
    obtain ⟨u, hu, rfl⟩ := List.mem_map.1 ht
    exact Tree.every_assume.2 (ha.simple h u hu)
  unadorning := by
    intro h t ht
    obtain ⟨u, hu, rfl⟩ := List.mem_map.1 ht
    obtain ⟨h₁, h₂⟩ := Bool.and_eq_true_iff.1 h
    exact Tree.role_assume_ne (of_decide_eq_true h₁) (ha.unadorning h₂ u hu)
  keeps := ha.keeps
  closes := ha.closes
  bare := by
    intro h t ht
    obtain ⟨u, hu, rfl⟩ := List.mem_map.1 ht
    rcases Bool.or_eq_true_iff.1 h with h | h
    · obtain ⟨h₁, h₂⟩ := Bool.and_eq_true_iff.1 h
      rw [of_decide_eq_true h₁]
      exact Tree.isBare_assume (ha.bare h₂ u hu)
    · rw [List.eq_nil_of_length_eq_zero (ha.count 0 (by simpa using h))] at hu
      cases hu
  count := by
    intro n hn
    rw [List.length_map, ha.count n hn]

theorem Holds.inNode (kind : Kind) {span : Span} (hs : span.start = startAt tokens i)
    (ha : a.Holds tokens i j ts) : (a.inNode kind).Holds tokens i j [.make kind span ts] where
  le := ha.le
  taken := ha.taken
  still := ha.still
  leads := ha.leads
  opens := by intro h; cases h
  heads := by
    intro h
    obtain ⟨h₁, h₂⟩ := Bool.and_eq_true_iff.1 h
    refine ⟨_, i, rfl, le_rfl, (ha.leads h₂).1, (ha.leads h₂).2,
      fun k hik hki => absurd hki (Nat.not_lt.2 hik), ?_⟩
    rw [Tree.make, if_pos h₁, ← hs]
    rfl
  plain := ha.plain
  simple := by
    intro h t ht
    obtain rfl := List.mem_singleton.1 ht
    simp only [Outline.inNode, Bool.and_eq_true, Bool.not_eq_true', decide_eq_true_eq] at h
    exact Tree.every_make.2 ⟨⟨h.1.2, h.2⟩, ha.simple h.1.1⟩
  unadorning := by simp [Tree.make, Tree.role]
  keeps := ha.keeps
  closes := ha.closes
  bare := by
    intro h t ht
    obtain rfl := List.mem_singleton.1 ht
    exact Tree.isBare_make h
  count := by simp [Outline.inNode]

theorem Holds.inKind (kind : Option Kind) {span : Span} (hs : span.start = startAt tokens i)
    (ha : a.Holds tokens i j ts) : (a.inKind kind).Holds tokens i j (Reader.wrap kind span ts) := by
  cases kind with
  | none => exact ha
  | some k => exact ha.inNode k hs

theorem Holds.adorn (ha : a.Holds tokens i j us) (hb : b.Holds tokens j k ts) :
    (a.adorn b).Holds tokens i k (ts.map (·.extend us)) where
  le := ha.le.trans hb.le
  taken := (ha.andThen hb).taken
  still := (ha.andThen hb).still
  leads := (ha.andThen hb).leads
  opens := by intro h; cases h
  heads := by intro h; cases h
  plain := (ha.andThen hb).plain
  simple := by
    intro h t ht
    obtain ⟨u, hu, rfl⟩ := List.mem_map.1 ht
    obtain ⟨h₁, h₂⟩ := Bool.and_eq_true_iff.1 h
    exact Tree.every_extend (hb.simple h₂ u hu) (ha.simple h₁)
  unadorning := by
    intro h t ht
    obtain ⟨u, hu, rfl⟩ := List.mem_map.1 ht
    rw [Tree.role_extend]
    exact hb.unadorning h u hu
  keeps := (ha.andThen hb).keeps
  closes := (ha.andThen hb).closes
  bare := by
    intro h t ht
    obtain ⟨u, hu, rfl⟩ := List.mem_map.1 ht
    obtain ⟨k, s, vs, rfl⟩ := hb.bare h u hu
    exact ⟨k, s, _, rfl⟩
  count := by
    intro n hn
    rw [List.length_map]
    exact hb.count n hn

/-! ## Combinations of readings -/

variable {R : Phrase → Nat → Nat → List Tree → Prop} {spanTo : Nat → Span}

/-- Every reading is as its phrase's outline describes it. -/
def Describes (tokens : Array Token) (R : Phrase → Nat → Nat → List Tree → Prop) : Prop :=
  ∀ {p : Phrase} {i j : Nat} {ts : List Tree}, R p i j ts → p.outline.Holds tokens i j ts

theorem holds_chained (hR : Describes tokens R) {ps : List Phrase} (h : Chained R ps i j ts) :
    (Phrase.outlineSeq ps).Holds tokens i j ts := by
  induction h with
  | nil => exact holds_nothing _
  | cons hp _ ih => exact (hR hp).andThen ih

theorem holds_again_nil (a : Outline) (i : Nat) : a.again.Holds tokens i i [] := by
  have h : nothing.Holds tokens i i [] := holds_nothing i
  exact
    { le := h.le
      taken := h.taken
      still := fun _ => rfl
      leads := by intro h; cases h
      opens := fun _ => h.opens rfl
      heads := by intro h; cases h
      plain := fun _ => h.plain rfl
      simple := by simp
      unadorning := by simp
      keeps := fun _ he => he
      closes := by intro h; cases h
      bare := by simp
      count := by simp [again] }

theorem Holds.again (ha : a.Holds tokens i j ts) (hb : a.again.Holds tokens j k us) :
    a.again.Holds tokens i k (ts ++ us) := by
  have h := ha.andThen hb
  exact
    { le := h.le
      taken := h.taken
      still := fun hs => h.still (Bool.and_eq_true_iff.2 ⟨hs, hs⟩)
      leads := by intro h; cases h
      opens := fun ho => h.opens (Bool.and_eq_true_iff.2 ⟨ho, ho⟩)
      heads := by intro h; cases h
      plain := fun hp => h.plain (Bool.and_eq_true_iff.2 ⟨hp, hp⟩)
      simple := fun hs => h.simple (Bool.and_eq_true_iff.2 ⟨hs, hs⟩)
      unadorning := fun hu => h.unadorning (Bool.and_eq_true_iff.2 ⟨hu, hu⟩)
      keeps := fun hk he => hb.keeps hk (ha.keeps hk he)
      closes := by intro h; cases h
      bare := fun hb => h.bare (Bool.and_eq_true_iff.2 ⟨hb, hb⟩)
      count := by
        intro n hn
        simp only [Outline.again] at hn
        split at hn
        · rename_i hc
          rw [List.length_append, ha.count 0 hc, Nat.zero_add]
          exact hb.count n (by simp only [Outline.again, if_pos hc, hn])
        · cases hn }

theorem holds_repeated (hR : Describes tokens R) {p : Phrase} (h : Repeated R p i j ts) :
    p.outline.again.Holds tokens i j ts := by
  induction h with
  | stop => exact holds_again_nil _ _
  | more hp _ _ ih => exact (hR hp).again ih

theorem outlineAlt_of_mem {p : Phrase} {ps : List Phrase} (hp : p ∈ ps)
    (h : p.outline.Holds tokens i j ts) : (Phrase.outlineAlt ps).Holds tokens i j ts := by
  induction ps with
  | nil => cases hp
  | cons q qs ih =>
    cases qs with
    | nil =>
      obtain rfl := List.mem_singleton.1 hp
      exact h
    | cons r rs =>
      rw [Phrase.outlineAlt]
      · rcases List.mem_cons.1 hp with rfl | hp
        · exact h.either_left _
        · exact (ih hp).either_right _
      · simp

theorem outlineAny_of_mem {held : Outline} {b : Branch} {bs : List Branch} (hb : b ∈ bs)
    (h : (b.outline held).Holds tokens i j ts) : (Branch.outlineAny held bs).Holds tokens i j ts := by
  induction bs with
  | nil => cases hb
  | cons c cs ih =>
    cases cs with
    | nil =>
      obtain rfl := List.mem_singleton.1 hb
      exact h
    | cons d ds =>
      rw [Branch.outlineAny]
      · rcases List.mem_cons.1 hb with rfl | hb
        · exact h.either_left _
        · exact (ih hb).either_right _
      · simp

theorem holds_followed (hR : Describes tokens R) (hs : ∀ k, (spanTo k).start = startAt tokens i)
    {held : Outline} {ts us : List Tree} {b : Branch} (h : Followed R spanTo ts b j k us)
    (ha : held.Holds tokens i j ts) : (b.outline held).Holds tokens i k us := by
  induction h generalizing held with
  | close hr =>
    rw [Branch.outline]
    exact ((ha.inRole _).andThen (hR hr)).inKind _ (hs _)
  | more hr hb _ ih =>
    rw [Branch.outline]
    exact outlineAny_of_mem hb (ih ((ha.inRole _).andThen (hR hr)))

theorem taken_of_grown (hR : Describes tokens R) (hs : ∀ k, (spanTo k).start = startAt tokens i)
    {branches : List Branch} {ts us : List Tree} (h : Grown R spanTo branches ts j k us) (hij : i ≤ j)
    (ht : ∀ n, i ≤ n → n < j → n < tokens.size) : i ≤ k ∧ ∀ n, i ≤ n → n < k → n < tokens.size := by
  induction h with
  | stop => exact ⟨hij, ht⟩
  | more _ hf _ ih =>
    have := holds_followed hR hs hf (holds_unknown hij ht)
    exact ih this.le this.taken

theorem holds_grown (hR : Describes tokens R) (hs : ∀ k, (spanTo k).start = startAt tokens i)
    {held : Outline} {branches : List Branch} (hstable : Branch.outlineAny held branches = held)
    {ts us : List Tree} (h : Grown R spanTo branches ts j k us) (ha : held.Holds tokens i j ts) :
    held.Holds tokens i k us := by
  induction h with
  | stop => exact ha
  | more hb hf _ ih =>
    refine ih ?_
    rw [← hstable]
    exact outlineAny_of_mem hb (holds_followed hR hs hf ha)

end Outline

/-- The spellings of literals side by side are those of tokens. -/
theorem lexemeAt_of_literalsAt (budget : Nat) : ∀ {i n : Nat}, n < (literalsAt tokens budget i).length →
    ∃ spelling, lexemeAt tokens (i + n) = some (.string spelling) := by
  induction budget with
  | zero => intro i n hn; simp [literalsAt] at hn
  | succ budget ih =>
    intro i n hn
    rw [literalsAt] at hn
    split at hn
    · rename_i spelling span ht
      cases n with
      | zero => exact ⟨spelling, lexemeAt_eq ht⟩
      | succ n =>
        obtain ⟨other, ho⟩ := ih (i := i + 1) (n := n) (by simpa using hn)
        exact ⟨other, by rw [← ho, Nat.add_assoc, Nat.add_comm 1 n]⟩
    · simp at hn

/-- The node of adjacent literals holds no definition. -/
theorem isSimple_of_toNode? {expression : List Char → Option Tree} {place : Span}
    {spellings : List (List Char)} {t : Tree}
    (he : ∀ text u, expression text = some u → u.IsSimple)
    (h : Literal.toNode? expression place spellings = some t) :
    ∃ kind ts, t = .make kind place ts ∧ kind.isPlaced = true ∧ t.IsSimple := by
  rcases Literal.literal_of_toNode? (fun k => k.isDefinition = false ∧ k ≠ .classDef)
    (by decide) (by decide) (by decide) he h with
    ⟨v, rfl⟩ | ⟨ts, rfl, hts⟩
  · exact ⟨_, _, rfl, rfl, Tree.every_make.2 ⟨by decide, by simp⟩⟩
  · refine ⟨_, _, rfl, rfl, Tree.every_make.2 ⟨by decide, fun u hu => ?_⟩⟩
    exact (hts u hu).2.imp fun _ _ h => h.1

open Outline in
theorem holds_of_made {R : Readings} (hR : ∀ tokens, Describes tokens (R tokens)) {p : Phrase}
    {i j : Nat} {ts : List Tree} (h : Made R tokens p i j ts) : p.outline.Holds tokens i j ts := by
  cases h with
  | @lexeme p l t i hp ht hl =>
    have : p.outline = .ofLexeme l := by
      cases p <;> simp only [Phrase.lexeme?, Option.some.injEq, reduceCtorEq] at hp <;> subst hp <;> rfl
    rw [this]
    exact holds_ofLexeme (by rw [lexemeAt_eq ht, hl])
  | name ht => exact holds_leaf (lexemeAt_eq ht) rfl _ _
  | number ht =>
    refine holds_expression (Nat.lt_succ_self _) (fun k hik hki => ?_) rfl ?_ ?_
    · obtain rfl : k = i := by omega
      exact ⟨_, lexemeAt_eq ht, rfl⟩
    · rw [startAt, ht]
      rfl
    · exact Tree.every_make.2 ⟨by decide, by simp⟩
  | @strings spellings expression t i hl hne he ht =>
    obtain ⟨kind, us, rfl, hk, hq⟩ := isSimple_of_toNode? (fun text u hu => by
      obtain ⟨inner, j, ts, hr, hu⟩ := he text u hu
      exact (hR inner hr).simple rfl u hu) ht
    refine holds_expression ?_ (fun k hik hki => ?_) hk rfl hq
    · have := List.length_pos_iff.2 hne
      omega
    · obtain ⟨n, rfl⟩ := Nat.exists_eq_add_of_le hik
      obtain ⟨spelling, hs⟩ := lexemeAt_of_literalsAt (tokens.size - i) (n := n) (by rw [hl]; omega)
      exact ⟨_, hs, rfl⟩
  | @emit t i =>
    cases t with
    | node r k s us =>
      exact holds_unknown le_rfl fun k hik hki => absurd hki (Nat.not_lt.2 hik)
    | leaf r v =>
      have h : nothing.Holds tokens i i [] := holds_nothing i
      exact
        { h with
          opens := by intro h; cases h
          heads := by intro h; cases h
          simple := by simp
          unadorning := by simp [Phrase.outline, Tree.role]
          bare := by intro h; cases h
          count := by simp [Phrase.outline] }
  | rule hr =>
    have := hR _ hr
    rwa [grammar_outline] at this
  | seq hc => exact holds_chained (hR tokens) hc
  | alt hp hr => exact outlineAlt_of_mem hp (hR _ hr)
  | opt hr => exact (hR _ hr).either_left _
  | optNone => exact (holds_nothing _).either_right _
  | many hr => exact holds_repeated (hR tokens) hr
  | ahead _ => exact holds_nothing _
  | absent => exact holds_nothing _
  | as hr => exact (hR _ hr).inRole _
  | node hr => exact (hR _ hr).inNode _ rfl
  | fork hr hb hf =>
    exact outlineAny_of_mem hb (holds_followed (hR tokens) (fun _ => rfl) hf (hR _ hr))
  | @grow p branches i j k ts us hr hg =>
    have ha := hR _ hr
    rw [Phrase.outline]
    split
    · rename_i hstable
      exact holds_grown (hR tokens) (fun _ => rfl) hstable hg ha
    · obtain ⟨hik, ht⟩ := taken_of_grown (hR tokens) (fun _ => rfl) hg ha.le ha.taken
      exact holds_unknown hik ht
  | adorn he hr => exact (hR _ he).adorn (hR _ hr)
  | @check c p i j ts hr =>
    have := hR _ hr
    exact this

/-- Every reading is as its phrase's outline describes it. -/
theorem holds_of_run {fuel : Nat} : ∀ (tokens : Array Token), Outline.Describes tokens (Runs fuel tokens) := by
  induction fuel with
  | zero =>
    intro tokens p i j ts h
    cases h
  | succ fuel ih =>
    intro tokens p i j ts h
    exact holds_of_made ih (made_of_run h)

end CallTrace.Syntax
