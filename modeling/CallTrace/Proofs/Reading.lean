import Mathlib
import CallTrace.Syntax.Grammar.Run

/-!
# What a reading consists of

`Phrase.run` is a function with fuel; a proof about the trees that it yields wants the readings that
a reading is made of.  `Made R tokens p i j ts` says how the phrase `p` reads the tokens from the
`i`-th up to the `j`-th as the trees `ts` when its parts read as `R` says.  The order of choices is
left aside: nothing is said of the choices that failed.

`made_of_run` says that every run is made in this way of runs with less fuel.
-/

namespace CallTrace.Syntax

/-- How phrases read: the tokens, the phrase, where the reading begins and ends, and its trees. -/
abbrev Readings := Array Token → Phrase → Nat → Nat → List Tree → Prop

/-- The lexeme that a phrase asks for when it is one token without a value. -/
def Phrase.lexeme? : Phrase → Option Lexeme
  | .keyword k => some (.keyword k)
  | .sign s => some (.sign s)
  | .soft word => some (.name word)
  | .newline => some .newline
  | .indent => some .indent
  | .dedent => some .dedent
  | .finish => some .finish
  | _ => none

section Combinations

variable (R : Phrase → Nat → Nat → List Tree → Prop) (spanTo : Nat → Span)

/-- One phrase after the other. -/
inductive Chained : List Phrase → Nat → Nat → List Tree → Prop
  | nil {i : Nat} : Chained [] i i []
  | cons {p : Phrase} {ps : List Phrase} {i j k : Nat} {ts us : List Tree} :
      R p i j ts → Chained ps j k us → Chained (p :: ps) i k (ts ++ us)

/-- One phrase again and again. -/
inductive Repeated (p : Phrase) : Nat → Nat → List Tree → Prop
  | stop {i : Nat} : Repeated p i i []
  | more {i j k : Nat} {ts us : List Tree} :
      R p i j ts → i < j → Repeated p j k us → Repeated p i k (ts ++ us)

/-- A branch after the trees `held`. -/
inductive Followed : List Tree → Branch → Nat → Nat → List Tree → Prop
  | close {held ts : List Tree} {role : Role} {kind : Option Kind} {rest : Phrase} {i j : Nat} :
      R rest i j ts →
      Followed held (.close role kind rest) i j
        (Reader.wrap kind (spanTo j) (held.map (·.assume role) ++ ts))
  | more {held ts us : List Tree} {role : Role} {rest : Phrase} {b : Branch} {branches : List Branch}
      {i j k : Nat} :
      R rest i j ts → b ∈ branches → Followed (held.map (·.assume role) ++ ts) b j k us →
      Followed held (.more role rest branches) i k us

/-- Branches again and again. -/
inductive Grown (branches : List Branch) : List Tree → Nat → Nat → List Tree → Prop
  | stop {held : List Tree} {i : Nat} : Grown branches held i i held
  | more {held ts us : List Tree} {b : Branch} {i j k : Nat} :
      b ∈ branches → Followed R spanTo held b i j ts → Grown branches ts j k us →
      Grown branches held i k us

end Combinations

/-- How a phrase reads when its parts read as `R` says. -/
inductive Made (R : Readings) (tokens : Array Token) : Phrase → Nat → Nat → List Tree → Prop
  | lexeme {p : Phrase} {l : Lexeme} {t : Token} {i : Nat} :
      p.lexeme? = some l → tokens[i]? = some t → t.lexeme = l → Made R tokens p i (i + 1) []
  | name {role : Role} {spelling : List Char} {span : Span} {i : Nat} :
      tokens[i]? = some ⟨.name spelling, span⟩ →
      Made R tokens (.name role) i (i + 1) [.leaf role (.word (Unicode.normalize spelling))]
  | number {value : Numeral} {span : Span} {i : Nat} :
      tokens[i]? = some ⟨.number value, span⟩ →
      Made R tokens .number i (i + 1) [.make .constant span [.leaf .value (.number value)]]
  | strings {spellings : List (List Char)} {expression : List Char → Option Tree} {t : Tree} {i : Nat} :
      literalsAt tokens (tokens.size - i) i = spellings → spellings ≠ [] →
      (∀ text u, expression text = some u → ∃ inner j ts,
        R inner Grammar.starExpressions 0 j ts ∧ u ∈ ts) →
      Literal.toNode? expression (spanBetween tokens i (i + spellings.length)) spellings = some t →
      Made R tokens .strings i (i + spellings.length) [t]
  | emit {t : Tree} {i : Nat} : Made R tokens (.emit t) i i [t]
  | rule {r : Rule} {i j : Nat} {ts : List Tree} :
      R tokens (grammar r) i j ts → Made R tokens (.rule r) i j ts
  | seq {ps : List Phrase} {i j : Nat} {ts : List Tree} :
      Chained (R tokens) ps i j ts → Made R tokens (.seq ps) i j ts
  | alt {p : Phrase} {ps : List Phrase} {i j : Nat} {ts : List Tree} :
      p ∈ ps → R tokens p i j ts → Made R tokens (.alt ps) i j ts
  | opt {p : Phrase} {i j : Nat} {ts : List Tree} : R tokens p i j ts → Made R tokens (.opt p) i j ts
  | optNone {p : Phrase} {i : Nat} : Made R tokens (.opt p) i i []
  | many {p : Phrase} {i j : Nat} {ts : List Tree} :
      Repeated (R tokens) p i j ts → Made R tokens (.many p) i j ts
  | ahead {p : Phrase} {i j : Nat} {ts : List Tree} :
      R tokens p i j ts → Made R tokens (.ahead p) i i []
  | absent {p : Phrase} {i : Nat} : Made R tokens (.absent p) i i []
  | as {role : Role} {p : Phrase} {i j : Nat} {ts : List Tree} :
      R tokens p i j ts → Made R tokens (.as role p) i j (ts.map (·.assume role))
  | node {kind : Kind} {p : Phrase} {i j : Nat} {ts : List Tree} :
      R tokens p i j ts → Made R tokens (.node kind p) i j [.make kind (spanBetween tokens i j) ts]
  | fork {p : Phrase} {b : Branch} {branches : List Branch} {i j k : Nat} {ts us : List Tree} :
      R tokens p i j ts → b ∈ branches → Followed (R tokens) (spanBetween tokens i) ts b j k us →
      Made R tokens (.fork p branches) i k us
  | grow {p : Phrase} {branches : List Branch} {i j k : Nat} {ts us : List Tree} :
      R tokens p i j ts → Grown (R tokens) (spanBetween tokens i) branches ts j k us →
      Made R tokens (.grow p branches) i k us
  | adorn {extra p : Phrase} {i j k : Nat} {more ts : List Tree} :
      R tokens extra i j more → R tokens p j k ts →
      Made R tokens (.adorn extra p) i k (ts.map (·.extend more))
  | check {c : Check} {p : Phrase} {i j : Nat} {ts : List Tree} :
      R tokens p i j ts → Made R tokens (.check c p) i j ts

/-! ## Runs -/

section Readers

variable {read : Phrase → Reader} {spanTo : Nat → Span}

/-- What a reader of phrases reads. -/
def Reader.Reads (read : Phrase → Reader) (p : Phrase) (i j : Nat) (ts : List Tree) : Prop :=
  read p i = some (j, ts)

theorem chained_of_chain {ps : List Phrase} : ∀ {i k : Nat} {ts : List Tree},
    Reader.chain read ps i = some (k, ts) → Chained (Reader.Reads read) ps i k ts := by
  induction ps with
  | nil =>
    intro i k ts h
    simp only [Reader.chain, Option.some.injEq, Prod.mk.injEq] at h
    obtain ⟨rfl, rfl⟩ := h
    exact .nil
  | cons p ps ih =>
    intro i k ts h
    rw [Reader.chain] at h
    cases hp : read p i with
    | none => simp [hp] at h
    | some r =>
      obtain ⟨j, us⟩ := r
      simp only [hp] at h
      cases hps : Reader.chain read ps j with
      | none => simp [hps] at h
      | some r =>
        obtain ⟨k', vs⟩ := r
        simp only [hps, Option.some.injEq, Prod.mk.injEq] at h
        obtain ⟨rfl, rfl⟩ := h
        exact .cons hp (ih hps)

theorem exists_of_first {ps : List Phrase} {i : Nat} {r : Reading}
    (h : Reader.first read ps i = some r) : ∃ p ∈ ps, read p i = some r := by
  induction ps with
  | nil => cases h
  | cons p ps ih =>
    rw [Reader.first] at h
    cases hp : read p i with
    | none =>
      simp only [hp] at h
      obtain ⟨q, hq, hr⟩ := ih h
      exact ⟨q, List.mem_cons_of_mem p hq, hr⟩
    | some r' =>
      simp only [hp, Option.some.injEq] at h
      exact ⟨p, List.mem_cons_self, by rw [hp, h]⟩

theorem repeated_of_repeated {p : Phrase} {budget : Nat} : ∀ {i k : Nat} {ts : List Tree},
    Reader.repeated (read p) budget i = some (k, ts) → Repeated (Reader.Reads read) p i k ts := by
  induction budget with
  | zero =>
    intro i k ts h
    simp only [Reader.repeated, Option.some.injEq, Prod.mk.injEq] at h
    obtain ⟨rfl, rfl⟩ := h
    exact .stop
  | succ budget ih =>
    intro i k ts h
    rw [Reader.repeated] at h
    cases hp : read p i with
    | none =>
      simp only [hp, Option.some.injEq, Prod.mk.injEq] at h
      obtain ⟨rfl, rfl⟩ := h
      exact .stop
    | some r =>
      obtain ⟨j, us⟩ := r
      simp only [hp] at h
      split at h
      · simp only [Option.some.injEq, Prod.mk.injEq] at h
        obtain ⟨rfl, rfl⟩ := h
        exact .stop
      · rename_i hij
        cases hr : Reader.repeated (read p) budget j with
        | none => simp [hr] at h
        | some r =>
          obtain ⟨k', vs⟩ := r
          simp only [hr, Option.some.injEq, Prod.mk.injEq] at h
          obtain ⟨rfl, rfl⟩ := h
          exact .more hp (Nat.lt_of_not_le hij) (ih hr)

mutual

theorem followed_of_follow : ∀ (b : Branch) {held ts : List Tree} {i k : Nat},
    Reader.follow read spanTo held b i = some (k, ts) →
      Followed (Reader.Reads read) spanTo held b i k ts
  | .close role kind rest, held, ts, i, k, h => by
    rw [Reader.follow] at h
    cases hr : read rest i with
    | none => simp [hr] at h
    | some r =>
      obtain ⟨j, us⟩ := r
      simp only [hr, Option.some.injEq, Prod.mk.injEq] at h
      obtain ⟨rfl, rfl⟩ := h
      exact .close hr
  | .more role rest branches, held, ts, i, k, h => by
    rw [Reader.follow] at h
    cases hr : read rest i with
    | none => simp [hr] at h
    | some r =>
      obtain ⟨j, us⟩ := r
      simp only [hr] at h
      obtain ⟨b, hb, hf⟩ := followed_of_followFirst branches h
      exact .more hr hb hf

theorem followed_of_followFirst : ∀ (bs : List Branch) {held ts : List Tree} {i k : Nat},
    Reader.followFirst read spanTo held bs i = some (k, ts) →
      ∃ b ∈ bs, Followed (Reader.Reads read) spanTo held b i k ts
  | [], held, ts, i, k, h => by
    rw [Reader.followFirst] at h
    cases h
  | b :: bs, held, ts, i, k, h => by
    rw [Reader.followFirst] at h
    cases hb : Reader.follow read spanTo held b i with
    | none =>
      simp only [hb] at h
      obtain ⟨c, hc, hf⟩ := followed_of_followFirst bs h
      exact ⟨c, List.mem_cons_of_mem b hc, hf⟩
    | some r =>
      simp only [hb, Option.some.injEq] at h
      subst h
      exact ⟨b, List.mem_cons_self, followed_of_follow b hb⟩

end

theorem grown_of_growth {branches : List Branch} {budget : Nat} : ∀ {held ts : List Tree} {i k : Nat},
    Reader.growth (fun k held => Reader.followFirst read spanTo held branches k) budget i held =
      (k, ts) → Grown (Reader.Reads read) spanTo branches held i k ts := by
  induction budget with
  | zero =>
    intro held ts i k h
    simp only [Reader.growth, Prod.mk.injEq] at h
    obtain ⟨rfl, rfl⟩ := h
    exact .stop
  | succ budget ih =>
    intro held ts i k h
    rw [Reader.growth] at h
    cases hf : Reader.followFirst read spanTo held branches i with
    | none =>
      simp only [hf, Prod.mk.injEq] at h
      obtain ⟨rfl, rfl⟩ := h
      exact .stop
    | some r =>
      obtain ⟨j, us⟩ := r
      simp only [hf] at h
      obtain ⟨b, hb, hbf⟩ := followed_of_followFirst branches hf
      exact .more hb hbf (ih h)

end Readers

/-- The readings of runs with the given fuel. -/
def Runs (fuel : Nat) : Readings :=
  fun tokens => Reader.Reads (Phrase.run fuel tokens)

theorem takeLexeme_eq_some {tokens : Array Token} {l : Lexeme} {i j : Nat} {ts : List Tree}
    (h : takeLexeme tokens l i = some (j, ts)) :
    j = i + 1 ∧ ts = [] ∧ ∃ t, tokens[i]? = some t ∧ t.lexeme = l := by
  rw [takeLexeme] at h
  split at h
  · rename_i t ht
    split at h
    · rename_i hl
      simp only [Option.some.injEq, Prod.mk.injEq] at h
      exact ⟨h.1.symm, h.2.symm, t, ht, hl⟩
    · cases h
  · cases h

theorem made_of_takeLexeme {R : Readings} {tokens : Array Token} {p : Phrase} {l : Lexeme} {i j : Nat}
    {ts : List Tree} (hp : p.lexeme? = some l) (h : takeLexeme tokens l i = some (j, ts)) :
    Made R tokens p i j ts := by
  obtain ⟨rfl, rfl, t, ht, hl⟩ := takeLexeme_eq_some h
  exact .lexeme hp ht hl

/-- A run is made of runs with less fuel. -/
theorem made_of_run {fuel : Nat} {tokens : Array Token} {p : Phrase} {i j : Nat} {ts : List Tree}
    (h : Runs (fuel + 1) tokens p i j ts) : Made (Runs fuel) tokens p i j ts := by
  rw [Runs, Reader.Reads] at h
  cases p <;> simp only [Phrase.run] at h
  case keyword k => exact made_of_takeLexeme rfl h
  case sign s => exact made_of_takeLexeme rfl h
  case soft word => exact made_of_takeLexeme rfl h
  case newline => exact made_of_takeLexeme rfl h
  case indent => exact made_of_takeLexeme rfl h
  case dedent => exact made_of_takeLexeme rfl h
  case finish => exact made_of_takeLexeme rfl h
  case name role =>
    split at h
    · rename_i spelling span ht
      simp only [Option.some.injEq, Prod.mk.injEq] at h
      obtain ⟨rfl, rfl⟩ := h
      exact .name ht
    · cases h
  case number =>
    split at h
    · rename_i value span ht
      simp only [Option.some.injEq, Prod.mk.injEq] at h
      obtain ⟨rfl, rfl⟩ := h
      exact .number ht
    · cases h
  case strings =>
    split at h
    · cases h
    · rename_i hne
      simp only [Option.map_eq_some_iff, Prod.mk.injEq] at h
      obtain ⟨t, ht, rfl, rfl⟩ := h
      refine .strings rfl (by simpa using hne) (fun text u hu => ?_) ht
      simp only [Option.bind_eq_bind, Option.bind_eq_some_iff] at hu
      obtain ⟨inner, -, ⟨k, us⟩, hr, hu⟩ := hu
      exact ⟨inner.toArray, k, us, hr, List.mem_of_mem_head? hu⟩
  case emit t =>
    simp only [Option.some.injEq, Prod.mk.injEq] at h
    obtain ⟨rfl, rfl⟩ := h
    exact .emit
  case rule r => exact .rule h
  case seq ps => exact .seq (chained_of_chain h)
  case alt ps =>
    obtain ⟨p, hp, hr⟩ := exists_of_first h
    exact .alt hp hr
  case opt p =>
    cases hp : Phrase.run fuel tokens p i with
    | none =>
      simp only [hp, Option.none_or, Option.some.injEq, Prod.mk.injEq] at h
      obtain ⟨rfl, rfl⟩ := h
      exact .optNone
    | some r =>
      simp only [hp, Option.some_or, Option.some.injEq] at h
      subst h
      exact .opt hp
  case many p => exact .many (repeated_of_repeated h)
  case ahead p =>
    simp only [Option.map_eq_some_iff, Prod.mk.injEq] at h
    obtain ⟨⟨k, us⟩, hp, rfl, rfl⟩ := h
    exact .ahead hp
  case absent p =>
    split at h
    · cases h
    · simp only [Option.some.injEq, Prod.mk.injEq] at h
      obtain ⟨rfl, rfl⟩ := h
      exact .absent
  case as role p =>
    simp only [Option.map_eq_some_iff, Prod.mk.injEq] at h
    obtain ⟨⟨k, us⟩, hp, rfl, rfl⟩ := h
    exact .as hp
  case node kind p =>
    simp only [Option.map_eq_some_iff, Prod.mk.injEq] at h
    obtain ⟨⟨k, us⟩, hp, rfl, rfl⟩ := h
    exact .node hp
  case fork p branches =>
    obtain ⟨⟨k, us⟩, hp, hf⟩ := Option.bind_eq_some_iff.1 h
    obtain ⟨b, hb, hbf⟩ := followed_of_followFirst branches hf
    exact .fork hp hb hbf
  case grow p branches =>
    simp only [Option.map_eq_some_iff] at h
    obtain ⟨⟨k, us⟩, hp, hg⟩ := h
    exact .grow hp (grown_of_growth hg)
  case adorn extra p =>
    obtain ⟨⟨k, us⟩, he, hp⟩ := Option.bind_eq_some_iff.1 h
    simp only [Option.map_eq_some_iff, Prod.mk.injEq] at hp
    obtain ⟨⟨k', vs⟩, hp, rfl, rfl⟩ := hp
    exact .adorn he hp
  case check c p =>
    obtain ⟨hp, -⟩ := Option.filter_eq_some_iff.1 h
    exact .check hp

end CallTrace.Syntax
