import Mathlib
import CallTrace.Proofs.Outline

/-!
# Steps of indentation in a phrase

What a phrase of the grammar reads has as many steps into an indentation as out of one, and goes out of
none that it did not go into.  `Phrase.fits` finds this out from the phrase: such steps stand only around
a phrase, a step in before it and a step out behind it.  `balances_runs` says that every reading is so,
and `grammar_fits` that the rules of the grammar are.

A phrase may also be asked to read no layout at all, as the phrases do that make up a line.
-/

namespace CallTrace.Syntax

variable {tokens : Array Token}

/-! ## Depths -/

/-- How much deeper a lexeme leads. -/
def Lexeme.rise : Lexeme → Int
  | .indent => 1
  | .dedent => -1
  | _ => 0

/-- How many more steps lead in than out before a token. -/
def depthAt (tokens : Array Token) : Nat → Int
  | 0 => 0
  | k + 1 => depthAt tokens k + (lexemeAt tokens k).elim 0 Lexeme.rise

/-- The tokens from the `i`-th up to the `j`-th go out of no indentation but those that they go into,
and out of all of these. -/
structure Nested (tokens : Array Token) (i j : Nat) : Prop where
  eq : depthAt tokens j = depthAt tokens i
  le : ∀ k, i ≤ k → k ≤ j → depthAt tokens i ≤ depthAt tokens k

/-- None of the tokens from the `i`-th up to the `j`-th is layout. -/
def Unlaid (tokens : Array Token) (i j : Nat) : Prop :=
  ∀ k, i ≤ k → k < j → ∃ l, lexemeAt tokens k = some l ∧ l.isLayout = false

/-- The tokens are balanced, and without layout if the phrase is asked for none. -/
structure Fits (tokens : Array Token) (flat : Bool) (i j : Nat) : Prop where
  nested : Nested tokens i j
  unlaid : flat = true → Unlaid tokens i j

variable {flat : Bool} {i j k : Nat}

theorem depthAt_succ {l : Lexeme} (h : lexemeAt tokens i = some l) :
    depthAt tokens (i + 1) = depthAt tokens i + l.rise := by
  rw [depthAt, h]
  rfl

theorem nested_self (i : Nat) : Nested tokens i i where
  eq := rfl
  le := by
    intro k hik hki
    rw [Nat.le_antisymm hki hik]

theorem Nested.append (h₁ : Nested tokens i j) (h₂ : Nested tokens j k) : Nested tokens i k where
  eq := h₂.eq.trans h₁.eq
  le := by
    intro n hin hnk
    rcases Nat.le_total n j with hnj | hjn
    · exact h₁.le n hin hnj
    · rw [← h₁.eq]
      exact h₂.le n hjn hnk

/-- A step in, and a step out behind what is balanced. -/
theorem Nested.wrap (hi : lexemeAt tokens i = some .indent) (h : Nested tokens (i + 1) j)
    (hj : lexemeAt tokens j = some .dedent) : Nested tokens i (j + 1) := by
  have hin : depthAt tokens (i + 1) = depthAt tokens i + 1 := depthAt_succ hi
  have hout : depthAt tokens (j + 1) = depthAt tokens j - 1 := depthAt_succ hj
  have heq := h.eq
  constructor
  · omega
  · intro k hik hkj
    rcases Nat.lt_or_eq_of_le hik with hik | rfl
    · rcases Nat.lt_or_eq_of_le hkj with hkj | rfl
      · have := h.le k hik (Nat.le_of_lt_succ hkj)
        omega
      · omega
    · exact le_rfl

theorem fits_self (i : Nat) : Fits tokens flat i i :=
  ⟨nested_self i, fun _ _ hik hki => absurd hki (Nat.not_lt.2 hik)⟩

theorem Fits.append (h₁ : Fits tokens flat i j) (h₂ : Fits tokens flat j k) : Fits tokens flat i k where
  nested := h₁.nested.append h₂.nested
  unlaid := by
    intro hflat n hin hnk
    rcases Nat.lt_or_ge n j with hnj | hjn
    · exact h₁.unlaid hflat n hin hnj
    · exact h₂.unlaid hflat n hjn hnk

/-- A token that is no step of indentation. -/
theorem fits_lexeme {l : Lexeme} (h : lexemeAt tokens i = some l) (hrise : l.rise = 0)
    (hflat : flat = true → l.isLayout = false) : Fits tokens flat i (i + 1) where
  nested :=
    { eq := by rw [depthAt_succ h, hrise, add_zero]
      le := by
        intro k hik hki
        obtain rfl | rfl : k = i ∨ k = i + 1 := by omega
        · exact le_rfl
        · rw [depthAt_succ h, hrise, add_zero] }
  unlaid := by
    intro hf k hik hki
    obtain rfl : k = i := by omega
    exact ⟨l, h, hflat hf⟩

theorem Lexeme.rise_of_not_layout {l : Lexeme} (h : l.isLayout = false) : l.rise = 0 := by
  cases l <;> first | rfl | cases h

theorem fits_of_unlaid (hij : i ≤ j) (h : Unlaid tokens i j) : Fits tokens flat i j := by
  induction j, hij using Nat.le_induction with
  | base => exact fits_self i
  | succ j hij ih =>
    obtain ⟨l, hl, hlayout⟩ := h j hij (Nat.lt_succ_self j)
    exact (ih fun k hik hkj => h k hik (Nat.lt_succ_of_lt hkj)).append
      (fits_lexeme hl (Lexeme.rise_of_not_layout hlayout) fun _ => hlayout)

/-! ## Phrases -/

mutual
/-- The phrase reads balanced tokens, and no layout if it is asked for none. -/
def Phrase.fits (flat : Bool) : Phrase → Bool
  | .newline => !flat
  | .finish => !flat
  | .indent => false
  | .dedent => false
  | .rule r => !flat || (r ≠ .statement && r ≠ .elifTail)
  | .seq ps => Phrase.fitsSeq flat ps
  | .alt ps => Phrase.fitsAll flat ps
  | .opt p => p.fits flat
  | .many p => p.fits flat
  | .as _ p => p.fits flat
  | .node _ p => p.fits flat
  | .fork p branches => p.fits flat && Branch.fitsAll flat branches
  | .grow p branches => p.fits flat && Branch.fitsAll flat branches
  | .adorn extra p => extra.fits flat && p.fits flat
  | .check _ p => p.fits flat
  | _ => true
/-- The same for phrases one after the other, with steps around some of them. -/
def Phrase.fitsSeq (flat : Bool) : List Phrase → Bool
  | [] => true
  | .indent :: p :: .dedent :: ps => !flat && p.fits flat && Phrase.fitsSeq flat ps
  | p :: ps => p.fits flat && Phrase.fitsSeq flat ps
/-- The same for each of several phrases. -/
def Phrase.fitsAll (flat : Bool) : List Phrase → Bool
  | [] => true
  | p :: ps => p.fits flat && Phrase.fitsAll flat ps
/-- The same for a branch. -/
def Branch.fits (flat : Bool) : Branch → Bool
  | .close _ _ rest => rest.fits flat
  | .more _ rest branches => rest.fits flat && Branch.fitsAll flat branches
/-- The same for each of several branches. -/
def Branch.fitsAll (flat : Bool) : List Branch → Bool
  | [] => true
  | b :: bs => b.fits flat && Branch.fitsAll flat bs
end

/-- The rules of the grammar are balanced, and those of expressions read no layout. -/
theorem grammar_fits (flat : Bool) (r : Rule) (h : (Phrase.rule r).fits flat = true) :
    (grammar r).fits flat = true := by
  cases flat with
  | false => cases r <;> rfl
  | true => cases r <;> first | rfl | cases h

/-- How phrases are read: balanced, where they fit, and one token at a time. -/
structure Balances (tokens : Array Token) (flat : Bool) (R : Phrase → Nat → Nat → List Tree → Prop) :
    Prop where
  fits {p : Phrase} {i j : Nat} {ts : List Tree} : R p i j ts → p.fits flat = true → Fits tokens flat i j
  lexeme {p : Phrase} {l : Lexeme} {i j : Nat} {ts : List Tree} : R p i j ts → p.lexeme? = some l →
    j = i + 1 ∧ lexemeAt tokens i = some l

theorem fits_of_mem {p : Phrase} {ps : List Phrase} (hp : p ∈ ps) (h : Phrase.fitsAll flat ps = true) :
    p.fits flat = true := by
  induction ps with
  | nil => cases hp
  | cons q qs ih =>
    rw [Phrase.fitsAll, Bool.and_eq_true] at h
    rcases List.mem_cons.1 hp with rfl | hp
    · exact h.1
    · exact ih hp h.2

theorem fits_of_mem_branches {b : Branch} {bs : List Branch} (hb : b ∈ bs)
    (h : Branch.fitsAll flat bs = true) : b.fits flat = true := by
  induction bs with
  | nil => cases hb
  | cons c cs ih =>
    rw [Branch.fitsAll, Bool.and_eq_true] at h
    rcases List.mem_cons.1 hb with rfl | hb
    · exact h.1
    · exact ih hb h.2

section Combinations

variable {R : Phrase → Nat → Nat → List Tree → Prop} (hR : Balances tokens flat R) {spanTo : Nat → Span}

include hR

/-- Phrases one after the other: a step in, the phrase after it and a step out behind that are taken
together. -/
theorem fits_chained : ∀ {ps : List Phrase} {i j : Nat} {ts : List Tree}, Chained R ps i j ts →
    Phrase.fitsSeq flat ps = true → Fits tokens flat i j
  | [], i, j, ts, h, _ => by
    cases h
    exact fits_self i
  | p :: ps, i, j, ts, h, hp => by
    unfold Phrase.fitsSeq at hp
    split at hp
    · cases ‹_ :: _ = []›
    · rename_i q rest heq
      obtain ⟨rfl, rfl⟩ := List.cons.inj heq
      simp only [Bool.and_eq_true, Bool.not_eq_true'] at hp
      obtain ⟨⟨hflat, hq⟩, hrest⟩ := hp
      cases h with
      | cons hindent h =>
      cases h with
      | cons hinner h =>
      cases h with
      | cons hdedent h =>
      obtain ⟨rfl, hi⟩ := hR.lexeme hindent (l := .indent) rfl
      obtain ⟨rfl, hd⟩ := hR.lexeme hdedent (l := .dedent) rfl
      have hwrap : Fits tokens flat i _ := ⟨(hR.fits hinner hq).nested.wrap hi hd, fun h => by
        rw [hflat] at h
        cases h⟩
      exact hwrap.append (fits_chained h hrest)
    · rename_i p' rest _ heq
      obtain ⟨rfl, rfl⟩ := List.cons.inj heq
      rw [Bool.and_eq_true] at hp
      cases h with
      | cons hfirst h => exact (hR.fits hfirst hp.1).append (fits_chained h hp.2)

theorem fits_repeated {p : Phrase} {i j : Nat} {ts : List Tree} (h : Repeated R p i j ts)
    (hp : p.fits flat = true) : Fits tokens flat i j := by
  induction h with
  | stop => exact fits_self _
  | more hr _ _ ih => exact (hR.fits hr hp).append ih

theorem fits_followed {b : Branch} {held ts : List Tree} {i j : Nat} (h : Followed R spanTo held b i j ts)
    (hb : b.fits flat = true) : Fits tokens flat i j := by
  induction h with
  | close hr => exact hR.fits hr hb
  | more hr hc _ ih =>
    rw [Branch.fits, Bool.and_eq_true] at hb
    exact (hR.fits hr hb.1).append (ih (fits_of_mem_branches hc hb.2))

theorem fits_grown {branches : List Branch} {held ts : List Tree} {i j : Nat}
    (h : Grown R spanTo branches held i j ts) (hb : Branch.fitsAll flat branches = true) :
    Fits tokens flat i j := by
  induction h with
  | stop => exact fits_self _
  | more hc hf _ ih => exact (fits_followed hR hf (fits_of_mem_branches hc hb)).append ih

end Combinations

theorem Lexeme.rise_of_lexeme? {p : Phrase} {l : Lexeme} (h : p.lexeme? = some l)
    (hp : p.fits flat = true) : l.rise = 0 ∧ (flat = true → l.isLayout = false) := by
  cases p <;> simp_all [Phrase.lexeme?, Phrase.fits] <;> subst h <;> simp_all [Lexeme.rise, Lexeme.isLayout]

theorem fits_of_made {R : Readings} (hR : ∀ tokens, Balances tokens flat (R tokens)) {p : Phrase}
    {i j : Nat} {ts : List Tree} (h : Made R tokens p i j ts) (hp : p.fits flat = true) :
    Fits tokens flat i j := by
  cases h with
  | lexeme hl ht he =>
    obtain ⟨hrise, hlayout⟩ := Lexeme.rise_of_lexeme? hl hp
    exact fits_lexeme (by rw [lexemeAt_eq ht, he]) hrise hlayout
  | name ht => exact fits_lexeme (lexemeAt_eq ht) rfl fun _ => rfl
  | number ht => exact fits_lexeme (lexemeAt_eq ht) rfl fun _ => rfl
  | strings hl _ _ _ =>
    refine fits_of_unlaid (Nat.le_add_right _ _) fun k hik hki => ?_
    obtain ⟨n, rfl⟩ := Nat.exists_eq_add_of_le hik
    obtain ⟨spelling, h⟩ : ∃ spelling, lexemeAt tokens (i + n) = some (.string spelling) :=
      lexemeAt_of_literalsAt (tokens.size - i) (by rw [hl]; omega)
    exact ⟨_, h, rfl⟩
  | emit => exact fits_self i
  | rule hr => exact (hR _).fits hr (grammar_fits _ _ hp)
  | seq hc => exact fits_chained (hR _) hc hp
  | alt hq hr => exact (hR _).fits hr (fits_of_mem hq hp)
  | opt hr => exact (hR _).fits hr hp
  | optNone => exact fits_self i
  | many hr => exact fits_repeated (hR _) hr hp
  | ahead _ => exact fits_self i
  | absent => exact fits_self i
  | as hr => exact (hR _).fits hr hp
  | node hr => exact (hR _).fits hr hp
  | fork hr hb hf =>
    rw [Phrase.fits, Bool.and_eq_true] at hp
    exact ((hR _).fits hr hp.1).append (fits_followed (hR _) hf (fits_of_mem_branches hb hp.2))
  | grow hr hg =>
    rw [Phrase.fits, Bool.and_eq_true] at hp
    exact ((hR _).fits hr hp.1).append (fits_grown (hR _) hg hp.2)
  | adorn he hr =>
    rw [Phrase.fits, Bool.and_eq_true] at hp
    exact ((hR _).fits he hp.1).append ((hR _).fits hr hp.2)
  | check hr => exact (hR _).fits hr hp

/-- What is read by a phrase that fits is balanced. -/
theorem balances_runs (flat : Bool) (fuel : Nat) : ∀ tokens, Balances tokens flat (Runs fuel tokens) := by
  induction fuel with
  | zero =>
    intro tokens
    exact ⟨nofun, nofun⟩
  | succ fuel ih =>
    intro tokens
    refine ⟨fun h hp => fits_of_made ih (made_of_run h) hp, fun h hl => ?_⟩
    cases made_of_run h with
    | lexeme hp ht he =>
      rw [hl, Option.some.injEq] at hp
      exact ⟨rfl, by rw [lexemeAt_eq ht, he, hp]⟩
    | _ => cases hl

end CallTrace.Syntax
