import Mathlib
import CallTrace.Proofs.Kinds
import CallTrace.Proofs.Laying
import CallTrace.Proofs.Newlines
import CallTrace.Proofs.Tokens
import CallTrace.Source.Query

/-!
# Parsed texts

`Parsed text s tokens a b` says what parsing gives for a text whose last line is ended: the tokens of the
text, where they lie, and a tree that is laid on them.  `Parsed.startAt_eq` and `Parsed.exists_stop`
say that places between tokens are ends of tokens.
-/

namespace CallTrace

open Syntax Text

/-- A source with the tokens that it was read from; the `i`-th lies from the `a i`-th character of the
text as it is read up to the `b i`-th. -/
structure Parsed (text : List Char) (s : Source) (tokens : Array Token) (a b : Nat → Nat) : Prop where
  table : s.table = .ofText text
  terminated : IsTerminated text
  scanned : scanTokens (normalizeNewlines text) = some tokens.toList
  lies : LieAt text tokens a b
  laid : Laid tokens ⟨s.tree, 0, tokens.size⟩
  root : s.tree.is .moduleBody = true
  /-- No program is part of another. -/
  inner : ∀ t ∈ s.tree.items, t.Lacks .moduleBody
  /-- Every logical line ends. -/
  ends : ∀ i, StartsAt tokens i → ∃ e, i < e ∧ lexemeAt tokens e = some .newline
  literals : s.literals = s.tree.walk.filterMap fun p => Source.literalSpan? p.tree

/-- Statements one after the other end a logical line. -/
theorem endedAt_of_repeated {tokens : Array Token} {fuel i j : Nat} {ts : List Tree}
    (h : Repeated (Runs fuel tokens) (.rule .statement) i j ts) : j = i ∨ EndedAt tokens j := by
  induction h with
  | stop => exact Or.inl rfl
  | more h _ _ ih =>
    rcases ih with rfl | ih
    · exact Or.inr ((holds_of_run tokens h).closes rfl)
    · exact Or.inr ih

/-- A whole program takes all tokens. -/
theorem laid_of_program {text : List Char} {tokens : Array Token} {a b : Nat → Nat} {fuel j : Nat}
    {ts : List Tree} (hl : LieAt text tokens a b) (h : Runs fuel tokens Grammar.program 0 j ts) :
    ∃ t, ts = [t] ∧ Laid tokens ⟨t, 0, tokens.size⟩ ∧ t.is .moduleBody = true ∧
      (∀ u ∈ t.items, u.Lacks .moduleBody) ∧ ∀ i, StartsAt tokens i → ∃ e, i < e ∧ lexemeAt tokens e = some .newline := by
  obtain ⟨-, hw⟩ := lay fuel h (isKnown_of_irregular [] rfl (by simp))
  obtain ⟨t, rfl, hlaid⟩ := hw rfl
  obtain ⟨m, hm, us, h, ht⟩ := h.node
  have hinner := lacks_moduleBody h rfl
  obtain ⟨m', hm', hc⟩ := h.seq
  obtain ⟨k₁, us₁, vs₁, rfl, h₁, hc⟩ := hc.uncons
  obtain ⟨k₂, us₂, vs₂, rfl, h₂, hc⟩ := hc.uncons
  obtain ⟨rfl, rfl⟩ := hc.eq_of_nil
  obtain ⟨rfl, rfl, hfinish⟩ := h₂.lexeme (l := .finish) rfl
  obtain ⟨u, hu, hlex⟩ := Option.map_eq_some_iff.1 hfinish
  rw [hl.finish hu hlex] at hlaid
  refine ⟨t, rfl, hlaid, ?_, fun u hu => ?_, fun i hi => ?_⟩
  · obtain rfl := List.singleton_inj.1 ht
    rfl
  · obtain rfl := List.singleton_inj.1 ht
    exact hinner u (Tree.mem_arrange.1 hu)
  · obtain ⟨n, -, vs, h₁, -⟩ := h₁.as
    obtain ⟨n', -, hr⟩ := h₁.many
    obtain ⟨l, hlex', hnot⟩ := hi
    have hik : i < k₁ := by
      have hsize := hl.finish hu hlex
      have hlt := lt_size_of_lexemeAt hlex'
      rcases Nat.lt_or_eq_of_le (Nat.le_of_lt_succ (hsize ▸ hlt)) with h | rfl
      · exact h
      · rw [hfinish, Option.some.injEq] at hlex'
        rw [← hlex'] at hnot
        cases hnot
    rcases endedAt_of_repeated hr with rfl | ⟨e, he, hnewline, hlayout⟩
    · omega
    · refine ⟨e, ?_, hnewline⟩
      by_contra hle
      obtain ⟨l', hl', hlay⟩ := hlayout i (Nat.not_lt.1 hle) hik
      rw [hlex', Option.some.injEq] at hl'
      rw [← hl', hnot] at hlay
      cases hlay

/-- What a source is made of: the tokens of the text, read as a program. -/
theorem Source.exists_program {text : List Char} {s : Source} (h : IsTerminated text)
    (hp : Source.parse text = .ok s) : ∃ (tokens : List Token) (fuel j : Nat) (ts : List Tree),
      s.table = .ofText text ∧ s.literals = (s.tree.walk.filterMap fun p => literalSpan? p.tree) ∧
      scanTokens (normalizeNewlines text) = some tokens ∧
      Runs fuel tokens.toArray Grammar.program 0 j ts ∧ ts.head? = some s.tree := by
  rw [Source.parse] at hp
  split at hp
  · cases hp
  rw [terminated_normalizeNewlines, h] at hp
  cases hparse : parseLines (normalizeNewlines text) with
  | none => simp [hparse] at hp
  | some tree =>
    simp only [hparse, Except.ok.injEq] at hp
    subst hp
    simp only [parseLines, Option.bind_eq_bind, Option.bind_eq_some_iff] at hparse
    obtain ⟨tokens, hscan, ⟨j, ts⟩, hrun, hhead⟩ := hparse
    exact ⟨tokens, _, j, ts, rfl, rfl, hscan, hrun, hhead⟩

/-- So its tree is in what is read of its tokens. -/
theorem Source.exists_run {text : List Char} {s : Source} {tokens : Array Token} (h : IsTerminated text)
    (hp : Source.parse text = .ok s)
    (hscan : scanTokens (normalizeNewlines text) = some tokens.toList) :
    ∃ fuel j ts, Runs fuel tokens Grammar.program 0 j ts ∧ s.tree ∈ ts := by
  obtain ⟨found, fuel, j, ts, -, -, hfound, hrun, hhead⟩ := Source.exists_program h hp
  obtain rfl := Option.some.inj (hscan.symm.trans hfound)
  rw [Array.toArray_toList] at hrun
  exact ⟨fuel, j, ts, hrun, List.mem_of_mem_head? hhead⟩

theorem parsed_of_parse {text : List Char} {s : Source} (h : IsTerminated text)
    (hp : Source.parse text = .ok s) :
    ∃ tokens a b, Parsed text s tokens a b := by
  obtain ⟨tokens, fuel, j, ts, htable, hliterals, hscan, hrun, hhead⟩ := Source.exists_program h hp
  obtain ⟨a, b, hl⟩ := lies_of_scanTokens hscan
  obtain ⟨t, rfl, hlaid, hroot, hinner, hends⟩ := laid_of_program hl hrun
  obtain rfl := Option.some.inj hhead
  exact ⟨tokens.toArray, a, b, htable, h, hscan, hl, hlaid, hroot, hinner, hends, hliterals⟩

/-- What comes without an error, and what can be computed of it. -/
theorem exists_of_toOption {ε α : Type} {e : Except ε α} {p : α → Bool} (h : e.toOption.any p = true) :
    ∃ a, e = .ok a ∧ p a = true := by
  cases e with
  | error e => cases h
  | ok a => exact ⟨a, rfl, h⟩

/-- A text that can be parsed, and what can be computed of it. -/
theorem Source.exists_of_parse {text : List Char} {p : Source → Bool}
    (h : (Source.parse text).toOption.any p = true) : ∃ s, Source.parse text = .ok s ∧ p s = true :=
  exists_of_toOption h

namespace Parsed

variable {text : List Char} {s : Source} {tokens : Array Token} {a b : Nat → Nat}
  (P : Parsed text s tokens a b)

include P

/-! ## Ends of tokens -/

theorem lies_of_startsAt {i : Nat} (h : StartsAt tokens i) : ∃ l spelling, lexemeAt tokens i = some l ∧
    l.isLayout = false ∧ Spelled l spelling ∧
    ((normalizeNewlines text).take (b i)).drop (a i) = spelling ∧ a i < b i ∧
    b i ≤ (normalizeNewlines text).length ∧
    tokens[i]? = some ⟨l, placeOf text (a i), placeOf text (b i)⟩ := by
  obtain ⟨l, hl, hlayout⟩ := h
  obtain ⟨t, ht, rfl⟩ := Option.map_eq_some_iff.1 hl
  have hlies := P.lies.lies ht
  generalize ha : a i = x at *
  generalize hb : b i = y at *
  cases hlies with
  | spelled hs hlt hle => exact ⟨_, _, hl, hlayout, hs, rfl, hlt, hle, ht⟩
  | newline _ => cases hlayout
  | mark hm _ => rcases hm with rfl | rfl | rfl <;> cases hlayout

theorem startAt_eq {i : Nat} (h : StartsAt tokens i) : startAt tokens i = placeOf text (a i) := by
  obtain ⟨l, spelling, -, -, -, -, -, -, ht⟩ := P.lies_of_startsAt h
  rw [startAt, ht]
  rfl

theorem a_lt_b {i : Nat} (h : StartsAt tokens i) : a i < b i := by
  obtain ⟨l, spelling, -, -, -, -, hlt, -, -⟩ := P.lies_of_startsAt h
  exact hlt

theorem b_le {i : Nat} (h : StartsAt tokens i) : b i ≤ (normalizeNewlines text).length := by
  obtain ⟨l, spelling, -, -, -, -, -, hle, -⟩ := P.lies_of_startsAt h
  exact hle

/-- No token begins with a blank. -/
theorem exists_first_char {i : Nat} (h : StartsAt tokens i) :
    ∃ c, (normalizeNewlines text)[a i]? = some c ∧ Unicode.isBlank c = false := by
  obtain ⟨l, spelling, -, -, hs, htake, hlt, hle, -⟩ := P.lies_of_startsAt h
  obtain ⟨c, hget⟩ : ∃ c, (normalizeNewlines text)[a i]? = some c :=
    ⟨_, List.getElem?_eq_getElem (hlt.trans_le hle)⟩
  refine ⟨c, hget, hs.isBlank_first ?_⟩
  rw [← htake, List.head?_drop, List.getElem?_take_of_lt hlt, hget]

/-- No token ends in a blank. -/
theorem isBlank_last {n k : Nat} {c : Char} (h : StartsAt tokens n) (hk : b n = k + 1)
    (hc : (normalizeNewlines text)[k]? = some c) : Unicode.isBlank c = false := by
  obtain ⟨l, spelling, -, -, hs, htake, hlt, hle, -⟩ := P.lies_of_startsAt h
  refine hs.isBlank_last ?_
  rw [← htake, List.getLast?_drop, if_neg (by rw [List.length_take]; omega),
    List.getLast?_eq_getElem?, List.length_take, Nat.min_eq_left hle, hk, Nat.add_sub_cancel,
    List.getElem?_take_of_lt (Nat.lt_succ_self k), hc]

/-- So no token ends in a line break. -/
theorem getElem?_ne_of_last {n k : Nat} (h : StartsAt tokens n) (hk : b n = k + 1) :
    (normalizeNewlines text)[k]? ≠ some '\n' := by
  intro hbreak
  have hblank := P.isBlank_last h hk hbreak
  revert hblank
  decide

/-- What stands between two places among the tokens ends where its last token other than layout does. -/
theorem exists_stop {i : Nat} (h : StartsAt tokens i) : ∀ {j : Nat}, i < j → ∃ n, i ≤ n ∧ n < j ∧
    StartsAt tokens n ∧ (∀ k, n < k → k < j → ¬ StartsAt tokens k) ∧
    stopBefore tokens j = placeOf text (b n) := by
  intro j hij
  induction j, hij using Nat.le_induction with
  | base =>
    obtain ⟨l, spelling, -, hl, -, -, -, -, ht⟩ := P.lies_of_startsAt h
    refine ⟨i, le_rfl, Nat.lt_succ_self i, h, fun k hik hki => by omega, ?_⟩
    rw [stopBefore, ht]
    simp [hl]
  | succ j hij ih =>
    by_cases hj : StartsAt tokens j
    · obtain ⟨l, spelling, -, hl, -, -, -, -, ht⟩ := P.lies_of_startsAt hj
      refine ⟨j, by omega, Nat.lt_succ_self j, hj, fun k hik hki => by omega, ?_⟩
      rw [stopBefore, ht]
      simp [hl]
    · obtain ⟨n, hin, hnj, hn, hlast, hstop⟩ := ih
      refine ⟨n, hin, by omega, hn, fun k hnk hkj => ?_, ?_⟩
      · rcases Nat.lt_or_eq_of_le (Nat.le_of_lt_succ hkj) with hkj | rfl
        · exact hlast k hnk hkj
        · exact hj
      · rw [stopBefore, ← hstop]
        split
        · rfl
        · rename_i t ht
          rw [if_pos]
          by_contra hl
          exact hj ⟨t.lexeme, lexemeAt_eq ht, by simpa using hl⟩

end Parsed

end CallTrace
