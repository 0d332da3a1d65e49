import Mathlib
import CallTrace.Proofs.Lexemes
import CallTrace.Proofs.Lines

/-!
# Where tokens lie

The scanner takes a text from left to right and marks layout where it stands.  The invariant of its
steps is `Scanner.Sound`: the tokens found so far lie one after the other, the end of a logical line
holds the line ending it stands for, and a step of indentation comes right after layout.

`lies_of_scanTokens` is what remains of this after a run: every token has its characters to itself.
-/

namespace CallTrace.Syntax

open Text

variable {text : List Char}

/-- Where a token lies: it holds the characters of the text as it is read from the `a`-th up to the
`b`-th.  The end of a logical line holds the line ending, other layout holds nothing. -/
inductive Lies (text : List Char) : Token → Nat → Nat → Prop
  | spelled {l : Lexeme} {a b : Nat} : Spelled l (((normalizeNewlines text).take b).drop a) → a < b →
      b ≤ (normalizeNewlines text).length → Lies text ⟨l, ⟨placeOf text a, placeOf text b⟩⟩ a b
  | newline {a : Nat} : (normalizeNewlines text)[a]? = some '\n' →
      Lies text ⟨.newline, ⟨placeOf text a, placeOf text a⟩⟩ a (a + 1)
  | mark {l : Lexeme} {a : Nat} : l = .indent ∨ l = .dedent ∨ l = .finish →
      a ≤ (normalizeNewlines text).length → Lies text ⟨l, ⟨placeOf text a, placeOf text a⟩⟩ a a

theorem Lies.start_eq {t : Token} {a b : Nat} (h : Lies text t a b) : t.span.start = placeOf text a := by
  cases h <;> rfl

theorem Lies.le {t : Token} {a b : Nat} (h : Lies text t a b) : a ≤ b := by
  cases h with
  | spelled _ h _ => exact h.le
  | newline _ => exact Nat.le_succ a
  | mark _ _ => exact le_rfl

/-- The last token found, if there is one, is layout. -/
def EndsInLayout (found : List Token) : Prop :=
  ∀ t ∈ found.head?, t.lexeme.isLayout = true

/-- The tokens found, last first, lie one after the other among the first `k` characters. -/
inductive Found (text : List Char) : Nat → List Token → Prop
  | nil {k : Nat} : Found text k []
  | cons {a b k : Nat} {t : Token} {found : List Token} : Found text a found → Lies text t a b → b ≤ k →
      (t.lexeme = .indent ∨ t.lexeme = .dedent → EndsInLayout found) →
      (∀ u ∈ found.head?, u.lexeme ≠ .finish) → Found text k (t :: found)

theorem Found.mono {j k : Nat} {found : List Token} (h : Found text j found) (hjk : j ≤ k) :
    Found text k found := by
  cases h with
  | nil => exact .nil
  | cons h hl hb hi hf => exact .cons h hl (hb.trans hjk) hi hf

namespace Scanner

/-- What holds between two steps, when the first `k` characters of the text are taken. -/
structure Sound (text : List Char) (s : Scanner) (k : Nat) : Prop where
  bound : k ≤ (normalizeNewlines text).length
  left : s.text = (normalizeNewlines text).drop k
  placed : s.place = placeOf text k
  found : Found text k s.found
  unfinished : ∀ u ∈ s.found.head?, u.lexeme ≠ .finish
  /-- Where a line begins outside of brackets, the line before it was ended. -/
  lineStart : s.stage = .lineStart → s.closers ≠ [] ∨ EndsInLayout s.found
  /-- A line that counts as blank has no lexeme. -/
  blankLine : s.stage = .within true → (s.closers ≠ [] ∨ EndsInLayout s.found) ∧
    ∀ c ∈ s.text.head?, c = '#' ∨ c = '\n'

theorem sound_start (text : List Char) : Sound text (start (normalizeNewlines text)) 0 where
  bound := Nat.zero_le _
  left := rfl
  placed := rfl
  found := .nil
  unfinished := by intro u hu; cases hu
  lineStart := by
    intro _
    right
    intro t ht
    cases ht
  blankLine := by intro h; cases h

/-- Measuring takes characters off the text and goes to the place after them. -/
theorem append_measure {indent indent' : Indent} {held : Nat} {place place' : Position}
    {line line' : List Char} (h : measure indent held place line = some (indent', place', line')) :
    ∃ front, line = front ++ line' ∧ place' = place.advance front := by
  fun_induction measure indent held place line with
  | case1 => cases h
  | case2 indent held place rest hne ih =>
    obtain ⟨front, h₁, h₂⟩ := ih h
    exact ⟨'\\' :: '\n' :: front, by rw [h₁]; rfl, h₂⟩
  | case3 => cases h
  | case4 indent held place c rest hne hb hc ih =>
    obtain ⟨front, h₁, h₂⟩ := ih h
    exact ⟨c :: front, by rw [h₁]; rfl, h₂⟩
  | case5 indent held place c rest hne hb hc =>
    simp only [Option.some.injEq, Prod.mk.injEq] at h
    obtain ⟨-, rfl, rfl⟩ := h
    exact ⟨[], rfl, rfl⟩
  | case6 indent held place =>
    simp only [Option.some.injEq, Prod.mk.injEq] at h
    obtain ⟨-, rfl, rfl⟩ := h
    exact ⟨[], rfl, rfl⟩

theorem stepsTo_layout {levels levels' : List Indent} {indent : Indent} {steps : List Lexeme}
    (h : stepsTo levels indent = some (steps, levels')) : ∀ l ∈ steps, l = .indent ∨ l = .dedent := by
  unfold stepsTo at h
  simp only at h
  split at h
  · split at h
    · simp only [Option.some.injEq, Prod.mk.injEq] at h
      rw [← h.1]
      simp
    · cases h
  · split at h
    · simp only [Option.some.injEq, Prod.mk.injEq] at h
      rw [← h.1]
      intro l hl
      exact Or.inr (List.eq_of_mem_replicate hl)
    · cases h

/-- Marking steps of indentation keeps the tokens found in order. -/
theorem found_foldl_mark {k : Nat} (hk : k ≤ (normalizeNewlines text).length) {steps : List Lexeme}
    (hl : ∀ l ∈ steps, l = .indent ∨ l = .dedent) :
    ∀ {s : Scanner}, s.place = placeOf text k → Found text k s.found → EndsInLayout s.found →
      (∀ u ∈ s.found.head?, u.lexeme ≠ .finish) →
      (steps.foldl mark s).text = s.text ∧ (steps.foldl mark s).place = s.place ∧
        (steps.foldl mark s).stage = s.stage ∧ (steps.foldl mark s).closers = s.closers ∧
        Found text k (steps.foldl mark s).found ∧ EndsInLayout (steps.foldl mark s).found ∧
        ∀ u ∈ (steps.foldl mark s).found.head?, u.lexeme ≠ .finish := by
  induction steps with
  | nil => intro s _ hf he hn; exact ⟨rfl, rfl, rfl, rfl, hf, he, hn⟩
  | cons l steps ih =>
    intro s hp hf he hn
    have hll := hl l List.mem_cons_self
    have hlies : Lies text ⟨l, s.place, s.place⟩ k k := by
      rw [hp]
      exact .mark (hll.imp_right Or.inl) hk
    refine ih (fun l' hl' => hl l' (List.mem_cons_of_mem l hl')) (s := s.mark l) hp
      (.cons hf hlies le_rfl (fun _ => he) hn) ?_ ?_
    · intro t ht
      obtain rfl := Option.some.inj ht
      rcases hll with rfl | rfl <;> rfl
    · intro t ht
      obtain rfl := Option.some.inj ht
      rcases hll with rfl | rfl <;> exact Lexeme.noConfusion

theorem blank_head {line : List Char}
    (h : (decide (line.head? = some '#') || decide (line.head? = some '\n')) = true) :
    ∀ c ∈ line.head?, c = '#' ∨ c = '\n' := by
  intro c hc
  rw [Option.mem_def] at hc
  simpa [hc] using h

theorem sound_beginLine {s s' : Scanner} {k : Nat} (h : Sound text s k) (hs : s.stage = .lineStart)
    (hb : s.beginLine = .more s') : ∃ k', Sound text s' k' := by
  unfold beginLine at hb
  split at hb
  · cases hb
  · rename_i indent place' line' hm
    obtain ⟨front, h₁, h₂⟩ := append_measure hm
    rw [h.left] at h₁
    obtain ⟨hadv, hdrop, hlen⟩ := placeOf_add h₁
    rw [h.placed, hadv] at h₂
    have hbound : k + front.length ≤ (normalizeNewlines text).length := by
      by_cases hf : front = []
      · rw [hf, List.length_nil, Nat.add_zero]
        exact h.bound
      · exact hlen hf
    have hfound := h.found.mono (Nat.le_add_right k front.length)
    simp only at hb
    split at hb
    · rename_i hblank
      obtain rfl := Progress.more.inj hb
      refine ⟨k + front.length, hbound, hdrop.symm, h₂, hfound, h.unfinished, fun e => ?_, fun e => ?_⟩
      · cases e
      · exact ⟨h.lineStart hs, blank_head (Stage.within.inj e)⟩
    · rename_i hblank
      have hclosed : s.closers = [] := by
        simp only [Bool.or_eq_true, not_or, Bool.not_eq_true, Bool.not_eq_false',
          List.isEmpty_iff] at hblank
        exact hblank.2
      split at hb
      · cases hb
      · rename_i steps levels hsteps
        obtain rfl := Progress.more.inj hb
        have hends : EndsInLayout s.found := (h.lineStart hs).resolve_left (not_not_intro hclosed)
        obtain ⟨e₁, e₂, e₃, e₄, e₅, e₆, e₇⟩ := found_foldl_mark hbound (stepsTo_layout hsteps)
          (s := { s with stage := .within (line'.head? = some '#' || line'.head? = some '\n'),
                         place := place', text := line', levels := levels }) h₂ hfound hends h.unfinished
        refine ⟨k + front.length, hbound, e₁.trans hdrop.symm, e₂.trans h₂, e₅, e₇, fun e => ?_, fun e => ?_⟩
        · rw [e₃] at e
          cases e
        · refine ⟨Or.inr e₆, ?_⟩
          rw [e₃] at e
          rw [e₁]
          exact blank_head (Stage.within.inj e)

theorem sound_takeLexeme {s s' : Scanner} {k : Nat} (h : Sound text s k) (hs : s.stage = .within false)
    (ht : s.takeLexeme = .more s') : ∃ k', Sound text s' k' := by
  unfold takeLexeme at ht
  split at ht
  · cases ht
  · rename_i lexeme spelling line' hl
    obtain ⟨h₁, hspell⟩ := append_scanLexeme hl
    rw [h.left] at h₁
    obtain ⟨hadv, hdrop, hlen⟩ := placeOf_add h₁.symm
    split at ht
    · cases ht
    · rename_i closers hc
      obtain rfl := Progress.more.inj ht
      have hne := hspell.ne_nil
      have hlies : Lies text ⟨lexeme, s.place, s.place.advance spelling⟩ k (k + spelling.length) := by
        rw [h.placed, hadv]
        refine .spelled ?_ ?_ (hlen hne)
        · rwa [take_drop_add h₁.symm]
        · have := List.length_pos_iff.2 hne
          omega
      refine ⟨k + spelling.length, hlen hne, hdrop.symm, by rw [← hadv, ← h.placed], ?_, ?_,
        fun e => ?_, fun e => ?_⟩
      · refine .cons h.found hlies le_rfl (fun e => ?_) h.unfinished
        have := hspell.not_layout
        rcases e with rfl | rfl <;> cases this
      · intro u hu
        obtain rfl := Option.some.inj hu
        rintro rfl
        have := hspell.not_layout
        cases this
      · simp only at e
        rw [hs] at e
        cases e
      · simp only at e
        rw [hs] at e
        cases e

theorem placeOf_cons {s : Scanner} {k : Nat} {c : Char} {rest : List Char} (h : Sound text s k)
    (ht : s.text = c :: rest) : (normalizeNewlines text)[k]? = some c ∧
      s.place.step c = placeOf text (k + 1) ∧ (normalizeNewlines text).drop (k + 1) = rest ∧
      k + 1 ≤ (normalizeNewlines text).length := by
  have hd : (normalizeNewlines text).drop k = [c] ++ rest := by rw [← h.left, ht]; rfl
  obtain ⟨h₁, h₂, h₃⟩ := placeOf_add hd
  refine ⟨?_, ?_, h₂, h₃ (List.cons_ne_nil _ _)⟩
  · rw [← List.head?_drop, hd]
    rfl
  · rw [h.placed, ← show k + [c].length = k + 1 from rfl, ← h₁]
    rfl

theorem sound_goOn {s s' : Scanner} {k : Nat} {blankLine : Bool} (h : Sound text s k)
    (hs : s.stage = .within blankLine) (hg : s.goOn blankLine = .more s') :
    ∃ k', Sound text s' k' := by
  unfold goOn at hg
  split at hg
  · split at hg <;> cases hg
  · rename_i c rest ht
    obtain ⟨hchar, hstep, hdrop, hlen⟩ := placeOf_cons h ht
    have notBlank (hb : blankLine = true) : c = '#' ∨ c = '\n' := by
      subst hb
      exact (h.blankLine hs).2 c (by rw [ht]; rfl)
    split at hg
    · -- A blank within a line: the line does not count as blank, since it has no lexeme yet.
      rename_i hc
      obtain rfl := Progress.more.inj hg
      refine ⟨k + 1, hlen, hdrop.symm, hstep, h.found.mono (Nat.le_succ k), h.unfinished,
        fun e => h.lineStart e, fun e => ?_⟩
      have hb : blankLine = true := by
        rw [hs] at e
        exact Stage.within.inj e
      rcases notBlank hb with rfl | rfl <;> cases hc
    · split at hg
      · rename_i hc
        obtain rfl := Progress.more.inj hg
        have hsplit := List.takeWhile_append_dropWhile (p := fun c => decide (c ≠ '\n')) (l := s.text)
        have hd : (normalizeNewlines text).drop k = s.text.takeWhile (fun c => decide (c ≠ '\n')) ++
            s.text.dropWhile (fun c => decide (c ≠ '\n')) := by rw [hsplit, h.left]
        obtain ⟨h₁, h₂, h₃⟩ := placeOf_add hd
        have hne : s.text.takeWhile (fun c => decide (c ≠ '\n')) ≠ [] := by
          rw [ht, hc, List.takeWhile_cons_of_pos (by decide)]
          exact List.cons_ne_nil _ _
        refine ⟨_, h₃ hne, h₂.symm, by rw [h.placed, ← h₁], h.found.mono (Nat.le_add_right k _),
          h.unfinished, fun e => h.lineStart e, fun e => ?_⟩
        refine ⟨(h.blankLine e).1, fun d hd => Or.inr ?_⟩
        have := List.head?_dropWhile_not (fun c => decide (c ≠ '\n')) s.text
        rw [Option.mem_def.1 hd] at this
        simpa using this
      · split at hg
        · rename_i hc
          obtain rfl := Progress.more.inj hg
          by_cases hb : (blankLine || !s.closers.isEmpty) = true
          · rw [if_pos hb]
            refine ⟨k + 1, hlen, hdrop.symm, hstep, h.found.mono (Nat.le_succ k), h.unfinished,
              fun _ => ?_, fun e => by cases e⟩
            rcases Bool.or_eq_true _ _ ▸ hb with hb | hb
            · subst hb
              exact (h.blankLine hs).1
            · left
              simpa using hb
          · rw [if_neg hb]
            have hlies : Lies text ⟨.newline, s.place, s.place⟩ k (k + 1) := by
              rw [h.placed]
              exact .newline (by rw [hchar, hc])
            refine ⟨k + 1, hlen, hdrop.symm, hstep,
              .cons h.found hlies le_rfl (fun e => by rcases e with e | e <;> cases e) h.unfinished,
              ?_, fun _ => Or.inr ?_, fun e => by cases e⟩
            · intro u hu
              obtain rfl := Option.some.inj hu
              exact Lexeme.noConfusion
            · intro u hu
              obtain rfl := Option.some.inj hu
              rfl
        · split at hg
          · rename_i hc
            split at hg
            · rename_i d more
              obtain rfl := Progress.more.inj hg
              have hd : (normalizeNewlines text).drop k = ['\\', '\n'] ++ d :: more := by
                rw [← h.left, ht, hc]
                rfl
              obtain ⟨h₁, h₂, h₃⟩ := placeOf_add hd
              refine ⟨k + 2, h₃ (List.cons_ne_nil _ _), h₂.symm, ?_, h.found.mono (Nat.le_add_right k 2),
                h.unfinished, fun e => h.lineStart e, fun e => ?_⟩
              · rw [h.placed]
                refine Eq.trans ?_ h₁
                simp [Position.advance, Position.step]
              · have hb : blankLine = true := by
                  rw [hs] at e
                  exact Stage.within.inj e
                rcases notBlank hb with rfl | rfl <;> cases hc
            · cases hg
          · have hb : blankLine = false := by
              rw [Bool.eq_false_iff]
              intro hb
              rcases notBlank hb with rfl | rfl <;> simp_all
            subst hb
            exact sound_takeLexeme h hs hg

/-- A step within a line that is the last one comes at the end of the text, outside of brackets. -/
theorem eq_of_goOn {s : Scanner} {blankLine : Bool} {tokens : List Token}
    (hg : s.goOn blankLine = .done tokens) : tokens = (s.mark .finish).found.reverse := by
  unfold goOn at hg
  split at hg
  · split at hg
    · exact (Progress.done.inj hg).symm
    · cases hg
  · have takeLexeme_ne {s : Scanner} : s.takeLexeme ≠ .done tokens := by
      unfold takeLexeme
      split
      · exact Progress.noConfusion
      · split <;> exact Progress.noConfusion
    split at hg
    · cases hg
    · split at hg
      · cases hg
      · split at hg
        · cases hg
        · split at hg
          · split at hg <;> cases hg
          · exact absurd hg takeLexeme_ne

theorem beginLine_ne_done {s : Scanner} {tokens : List Token} : s.beginLine ≠ .done tokens := by
  unfold beginLine
  split
  · exact Progress.noConfusion
  · simp only
    split
    · exact Progress.noConfusion
    · split <;> exact Progress.noConfusion

/-- What each step preserves holds at the last one. -/
theorem exists_last_of_run {I : Scanner → Prop} (hstep : ∀ {s s' : Scanner}, I s → s.step = .more s' → I s')
    {fuel : Nat} : ∀ {s : Scanner} {tokens : List Token}, I s → s.run fuel = some tokens →
      ∃ last blankLine, I last ∧ last.goOn blankLine = .done tokens := by
  induction fuel with
  | zero => intro s tokens _ hr; cases hr
  | succ fuel ih =>
    intro s tokens h hr
    rw [run] at hr
    cases hs : s.step with
    | more s' =>
      rw [hs] at hr
      exact ih (hstep h hs) hr
    | done tokens' =>
      rw [hs] at hr
      obtain rfl := Option.some.inj hr
      rw [step] at hs
      split at hs
      · exact absurd hs beginLine_ne_done
      · exact ⟨s, _, h, hs⟩
    | refused =>
      rw [hs] at hr
      cases hr

theorem sound_step {s s' : Scanner} (h : ∃ k, Sound text s k) (hs : s.step = .more s') :
    ∃ k, Sound text s' k := by
  obtain ⟨k, h⟩ := h
  rw [step] at hs
  split at hs
  · exact sound_beginLine h ‹_› hs
  · exact sound_goOn h ‹_› hs

theorem found_of_run {fuel : Nat} {s : Scanner} {k : Nat} {tokens : List Token} (h : Sound text s k)
    (hr : s.run fuel = some tokens) : ∃ k', Found text k' tokens.reverse := by
  obtain ⟨last, blankLine, ⟨k', h'⟩, hg⟩ :=
    exists_last_of_run (I := fun s => ∃ k, Sound text s k) sound_step ⟨k, h⟩ hr
  rw [eq_of_goOn hg, List.reverse_reverse]
  have hlies : Lies text ⟨.finish, last.place, last.place⟩ k' k' := by
    rw [h'.placed]
    exact .mark (Or.inr (Or.inr rfl)) h'.bound
  exact ⟨k', .cons h'.found hlies le_rfl (fun e => by rcases e with e | e <;> cases e) h'.unfinished⟩

end Scanner

/-! ## The tokens of a text -/

/-- Where the tokens of a text lie: `a i` is the first character of the `i`-th and `b i` the one after
its last. -/
structure LieAt (text : List Char) (tokens : Array Token) (a b : Nat → Nat) : Prop where
  lies : ∀ {i : Nat} {t : Token}, tokens[i]? = some t → Lies text t (a i) (b i)
  apart : ∀ {i j : Nat}, i < j → j < tokens.size → b i ≤ a j
  /-- A step of indentation comes right after layout. -/
  indentation : ∀ {i : Nat} {t u : Token}, tokens[i]? = some u → tokens[i + 1]? = some t →
    t.lexeme = .indent ∨ t.lexeme = .dedent → u.lexeme.isLayout = true
  /-- Nothing comes after the end of the text. -/
  finish : ∀ {i : Nat} {t : Token}, tokens[i]? = some t → t.lexeme = .finish → i + 1 = tokens.size

theorem Found.lieAt {k : Nat} {found : List Token} (h : Found text k found) :
    ∃ a b, LieAt text found.reverse.toArray a b ∧ ∀ i, i < found.length → b i ≤ k := by
  induction h with
  | nil => exact ⟨id, id, ⟨by simp, by simp, by simp, by simp⟩, by simp⟩
  | @cons a₁ b₁ k t found hf hl hb hi hn ih =>
    obtain ⟨a, b, ⟨h₁, h₂, h₃, h₄⟩, hle⟩ := ih
    have hold {i : Nat} (hlt : i < found.length) :
        (t :: found).reverse.toArray[i]? = found.reverse.toArray[i]? := by
      simp [List.getElem?_append_left, hlt]
    have hnew : (t :: found).reverse.toArray[found.length]? = some t := by
      simp
    have cases_index {i : Nat} {u : Token} (hu : (t :: found).reverse.toArray[i]? = some u) :
        (i < found.length ∧ found.reverse.toArray[i]? = some u) ∨ (i = found.length ∧ u = t) := by
      have hlt : i < found.length + 1 := by
        obtain ⟨hlt, -⟩ := Array.getElem?_eq_some_iff.1 hu
        simpa using hlt
      rcases Nat.lt_or_eq_of_le (Nat.le_of_lt_succ hlt) with hlt | rfl
      · exact Or.inl ⟨hlt, by rw [← hold hlt, hu]⟩
      · rw [hnew] at hu
        exact Or.inr ⟨rfl, (Option.some.inj hu).symm⟩
    have htop {u : Token} {i : Nat} (hi : i + 1 = found.length) (hu : found.reverse.toArray[i]? = some u) :
        found.head? = some u := by
      cases found with
      | nil => simp at hi
      | cons v found =>
        rw [List.length_cons, Nat.add_right_cancel_iff] at hi
        subst hi
        simpa using hu
    refine ⟨Function.update a found.length a₁, Function.update b found.length b₁,
      ⟨fun {i u} hu => ?_, fun {i j} hij hj => ?_, fun {i u v} hu hv hin => ?_, fun {i u} hu hfin => ?_⟩,
      fun i hi => ?_⟩
    · rcases cases_index hu with ⟨hlt, hu⟩ | ⟨rfl, rfl⟩
      · rw [Function.update_of_ne hlt.ne, Function.update_of_ne hlt.ne]
        exact h₁ hu
      · rwa [Function.update_self, Function.update_self]
    · have hj : j < found.length + 1 := by simpa using hj
      rw [Function.update_of_ne (by omega)]
      rcases Nat.lt_or_eq_of_le (Nat.le_of_lt_succ hj) with hlt | rfl
      · rw [Function.update_of_ne hlt.ne]
        exact h₂ hij (by simpa using hlt)
      · rw [Function.update_self]
        exact hle i hij
    · rcases cases_index hv with ⟨hlt', hv⟩ | ⟨hlast, rfl⟩
      · rw [hold (by omega)] at hu
        exact h₃ hu hv hin
      · rw [hold (by omega)] at hu
        exact hi hin _ (htop hlast hu)
    · rcases cases_index hu with ⟨hlt, hu⟩ | ⟨rfl, rfl⟩
      · have := h₄ hu hfin
        have hlast : i + 1 = found.length := by simpa using this
        exact absurd hfin (hn u (htop hlast hu))
      · simp
    · have hi : i < found.length + 1 := hi
      rcases Nat.lt_or_eq_of_le (Nat.le_of_lt_succ hi) with hlt | rfl
      · rw [Function.update_of_ne hlt.ne]
        exact (hle i hlt).trans (hl.le.trans hb)
      · rwa [Function.update_self]

/-- Every token of a text has its characters to itself, one token after the other. -/
theorem lies_of_scanTokens {tokens : List Token} (h : scanTokens (normalizeNewlines text) = some tokens) :
    ∃ a b, LieAt text tokens.toArray a b := by
  obtain ⟨k, hf⟩ := Scanner.found_of_run (Scanner.sound_start text) h
  obtain ⟨a, b, hl, -⟩ := hf.lieAt
  rw [List.reverse_reverse] at hl
  exact ⟨a, b, hl⟩

end CallTrace.Syntax
