import Mathlib
import CallTrace.Proofs.Balance
import CallTrace.Proofs.Tokens

/-!
# Levels of indentation

The scanner keeps a stack of the indentations that are open.  `Scanner.Level` is the invariant of its
steps that ties the stack to the tokens found: a step in pushes a greater indentation, a step out pops
one, and where a logical line begins the innermost indentation is that of the line.

`levels_of_scanTokens` is what remains of this after a run, and `Levels.wide_le` is its use: as long as
no indentation is left that was open at a token, the lines that begin after it are indented as far at
least.

The indentation of a logical line is that of its first physical line.  If that has nothing but blanks and
the backslash that joins it to the line below, the first token stands further down (`Joined`).
-/

namespace CallTrace.Syntax

open Text

variable {text : List Char}

/-! ## The indentation of a line -/

/-- The width of blanks, as the scanner counts it. -/
def Indent.of (blanks : List Char) : Indent :=
  blanks.foldl Indent.step .zero

/-- A physical line begins with the `j`-th character. -/
def BeginsLine (text : List Char) (j : Nat) : Prop :=
  j = 0 ∨ ∃ i, j = i + 1 ∧ (normalizeNewlines text)[i]? = some '\n'

/-- The characters from the `i`-th up to the `j`-th. -/
def charsOf (text : List Char) (i j : Nat) : List Char :=
  ((normalizeNewlines text).take j).drop i

/-- The line before the `j`-th character has nothing but blanks and a backslash. -/
def Joined (text : List Char) (j : Nat) : Prop :=
  ∃ i ≤ j, BeginsLine text i ∧ ∃ blanks : List Char, (∀ c ∈ blanks, isSpace c = true) ∧
    charsOf text i j = blanks ++ ['\\', '\n']

/-- What begins at the `k`-th character is the first thing on its line, and has a width of indentation. -/
def Indented (text : List Char) (k width : Nat) : Prop :=
  ∃ j ≤ k, BeginsLine text j ∧ (∀ c ∈ charsOf text j k, isSpace c = true) ∧
    (width = (Indent.of (charsOf text j k)).wide ∨ Joined text j)

namespace Scanner

/-- Measuring goes over blanks, or over blanks after a line of nothing but blanks and a backslash. -/
theorem exists_blanks_of_measure {indent indent' : Indent} {held : Nat} {place place' : Position}
    {line line' : List Char} (h : measure indent held place line = some (indent', place', line')) :
    (∃ blanks : List Char, (∀ c ∈ blanks, isSpace c = true) ∧ line = blanks ++ line' ∧
      (held = 0 → indent' = blanks.foldl Indent.step indent)) ∨
    ∃ front joined blanks : List Char, (front = [] ∨ front.getLast? = some '\n') ∧
      (∀ c ∈ joined, isSpace c = true) ∧ (∀ c ∈ blanks, isSpace c = true) ∧
      line = front ++ (joined ++ ['\\', '\n']) ++ blanks ++ line' := by
  fun_induction measure indent held place line with
  | case1 => cases h
  | case2 indent held place rest hne ih =>
    right
    rcases ih h with ⟨blanks, hblanks, rfl, -⟩ | ⟨front, joined, blanks, hfront, hjoined, hblanks, rfl⟩
    · exact ⟨[], [], blanks, Or.inl rfl, by simp, hblanks, rfl⟩
    · refine ⟨'\\' :: '\n' :: front, joined, blanks, Or.inr ?_, hjoined, hblanks, by simp⟩
      rcases hfront with rfl | hfront
      · rfl
      · simp [List.getLast?_cons, hfront]
  | case3 => cases h
  | case4 indent held place c rest hne hb hc ih =>
    rcases ih h with ⟨blanks, hblanks, rfl, hindent⟩ |
      ⟨front, joined, blanks, hfront, hjoined, hblanks, rfl⟩
    · exact Or.inl ⟨c :: blanks, List.forall_mem_cons.2 ⟨hc, hblanks⟩, rfl, hindent⟩
    · right
      rcases hfront with rfl | hfront
      · exact ⟨[], c :: joined, blanks, Or.inl rfl, List.forall_mem_cons.2 ⟨hc, hjoined⟩, hblanks, rfl⟩
      · refine ⟨c :: front, joined, blanks, Or.inr ?_, hjoined, hblanks, rfl⟩
        simp [List.getLast?_cons, hfront]
  | case5 indent held place c rest hne hb hc =>
    simp only [Option.some.injEq, Prod.mk.injEq] at h
    obtain ⟨rfl, -, rfl⟩ := h
    exact Or.inl ⟨[], by simp, rfl, fun hheld => by rw [if_pos hheld]; rfl⟩
  | case6 indent held place =>
    simp only [Option.some.injEq, Prod.mk.injEq] at h
    obtain ⟨rfl, -, rfl⟩ := h
    exact Or.inl ⟨[], by simp, rfl, fun hheld => by rw [if_pos hheld]; rfl⟩

/-- What is left after measuring is no blank and no backslash. -/
theorem head_of_measure {indent indent' : Indent} {held : Nat} {place place' : Position}
    {line line' : List Char} (h : measure indent held place line = some (indent', place', line')) :
    ∀ c ∈ line'.head?, isSpace c = false ∧ c ≠ '\\' := by
  fun_induction measure indent held place line with
  | case1 => cases h
  | case2 indent held place rest hne ih => exact ih h
  | case3 => cases h
  | case4 indent held place c rest hne hb hc ih => exact ih h
  | case5 indent held place c rest hne hb hc =>
    simp only [Option.some.injEq, Prod.mk.injEq] at h
    obtain ⟨-, -, rfl⟩ := h
    intro d hd
    obtain rfl : c = d := by simpa using hd
    exact ⟨by simpa using hc, hb⟩
  | case6 indent held place =>
    simp only [Option.some.injEq, Prod.mk.injEq] at h
    obtain ⟨-, -, rfl⟩ := h
    simp

theorem beginsLine_add {k : Nat} {front rest : List Char} (hk : BeginsLine text k)
    (hleft : (normalizeNewlines text).drop k = front ++ rest)
    (hfront : front = [] ∨ front.getLast? = some '\n') : BeginsLine text (k + front.length) := by
  rcases hfront with rfl | hfront
  · exact hk
  · obtain ⟨init, rfl⟩ := List.getLast?_eq_some_iff.1 hfront
    refine Or.inr ⟨k + init.length, by simp [Nat.add_assoc], ?_⟩
    rw [← List.getElem?_drop, hleft]
    simp

/-- What is measured at the beginning of a line is its indentation. -/
theorem indented_of_measure {k : Nat} {line' : List Char} {indent : Indent} {place place' : Position}
    (hk : BeginsLine text k)
    (h : measure .zero 0 place ((normalizeNewlines text).drop k) = some (indent, place', line')) :
    ∃ front, (normalizeNewlines text).drop k = front ++ line' ∧
      Indented text (k + front.length) indent.wide := by
  rcases exists_blanks_of_measure h with ⟨blanks, hblanks, hleft, hindent⟩ |
    ⟨front, joined, blanks, hfront, hjoined, hblanks, hleft⟩
  · refine ⟨blanks, hleft, k, Nat.le_add_right _ _, hk, ?_, Or.inl ?_⟩
    · rw [charsOf, take_drop_add hleft]
      exact hblanks
    · rw [charsOf, take_drop_add hleft, hindent rfl]
      rfl
  · have hfirst : (normalizeNewlines text).drop k =
        front ++ ((joined ++ ['\\', '\n']) ++ (blanks ++ line')) := by
      rw [hleft]
      simp
    have hsecond : (normalizeNewlines text).drop (k + front.length) =
        (joined ++ ['\\', '\n']) ++ (blanks ++ line') := by
      rw [← List.drop_drop, hfirst, List.drop_left]
    have hthird : (normalizeNewlines text).drop
        (k + front.length + (joined ++ ['\\', '\n']).length) = blanks ++ line' := by
      rw [← List.drop_drop, hsecond, List.drop_left]
    have hbegins := beginsLine_add hk hfirst hfront
    refine ⟨front ++ (joined ++ ['\\', '\n']) ++ blanks, hleft, ?_⟩
    rw [List.length_append, List.length_append, ← Nat.add_assoc, ← Nat.add_assoc]
    refine ⟨k + front.length + (joined ++ ['\\', '\n']).length, Nat.le_add_right _ _, ?_, ?_, Or.inr ?_⟩
    · exact beginsLine_add hbegins hsecond (Or.inr (by simp))
    · rw [charsOf, take_drop_add hthird]
      exact hblanks
    · exact ⟨k + front.length, Nat.le_add_right _ _, hbegins, joined, hjoined, by
        rw [charsOf, take_drop_add hsecond]⟩

end Scanner

/-! ## The stack of a scanner -/

/-- The stack of indentations that the tokens found, last first, lead to. -/
inductive Levelled (text : List Char) : List Token → List Indent → Prop
  | nil : Levelled text [] []
  | indent {t : Token} {found : List Token} {level : Indent} {levels : List Indent} :
      Levelled text found levels → t.lexeme = .indent → (levels.headD .zero).wide < level.wide →
      Levelled text (t :: found) (level :: levels)
  | dedent {t : Token} {found : List Token} {level : Indent} {levels : List Indent} :
      Levelled text found (level :: levels) → t.lexeme = .dedent → Levelled text (t :: found) levels
  | other {t : Token} {found : List Token} {levels : List Indent} :
      Levelled text found levels → t.lexeme.rise = 0 →
      (t.lexeme.isLayout = false → EndsInLayout found → ∃ k ≤ (normalizeNewlines text).length,
        t.span.start = placeOf text k ∧ Indented text k (levels.headD .zero).wide) →
      Levelled text (t :: found) levels

namespace Scanner

/-- What holds between two steps, when the first `k` characters of the text are taken. -/
structure Level (text : List Char) (s : Scanner) (k : Nat) : Prop where
  levelled : Levelled text s.found s.levels
  closers : s.closers ≠ [] → ¬ EndsInLayout s.found
  lineStart : s.stage = .lineStart → BeginsLine text k
  /-- The first token of a logical line comes right after its indentation. -/
  within : s.stage = .within false → EndsInLayout s.found →
    Indented text k (s.levels.headD .zero).wide ∧
      ∀ c ∈ s.text.head?, isSpace c = false ∧ c ≠ '\\' ∧ c ≠ '#' ∧ c ≠ '\n'

theorem level_start (text : List Char) : Level text (start (normalizeNewlines text)) 0 where
  levelled := .nil
  closers := fun h => absurd rfl h
  lineStart := fun _ => Or.inl rfl
  within := by intro h; cases h

theorem Sound.eq {s : Scanner} {k m : Nat} (h : Sound text s k)
    (hm : m ≤ (normalizeNewlines text).length) (hleft : s.text = (normalizeNewlines text).drop m) :
    k = m := by
  have hk := h.bound
  have hlength := congrArg List.length (h.left.symm.trans hleft)
  rw [List.length_drop, List.length_drop] at hlength
  omega

theorem not_endsInLayout {t : Token} {found : List Token} (h : t.lexeme.isLayout = false) :
    ¬ EndsInLayout (t :: found) := by
  intro hends
  have := hends t rfl
  rw [h] at this
  cases this

theorem levelled_dedents (n : Nat) : ∀ {s : Scanner} {levels : List Indent}, n ≤ levels.length →
    Levelled text s.found levels →
    Levelled text ((List.replicate n Lexeme.dedent).foldl mark s).found (levels.drop n) := by
  induction n with
  | zero => exact fun _ h => h
  | succ n ih =>
    intro s levels hn h
    cases levels with
    | nil => cases hn
    | cons level levels =>
      rw [List.replicate_succ, List.foldl_cons, List.drop_succ_cons]
      exact ih (s := s.mark .dedent) (Nat.le_of_succ_le_succ hn) (.dedent h rfl)

/-- The steps to an indentation lead to it. -/
theorem levelled_foldl_mark {levels levels' : List Indent} {indent : Indent} {steps : List Lexeme}
    (h : stepsTo levels indent = some (steps, levels')) {s : Scanner}
    (hs : Levelled text s.found levels) :
    Levelled text (steps.foldl mark s).found levels' ∧ levels'.headD .zero = indent := by
  unfold stepsTo at h
  simp only at h
  split at h
  · rename_i hlt
    split at h
    · simp only [Option.some.injEq, Prod.mk.injEq] at h
      obtain ⟨rfl, rfl⟩ := h
      exact ⟨.indent hs rfl hlt, rfl⟩
    · cases h
  · split at h
    · rename_i hkept
      simp only [Option.some.injEq, Prod.mk.injEq] at h
      obtain ⟨rfl, rfl⟩ := h
      refine ⟨?_, hkept⟩
      have hdrop := List.suffix_iff_eq_drop.1
        (List.dropWhile_suffix (l := levels) fun level => decide (indent.wide < level.wide))
      have hdedents := levelled_dedents _ (Nat.sub_le levels.length
        (levels.dropWhile fun level => decide (indent.wide < level.wide)).length) hs
      rwa [← hdrop] at hdedents
    · cases h

/-- Marking adds to the tokens found and changes nothing else. -/
theorem exists_foldl_mark (steps : List Lexeme) (s : Scanner) :
    ∃ found, steps.foldl mark s = { s with found } := by
  induction steps generalizing s with
  | nil => exact ⟨s.found, rfl⟩
  | cons l steps ih => exact ih (s.mark l)

variable {s s' : Scanner} {k k' : Nat}

theorem level_beginLine (hs : Sound text s k) (h : Level text s k) (hstage : s.stage = .lineStart)
    (hb : s.beginLine = .more s') (hs' : Sound text s' k') : Level text s' k' := by
  unfold beginLine at hb
  split at hb
  · cases hb
  · rename_i indent place' line' hm
    rw [hs.left] at hm
    obtain ⟨front, hleft, hindented⟩ := indented_of_measure (h.lineStart hstage) hm
    obtain ⟨-, hdrop, hlen⟩ := placeOf_add hleft
    have hbound : k + front.length ≤ (normalizeNewlines text).length := by
      by_cases hf : front = []
      · rw [hf, List.length_nil, Nat.add_zero]
        exact hs.bound
      · exact hlen hf
    have hhead := head_of_measure hm
    simp only at hb
    split at hb
    · rename_i hblank
      obtain rfl := Progress.more.inj hb
      refine ⟨h.levelled, h.closers, nofun, fun e hends => ?_⟩
      -- The line has no lexeme, or it goes on inside brackets.
      simp only [Stage.within.injEq] at e
      rw [e, Bool.false_or, Bool.not_eq_true', List.isEmpty_eq_false_iff] at hblank
      exact absurd hends (h.closers hblank)
    · rename_i hblank
      simp only [Bool.or_eq_true, not_or, Bool.not_eq_true, Bool.not_eq_false', List.isEmpty_iff,
        decide_eq_false_iff_not] at hblank
      obtain ⟨⟨hcomment, hbreak⟩, hclosed⟩ := hblank
      split at hb
      · cases hb
      · rename_i steps levels hsteps
        obtain rfl := Progress.more.inj hb
        generalize hmarked : ({ s with
          stage := .within (line'.head? = some '#' || line'.head? = some '\n')
          place := place', text := line', levels } : Scanner) = t at hs'
        obtain ⟨hlevelled, hhere⟩ : Levelled text (steps.foldl mark t).found levels ∧
            levels.headD .zero = _ := levelled_foldl_mark hsteps (by rw [← hmarked]; exact h.levelled)
        obtain ⟨found, hfound⟩ := exists_foldl_mark steps t
        rw [hfound] at hs' hlevelled ⊢
        subst hmarked
        obtain rfl := hs'.eq hbound hdrop.symm
        refine ⟨hlevelled, fun hne => absurd hclosed hne, nofun, fun _ _ => ⟨?_, fun c hc => ?_⟩⟩
        · rw [hhere]
          exact hindented
        · refine ⟨(hhead c hc).1, (hhead c hc).2, ?_, ?_⟩
          · rintro rfl
            exact hcomment hc
          · rintro rfl
            exact hbreak hc

theorem level_takeLexeme (hs : Sound text s k) (h : Level text s k) (hstage : s.stage = .within false)
    (ht : s.takeLexeme = .more s') : Level text s' k' := by
  unfold takeLexeme at ht
  split at ht
  · cases ht
  · rename_i lexeme spelling line' hl
    obtain ⟨-, hspell⟩ := append_scanLexeme hl
    have hlayout := hspell.not_layout
    split at ht
    · cases ht
    · obtain rfl := Progress.more.inj ht
      exact
        { levelled := .other h.levelled (Lexeme.rise_of_not_layout hlayout) fun _ hends =>
            ⟨k, hs.bound, hs.placed, (h.within hstage hends).1⟩
          closers := fun _ => not_endsInLayout hlayout
          lineStart := fun e => by
            rw [hstage] at e
            cases e
          within := fun _ hends => absurd hends (not_endsInLayout hlayout) }

/-- Passing over some text on a line, where no logical line is to begin. -/
theorem level_passOver {blankLine : Bool} (h : Level text s k) (hstage : s.stage = .within blankLine)
    (hnot : EndsInLayout s.found → blankLine ≠ false) (place : Position) (rest : List Char) :
    Level text { s with place, text := rest } k' where
  levelled := h.levelled
  closers := h.closers
  lineStart := fun e => by
    rw [show s.stage = .lineStart from e] at hstage
    cases hstage
  within := fun e hends => by
    rw [show s.stage = .within false from e, Stage.within.injEq] at hstage
    exact absurd hstage.symm (hnot hends)

theorem level_goOn {blankLine : Bool} (hs : Sound text s k) (h : Level text s k)
    (hstage : s.stage = .within blankLine) (hg : s.goOn blankLine = .more s') (hs' : Sound text s' k') :
    Level text s' k' := by
  unfold goOn at hg
  split at hg
  · split at hg <;> cases hg
  · rename_i c rest ht
    obtain ⟨hchar, -, hdrop, hlen⟩ := placeOf_cons hs ht
    -- Where the first token of a logical line is to come, it comes at once.
    have hfirst (hends : EndsInLayout s.found) (hb : blankLine = false) :
        isSpace c = false ∧ c ≠ '\\' ∧ c ≠ '#' ∧ c ≠ '\n' := by
      subst hb
      exact (h.within hstage hends).2 c (by rw [ht]; rfl)
    split at hg
    · rename_i hc
      obtain rfl := Progress.more.inj hg
      exact level_passOver h hstage (fun hends hb => by simp [(hfirst hends hb).1] at hc) _ _
    · split at hg
      · rename_i hc
        obtain rfl := Progress.more.inj hg
        exact level_passOver h hstage (fun hends hb => (hfirst hends hb).2.2.1 hc) _ _
      · split at hg
        · rename_i hc
          obtain rfl := Progress.more.inj hg
          have hbegins : BeginsLine text k' := by
            obtain rfl := hs'.eq hlen hdrop.symm
            exact Or.inr ⟨k, rfl, by rw [hchar, hc]⟩
          split at hs'
          · rename_i hb
            rw [if_pos hb]
            exact ⟨h.levelled, h.closers, fun _ => hbegins, nofun⟩
          · rename_i hb
            rw [if_neg hb]
            simp only [Bool.or_eq_true, not_or, Bool.not_eq_true, Bool.not_eq_false',
              List.isEmpty_iff] at hb
            exact ⟨.other h.levelled rfl nofun, fun hne => absurd hb.2 hne, fun _ => hbegins, nofun⟩
        · split at hg
          · rename_i hc
            split at hg
            · obtain rfl := Progress.more.inj hg
              exact level_passOver h hstage (fun hends hb => (hfirst hends hb).2.1 hc) _ _
            · cases hg
          · rename_i h₁ h₂ h₃ h₄
            have hb : blankLine = false := by
              rw [Bool.eq_false_iff]
              rintro rfl
              rcases (hs.blankLine hstage).2 c (by rw [ht]; rfl) with rfl | rfl
              · exact h₂ rfl
              · exact h₃ rfl
            subst hb
            exact level_takeLexeme hs h hstage hg

theorem level_step {s s' : Scanner} (h : ∃ k, Sound text s k ∧ Level text s k) (hs : s.step = .more s') :
    ∃ k, Sound text s' k ∧ Level text s' k := by
  obtain ⟨k, hsound, hlevel⟩ := h
  obtain ⟨k', hsound'⟩ := sound_step ⟨k, hsound⟩ hs
  refine ⟨k', hsound', ?_⟩
  rw [step] at hs
  split at hs
  · exact level_beginLine hsound hlevel ‹_› hs hsound'
  · exact level_goOn hsound hlevel ‹_› hs hsound'

theorem levelled_of_run {fuel : Nat} {s : Scanner} {k : Nat} {tokens : List Token} (hs : Sound text s k)
    (h : Level text s k) (hr : s.run fuel = some tokens) :
    ∃ levels, Levelled text tokens.reverse levels := by
  obtain ⟨last, blankLine, ⟨k', -, h'⟩, hg⟩ :=
    exists_last_of_run (I := fun s => ∃ k, Sound text s k ∧ Level text s k) level_step ⟨k, hs, h⟩ hr
  rw [eq_of_goOn hg, List.reverse_reverse]
  exact ⟨last.levels, .other h'.levelled rfl nofun⟩

end Scanner

/-! ## The indentations that are open at a token -/

/-- How a lexeme changes the indentations that are open, innermost first. -/
inductive Leads : Lexeme → List Indent → List Indent → Prop
  | indent {level : Indent} {levels : List Indent} : (levels.headD .zero).wide < level.wide →
      Leads .indent levels (level :: levels)
  | dedent {level : Indent} {levels : List Indent} : Leads .dedent (level :: levels) levels
  | other {l : Lexeme} {levels : List Indent} : l.rise = 0 → Leads l levels levels

/-- The token is the first one of a logical line. -/
structure FirstOfLine (tokens : Array Token) (i : Nat) : Prop where
  starts : StartsAt tokens i
  before : ∀ k, k + 1 = i → ¬ StartsAt tokens k

/-- Behind the end of a logical line the next one begins. -/
theorem EndedAt.firstOfLine {tokens : Array Token} {i : Nat} (h : EndedAt tokens i)
    (hi : StartsAt tokens i) : FirstOfLine tokens i := by
  obtain ⟨e, he, -, hlayout⟩ := h
  refine ⟨hi, ?_⟩
  rintro k rfl hk
  obtain ⟨l, hl, hlay⟩ := hlayout k (Nat.le_of_lt_succ he) (Nat.lt_succ_self k)
  rw [hk.isLayout_eq_false hl] at hlay
  cases hlay

instance (tokens : Array Token) (i : Nat) : Decidable (StartsAt tokens i) :=
  decidable_of_iff ((lexemeAt tokens i).any (!·.isLayout) = true) (by simp [StartsAt, Option.any_eq_true])

instance (tokens : Array Token) (i : Nat) : Decidable (FirstOfLine tokens i) :=
  decidable_of_iff (StartsAt tokens i ∧ ∀ k < i, k + 1 = i → ¬ StartsAt tokens k)
    ⟨fun h => ⟨h.1, fun k hk => h.2 k (by omega) hk⟩, fun h => ⟨h.starts, fun k _ => h.before k⟩⟩

/-- The indentations that are open before each token. -/
structure Levels (text : List Char) (tokens : Array Token) (stack : Nat → List Indent) : Prop where
  outermost : stack 0 = []
  step : ∀ {i : Nat} {l : Lexeme}, lexemeAt tokens i = some l → Leads l (stack i) (stack (i + 1))
  first : ∀ {i : Nat}, FirstOfLine tokens i → ∃ k ≤ (normalizeNewlines text).length,
    startAt tokens i = placeOf text k ∧ Indented text k ((stack i).headD .zero).wide

section Cons

variable {t : Token} {found : List Token} {i : Nat}

theorem getElem?_cons_of_lt (h : i < found.length) :
    (t :: found).reverse.toArray[i]? = found.reverse.toArray[i]? := by
  simp [List.getElem?_append_left, h]

theorem getElem?_cons_length : (t :: found).reverse.toArray[found.length]? = some t := by
  simp

/-- A token is one of those found before or the last one. -/
theorem lt_or_eq_of_lexemeAt {l : Lexeme} (hl : lexemeAt (t :: found).reverse.toArray i = some l) :
    (i < found.length ∧ lexemeAt found.reverse.toArray i = some l) ∨ (i = found.length ∧ l = t.lexeme) := by
  obtain ⟨u, hu, rfl⟩ := Option.map_eq_some_iff.1 hl
  obtain ⟨hlt, -⟩ := Array.getElem?_eq_some_iff.1 hu
  rcases Nat.lt_or_eq_of_le (Nat.le_of_lt_succ (by simpa using hlt)) with hlt | rfl
  · rw [lexemeAt, getElem?_cons_of_lt hlt] at hl
    exact Or.inl ⟨hlt, hl⟩
  · rw [getElem?_cons_length] at hu
    exact Or.inr ⟨rfl, by rw [Option.some.inj hu]⟩

/-- One more token leads from the indentations before it to those behind it. -/
theorem Levels.exists_cons {stack : Nat → List Indent} (h : Levels text found.reverse.toArray stack)
    {levels : List Indent} (hleads : Leads t.lexeme (stack found.length) levels)
    (hfirst : t.lexeme.isLayout = false → EndsInLayout found → ∃ k ≤ (normalizeNewlines text).length,
      t.span.start = placeOf text k ∧ Indented text k ((stack found.length).headD .zero).wide) :
    ∃ stack', Levels text (t :: found).reverse.toArray stack' ∧ stack' (t :: found).length = levels := by
  refine ⟨Function.update stack (found.length + 1) levels, ⟨?_, fun {i l} hl => ?_, fun {i} hi => ?_⟩,
    Function.update_self _ _ _⟩
  · rw [Function.update_of_ne (Nat.succ_ne_zero _).symm]
    exact h.outermost
  · rcases lt_or_eq_of_lexemeAt hl with ⟨hlt, hl⟩ | ⟨rfl, rfl⟩
    · rw [Function.update_of_ne (by omega), Function.update_of_ne (by omega)]
      exact h.step hl
    · rwa [Function.update_of_ne (by omega), Function.update_self]
  · obtain ⟨⟨l, hl, hlayout⟩, hbefore⟩ := hi
    have hstarts {k : Nat} (hk : k < found.length) (hstarts : StartsAt found.reverse.toArray k) :
        StartsAt (t :: found).reverse.toArray k := by
      rwa [StartsAt, lexemeAt, getElem?_cons_of_lt hk]
    rcases lt_or_eq_of_lexemeAt hl with ⟨hlt, hl⟩ | ⟨rfl, rfl⟩
    · rw [Function.update_of_ne (by omega), startAt, getElem?_cons_of_lt hlt]
      exact h.first ⟨⟨l, hl, hlayout⟩, fun k hk hold => hbefore k hk (hstarts (by omega) hold)⟩
    · rw [Function.update_of_ne (by omega), startAt, getElem?_cons_length]
      refine hfirst hlayout fun u hu => ?_
      obtain ⟨rest, rfl⟩ := List.head?_eq_some_iff.1 hu
      by_contra hnot
      refine hbefore rest.length rfl (hstarts (by simp) ⟨u.lexeme, ?_, by simpa using hnot⟩)
      rw [lexemeAt, getElem?_cons_length, Option.map_some]

end Cons

theorem Levelled.exists_stack {found : List Token} {levels : List Indent} (h : Levelled text found levels) :
    ∃ stack, Levels text found.reverse.toArray stack ∧ stack found.length = levels := by
  induction h with
  | nil =>
    refine ⟨fun _ => [], ⟨rfl, fun h => ?_, fun h => ?_⟩, rfl⟩
    · cases h
    · obtain ⟨⟨l, h, -⟩, -⟩ := h
      cases h
  | indent _ hl hlt ih =>
    obtain ⟨stack, hlevels, rfl⟩ := ih
    refine hlevels.exists_cons (hl ▸ .indent hlt) fun hnot => ?_
    rw [hl] at hnot
    cases hnot
  | dedent _ hl ih =>
    obtain ⟨stack, hlevels, heq⟩ := ih
    refine hlevels.exists_cons (hl ▸ heq ▸ .dedent) fun hnot => ?_
    rw [hl] at hnot
    cases hnot
  | other _ hrise hfirst ih =>
    obtain ⟨stack, hlevels, rfl⟩ := ih
    exact hlevels.exists_cons (.other hrise) hfirst

/-- The tokens of a text have such indentations. -/
theorem levels_of_scanTokens {tokens : List Token} (h : scanTokens (normalizeNewlines text) = some tokens) :
    ∃ stack, Levels text tokens.toArray stack := by
  obtain ⟨levels, hlevels⟩ :=
    Scanner.levelled_of_run (Scanner.sound_start text) (Scanner.level_start text) h
  obtain ⟨stack, hstack, -⟩ := hlevels.exists_stack
  rw [List.reverse_reverse] at hstack
  exact ⟨stack, hstack⟩

namespace Levels

variable {tokens : Array Token} {stack : Nat → List Indent} (h : Levels text tokens stack) {i j : Nat}

include h

theorem exists_leads (hi : i < tokens.size) : ∃ l, lexemeAt tokens i = some l ∧
    Leads l (stack i) (stack (i + 1)) := by
  have hl : lexemeAt tokens i = some tokens[i].lexeme := by
    rw [lexemeAt, Array.getElem?_eq_getElem hi]
    rfl
  exact ⟨_, hl, h.step hl⟩

/-- The depth before a token is the number of the indentations that are open. -/
theorem depthAt_eq (hi : i ≤ tokens.size) : depthAt tokens i = (stack i).length := by
  induction i with
  | zero =>
    rw [h.outermost]
    rfl
  | succ i ih =>
    obtain ⟨l, hl, hleads⟩ := h.exists_leads hi
    rw [depthAt_succ hl, ih (Nat.le_of_succ_le hi)]
    generalize stack i = levels at hleads
    generalize stack (i + 1) = levels' at hleads
    cases hleads with
    | indent _ => simp [Lexeme.rise]
    | dedent => simp [Lexeme.rise]
    | other hrise => rw [hrise, add_zero]

/-- An indentation is greater than those that it stands in. -/
theorem pairwise_wide (hi : i ≤ tokens.size) : (stack i).Pairwise fun a b => b.wide < a.wide := by
  induction i with
  | zero =>
    rw [h.outermost]
    exact .nil
  | succ i ih =>
    obtain ⟨l, -, hleads⟩ := h.exists_leads hi
    have hpairs := ih (Nat.le_of_succ_le hi)
    generalize stack i = levels at hleads hpairs
    generalize stack (i + 1) = levels' at hleads
    cases hleads with
    | @indent level levels hlt =>
      refine List.pairwise_cons.2 ⟨fun inner hinner => ?_, hpairs⟩
      cases hpairs with
      | nil => cases hinner
      | cons hhead _ =>
        rcases List.mem_cons.1 hinner with rfl | hinner
        · exact hlt
        · exact (hhead _ hinner).trans hlt
    | dedent => exact (List.pairwise_cons.1 hpairs).2
    | other _ => exact hpairs

/-- What is open at a token stays open until it is left. -/
theorem isSuffix (hij : i ≤ j) (hj : j ≤ tokens.size)
    (hle : ∀ k, i ≤ k → k ≤ j → depthAt tokens i ≤ depthAt tokens k) : stack i <:+ stack j := by
  induction j, hij using Nat.le_induction with
  | base => exact List.suffix_rfl
  | succ j hij ih =>
    have hsuffix := ih (Nat.le_of_succ_le hj) fun k hik hkj => hle k hik (hkj.trans (Nat.le_succ j))
    have hdepth := hle (j + 1) (hij.trans (Nat.le_succ j)) le_rfl
    rw [h.depthAt_eq (hij.trans (Nat.le_of_succ_le hj)), h.depthAt_eq hj] at hdepth
    obtain ⟨l, -, hleads⟩ := h.exists_leads hj
    generalize stack j = levels at hleads hsuffix
    generalize stack (j + 1) = levels' at hleads hdepth
    cases hleads with
    | indent _ => exact hsuffix.trans (List.suffix_cons _ _)
    | dedent =>
      rcases List.suffix_cons_iff.1 hsuffix with heq | hsuffix
      · rw [heq, List.length_cons] at hdepth
        omega
      · exact hsuffix
    | other _ => exact hsuffix

/-- As long as no indentation is left that is open at a token, the indentation is as great as there. -/
theorem wide_le (hij : i ≤ j) (hj : j ≤ tokens.size)
    (hle : ∀ k, i ≤ k → k ≤ j → depthAt tokens i ≤ depthAt tokens k) :
    ((stack i).headD .zero).wide ≤ ((stack j).headD .zero).wide := by
  obtain ⟨inner, heq⟩ := h.isSuffix hij hj hle
  have hpairs := h.pairwise_wide hj
  rw [← heq] at hpairs ⊢
  cases hi : stack i with
  | nil => exact Nat.zero_le _
  | cons level levels =>
    rw [hi] at hpairs
    cases inner with
    | nil => exact le_rfl
    | cons top inner =>
      exact ((List.pairwise_cons.1 hpairs).1 level (by simp)).le

end Levels

end CallTrace.Syntax
