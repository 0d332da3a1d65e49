import Mathlib
import CallTrace.Proofs.Newlines
import CallTrace.Proofs.Tokens

/-!
# What stands between tokens

A step of the scanner takes a lexeme, or it skips something and marks layout at most
(`Scanner.goes_of_step`).  What it skips are blanks, line endings, comments and the backslashes that
join lines: `skip` goes over all of these, and the result is the same before a step that skips something
and after it.

* `Scanner.Spaced`: the invariant of the steps, beside `Scanner.Sound`.
* `spaced_of_scanTokens`: what is left of it after a run.  Going over what stands behind a token leads
  to the next one (`Near`), a name is an identifier, and a word goes on as far as it can
  (`Token.IsWhole`).

A text that is gone over as a whole before something that is not skipped is a gap (`isGap`).
-/

namespace CallTrace.Syntax

open Text

variable {text : List Char}

/-! ## Skipped text -/

/-- Whether the character ends a line, also of a text that is not as it is read. -/
def isLineEnd (c : Char) : Bool :=
  c = '\n' || c = '\r'

/-- What is left of a text behind what the scanner skips, inside a comment or not. -/
def skip (inComment : Bool) : List Char → List Char
  | [] => []
  | c :: rest =>
    if isLineEnd c then skip false rest
    else if inComment then skip true rest
    else if isSpace c then skip false rest
    else if c = '#' then skip true rest
    else if c = '\\' && rest.head?.any isLineEnd then skip false rest
    else c :: rest

/-- Whether the scanner skips the whole of a text that something else comes after. -/
def isGap (inComment : Bool) : List Char → Bool
  | [] => !inComment
  | c :: rest =>
    if isLineEnd c then isGap false rest
    else if inComment then isGap true rest
    else if isSpace c then isGap false rest
    else if c = '#' then isGap true rest
    else if c = '\\' && rest.head?.any isLineEnd then isGap false rest
    else false

theorem length_skip_le (inComment : Bool) (text : List Char) :
    (skip inComment text).length ≤ text.length := by
  induction text generalizing inComment with
  | nil => rfl
  | cons c rest ih =>
    have hle (inComment : Bool) : (skip inComment rest).length ≤ (c :: rest).length :=
      (ih inComment).trans (Nat.le_succ _)
    unfold skip
    split_ifs
    · exact hle false
    · exact hle true
    · exact hle false
    · exact hle true
    · exact hle false
    · exact le_rfl

theorem skip_ne_cons (inComment : Bool) (c : Char) (text : List Char) :
    skip inComment text ≠ c :: text := by
  intro h
  have hle := length_skip_le inComment text
  rw [h, List.length_cons] at hle
  omega

/-- Nothing is skipped where skipping ends. -/
theorem skip_skip (inComment : Bool) (text : List Char) :
    skip false (skip inComment text) = skip inComment text := by
  fun_induction skip inComment text with
  | case1 => rfl
  | case2 | case3 | case4 | case5 | case6 => assumption
  | case7 => simp_all [skip]

theorem skip_of_isSpace {c : Char} (h : isSpace c = true) (rest : List Char) :
    skip false (c :: rest) = skip false rest := by
  simp [skip, h]

theorem skip_of_isLineEnd {c : Char} (h : isLineEnd c = true) (inComment : Bool) (rest : List Char) :
    skip inComment (c :: rest) = skip false rest := by
  simp [skip, h]

/-- A backslash before a line ending joins the lines. -/
theorem skip_joined (rest : List Char) : skip false ('\\' :: '\n' :: rest) = skip false rest := by
  simp [skip, isLineEnd, isSpace]

/-- A comment is skipped up to the end of its line. -/
theorem skip_comment {text : List Char} (h : '\r' ∉ text) :
    skip true text = skip false (text.dropWhile fun c => decide (c ≠ '\n')) := by
  induction text with
  | nil => rfl
  | cons c rest ih =>
    rw [List.mem_cons, not_or] at h
    by_cases hc : c = '\n'
    · simp [skip, isLineEnd, hc]
    · rw [List.dropWhile_cons_of_pos (by simpa using hc), ← ih h.2]
      simp [skip, isLineEnd, hc, Ne.symm h.1]

/-- A word begins with none of the characters that are skipped. -/
theorem not_skipped_of_mayContinue {c : Char} (h : Unicode.mayContinue c = true) :
    isLineEnd c = false ∧ isSpace c = false ∧ c ≠ '#' ∧ c ≠ '\\' := by
  have hne {d : Char} (hd : Unicode.mayContinue d = false) : c ≠ d := by
    rintro rfl
    rw [h] at hd
    cases hd
  refine ⟨?_, ?_, hne (by decide), hne (by decide)⟩
  · simp [isLineEnd, hne (d := '\n') (by decide), hne (d := '\r') (by decide)]
  · simp [isSpace, hne (d := ' ') (by decide), hne (d := '\t') (by decide),
      hne (d := '\x0c') (by decide)]

theorem skip_of_mayContinue {text : List Char} (h : text.head?.any Unicode.mayContinue = true) :
    text ≠ [] ∧ skip false text = text := by
  cases text with
  | nil => cases h
  | cons c rest =>
    obtain ⟨hend, hspace, hmark, hslash⟩ := not_skipped_of_mayContinue h
    simp [skip, hend, hspace, hmark, hslash]

/-- Gaps are what is skipped before something that is not, whatever that is. -/
theorem skip_append_iff {inComment : Bool} {gap rest : List Char} (hne : rest ≠ [])
    (h : skip false rest = rest) : skip inComment (gap ++ rest) = rest ↔ isGap inComment gap = true := by
  obtain ⟨c, more, rfl⟩ := List.exists_cons_of_ne_nil hne
  have hend : isLineEnd c = false := by
    by_contra hc
    rw [skip_of_isLineEnd (by simpa using hc)] at h
    exact skip_ne_cons false c more h
  induction gap generalizing inComment with
  | nil =>
    cases inComment with
    | false => simpa [isGap] using h
    | true => simpa [isGap, skip, hend] using skip_ne_cons true c more
  | cons d gap ih =>
    have hhead : (gap ++ c :: more).head?.any isLineEnd = gap.head?.any isLineEnd := by
      cases gap with
      | nil => simpa using hend
      | cons e gap => rfl
    rw [List.cons_append, skip, isGap, hhead]
    split_ifs
    · exact ih
    · exact ih
    · exact ih
    · exact ih
    · exact ih
    · simp only [iff_false]
      intro heq
      have hlength := congrArg List.length heq
      simp only [List.length_cons, List.length_append] at hlength
      omega

/-- How lines end makes no difference to gaps. -/
theorem isGap_normalizeNewlines (inComment : Bool) (text : List Char) :
    isGap inComment (normalizeNewlines text) = isGap inComment text := by
  fun_induction normalizeNewlines text generalizing inComment with
  | case1 => rfl
  | case2 rest ih => simp [isGap, isLineEnd, ih]
  | case3 c rest hne ih =>
    have hhead : (normalizeNewlines rest).head?.any isLineEnd = rest.head?.any isLineEnd :=
      any_head?_normalizeNewlines rfl rest
    by_cases hc : c = '\r'
    · simp [isGap, isLineEnd, hc, ih]
    · simp [isGap, hc, hhead, ih]

theorem isBlank_of_isSpace {c : Char} (h : isSpace c = true) : Unicode.isBlank c = true := by
  simp only [isSpace, Bool.or_eq_true, decide_eq_true_eq] at h
  rcases h with (rfl | rfl) | rfl <;> decide

theorem isBlank_of_isLineEnd {c : Char} (h : isLineEnd c = true) : Unicode.isBlank c = true := by
  simp only [isLineEnd, Bool.or_eq_true, decide_eq_true_eq] at h
  rcases h with rfl | rfl <;> decide

/-- Behind a line ending a gap begins again. -/
theorem isGap_of_append {inComment : Bool} {front back : List Char}
    (h : isGap inComment (front ++ '\n' :: back) = true) : isGap false back = true := by
  induction front generalizing inComment with
  | nil => simpa [isGap, isLineEnd] using h
  | cons c front ih =>
    rw [List.cons_append, isGap] at h
    split_ifs at h <;> exact ih h

/-- A gap without line endings is blank. -/
theorem isSpace_of_isGap {inComment : Bool} {gap : List Char} (h : isGap inComment gap = true)
    (hends : ∀ c ∈ gap, isLineEnd c = false) : inComment = false ∧ ∀ c ∈ gap, isSpace c = true := by
  induction gap generalizing inComment with
  | nil => simpa [isGap] using h
  | cons c gap ih =>
    rw [List.forall_mem_cons] at hends
    rw [isGap, if_neg (by simp [hends.1])] at h
    split_ifs at h with h₁ h₂ h₃ h₄
    · exact absurd (ih h hends.2).1 (by simp)
    · exact ⟨by simpa using h₁, List.forall_mem_cons.2 ⟨h₂, (ih h hends.2).2⟩⟩
    · exact absurd (ih h hends.2).1 (by simp)
    · -- No line ending comes behind a backslash.
      cases gap with
      | nil => simp at h₄
      | cons d gap => simp [hends.2 d List.mem_cons_self] at h₄

/-- A gap shows nothing before a comment or the end of a line that goes on. -/
theorem head_of_isGap {gap : List Char} (h : isGap false gap = true) :
    ∀ c ∈ (gap.dropWhile Unicode.isBlank).head?, c = '#' ∨ c = '\\' := by
  induction gap with
  | nil => simp
  | cons c gap ih =>
    by_cases hb : Unicode.isBlank c = true
    · rw [List.dropWhile_cons_of_pos hb]
      refine ih ?_
      have hmark : c ≠ '#' := by rintro rfl; revert hb; decide
      have hslash : c ≠ '\\' := by rintro rfl; revert hb; decide
      rw [isGap] at h
      split_ifs at h with h₁ h₂ h₃ h₄ <;> first | exact h | simp_all
    · rw [List.dropWhile_cons_of_neg hb]
      rw [isGap, if_neg fun h => hb (isBlank_of_isLineEnd h), if_neg Bool.false_ne_true,
        if_neg fun h => hb (isBlank_of_isSpace h)] at h
      intro d hd
      obtain rfl := Option.some.inj hd
      split_ifs at h with h₁ h₂
      · exact Or.inl h₁
      · exact Or.inr (by simp_all)

/-- What measuring takes off a line is skipped. -/
theorem skip_measure {indent indent' : Indent} {held : Nat} {place place' : Position}
    {line line' : List Char} (h : measure indent held place line = some (indent', place', line')) :
    skip false line = skip false line' := by
  fun_induction measure indent held place line with
  | case1 => cases h
  | case2 indent held place rest hne ih => rw [skip_joined, ih h]
  | case3 => cases h
  | case4 indent held place c rest hne hb hc ih => rw [skip_of_isSpace hc, ih h]
  | case5 indent held place c rest hne hb hc =>
    simp only [Option.some.injEq, Prod.mk.injEq] at h
    rw [h.2.2]
  | case6 indent held place =>
    simp only [Option.some.injEq, Prod.mk.injEq] at h
    rw [h.2.2]

/-! ## Words -/

/-- Whether a lexeme is a word. -/
def Lexeme.isWord : Lexeme → Bool
  | .keyword _ | .name _ => true
  | _ => false

/-- A word begins as one may and goes on as far as it can; a name is an identifier. -/
theorem word_of_scanLexeme {line spelling left : List Char} {l : Lexeme}
    (h : scanLexeme line = some (l, spelling, left)) :
    (∀ name, l = .name name → Unicode.isIdentifier name = true) ∧
      (l.isWord = true → left.head?.any Unicode.mayContinue = false) := by
  have hstop : (line.dropWhile Unicode.mayContinue).head?.any Unicode.mayContinue = false := by
    have hnot := List.head?_dropWhile_not Unicode.mayContinue line
    cases hhead : (line.dropWhile Unicode.mayContinue).head? with
    | none => rfl
    | some c => simpa [hhead] using hnot
  unfold scanLexeme at h
  cases line with
  | nil => cases h
  | cons c rest =>
    simp only at h
    split at h
    · split at h
      · obtain ⟨r, -, he⟩ := Option.map_eq_some_iff.1 h
        simp only [Prod.mk.injEq] at he
        obtain ⟨rfl, -⟩ := he
        exact ⟨nofun, nofun⟩
      · split at h
        · rename_i hident
          split at h <;> (simp only [Option.some.injEq, Prod.mk.injEq] at h; obtain ⟨rfl, -, rfl⟩ := h)
          · exact ⟨nofun, fun _ => hstop⟩
          · exact ⟨fun name hname => Lexeme.name.inj hname ▸ hident, fun _ => hstop⟩
        · cases h
    · split at h
      · obtain ⟨r, -, he⟩ := Option.map_eq_some_iff.1 h
        simp only [Prod.mk.injEq] at he
        obtain ⟨rfl, -⟩ := he
        exact ⟨nofun, nofun⟩
      · split at h
        · split at h
          · cases h
          · obtain ⟨value, -, he⟩ := Option.map_eq_some_iff.1 h
            simp only [Prod.mk.injEq] at he
            obtain ⟨rfl, -⟩ := he
            exact ⟨nofun, nofun⟩
        · split at h
          · cases h
          · simp only [Option.some.injEq, Prod.mk.injEq] at h
            obtain ⟨rfl, -⟩ := h
            exact ⟨nofun, nofun⟩

/-- A token that is a word is the whole of it: no character that could go on with it stands behind it,
and a name is an identifier. -/
structure Token.IsWhole (text : List Char) (t : Token) : Prop where
  identifier : ∀ name, t.lexeme = .name name → Unicode.isIdentifier name = true
  ends : t.lexeme.isWord = true → ∃ j ≤ (normalizeNewlines text).length, t.span.stop = placeOf text j ∧
    (normalizeNewlines text)[j]?.any Unicode.mayContinue = false

theorem Token.isWhole_of_isLayout {t : Token} (h : t.lexeme.isLayout = true) : t.IsWhole text where
  identifier name hname := by rw [hname] at h; cases h
  ends hword := by
    cases hl : t.lexeme <;> rw [hl] at h hword <;> cases h <;> cases hword

/-- What is skipped behind a token leads to the next one, unless one of them is layout. -/
def Near (text : List Char) (t u : Token) : Prop :=
  t.lexeme.isLayout = false → u.lexeme.isLayout = false →
    ∃ j ≤ (normalizeNewlines text).length, ∃ k ≤ (normalizeNewlines text).length,
      t.span.stop = placeOf text j ∧ u.span.start = placeOf text k ∧
        skip false ((normalizeNewlines text).drop j) = (normalizeNewlines text).drop k

/-! ## Steps -/

namespace Scanner

/-- What a step comes to. -/
inductive Goes (s s' : Scanner) : Prop
  /-- Something is skipped, and layout may be marked. -/
  | pass {marks : List Token} : skip false s.text = skip false s'.text →
      s'.found = marks ++ s.found → (∀ t ∈ marks, t.lexeme.isLayout = true) → Goes s s'
  /-- A lexeme is taken where nothing is skipped. -/
  | take {l : Lexeme} {spelling : List Char} : skip false s.text = s.text →
      scanLexeme s.text = some (l, spelling, s'.text) →
      s'.found = ⟨l, s.place, s'.place⟩ :: s.found → Goes s s'

/-- A step that marks nothing. -/
theorem Goes.of_skip {s s' : Scanner} (h : skip false s.text = skip false s'.text)
    (hfound : s'.found = s.found) : Goes s s' :=
  .pass h (hfound.trans (List.nil_append s.found).symm) (by simp)

theorem foldl_mark (steps : List Lexeme) : ∀ s : Scanner, (steps.foldl mark s).text = s.text ∧
    ∃ marks, (steps.foldl mark s).found = marks ++ s.found ∧ ∀ t ∈ marks, t.lexeme ∈ steps := by
  induction steps with
  | nil => exact fun s => ⟨rfl, [], rfl, by simp⟩
  | cons l steps ih =>
    intro s
    obtain ⟨htext, marks, hfound, hmarks⟩ := ih (s.mark l)
    refine ⟨htext, marks ++ [⟨l, s.place, s.place⟩], ?_, fun t ht => ?_⟩
    · rw [List.foldl_cons, hfound, mark]
      simp
    · rcases List.mem_append.1 ht with ht | ht
      · exact List.mem_cons_of_mem l (hmarks t ht)
      · obtain rfl := List.mem_singleton.1 ht
        exact List.mem_cons_self

theorem goes_of_beginLine {s s' : Scanner} (h : s.beginLine = .more s') : Goes s s' := by
  unfold beginLine at h
  split at h
  · cases h
  · rename_i indent place line hm
    simp only at h
    split at h
    · obtain rfl := Progress.more.inj h
      exact .of_skip (skip_measure hm) rfl
    · split at h
      · cases h
      · rename_i steps levels hsteps
        obtain rfl := Progress.more.inj h
        obtain ⟨hleft, marks, hfound, hmarks⟩ := foldl_mark steps
          { s with stage := .within (line.head? = some '#' || line.head? = some '\n'),
                   place := place, text := line, levels := levels }
        refine .pass (by rw [hleft]; exact skip_measure hm) hfound fun t ht => ?_
        rcases stepsTo_layout hsteps _ (hmarks t ht) with hl | hl <;> rw [hl] <;> rfl

theorem goes_of_goOn {s s' : Scanner} {blankLine : Bool} (hr : '\r' ∉ s.text)
    (h : s.goOn blankLine = .more s') : Goes s s' := by
  unfold goOn at h
  split at h
  · split at h <;> cases h
  · rename_i c rest htext
    split at h
    · rename_i hc
      obtain rfl := Progress.more.inj h
      exact .of_skip (by rw [htext, skip_of_isSpace hc]) rfl
    split at h
    · rename_i hc
      obtain rfl := Progress.more.inj h
      rw [htext, List.mem_cons, not_or] at hr
      refine .of_skip ?_ rfl
      show skip false s.text = skip false (s.text.dropWhile fun c => decide (c ≠ '\n'))
      rw [htext, hc, List.dropWhile_cons_of_pos (by decide), ← skip_comment hr.2]
      rfl
    split at h
    · rename_i hc
      obtain rfl := Progress.more.inj h
      have hskip : skip false s.text = skip false rest := by
        rw [htext, skip_of_isLineEnd (by rw [hc]; rfl)]
      split
      · exact .of_skip hskip rfl
      · exact @Goes.pass s _ [⟨.newline, s.place, s.place⟩] hskip rfl (by simp [Lexeme.isLayout])
    split at h
    · rename_i hc
      split at h
      · rename_i d more
        obtain rfl := Progress.more.inj h
        exact .of_skip (by rw [htext, hc, skip_joined]) rfl
      · cases h
    · rename_i hspace hmark hbreak hslash
      unfold takeLexeme at h
      split at h
      · cases h
      · rename_i l spelling left hl
        split at h
        · cases h
        · obtain rfl := Progress.more.inj h
          rw [htext, List.mem_cons, not_or] at hr
          refine .take ?_ hl rfl
          rw [htext]
          simp [skip, isLineEnd, hspace, hmark, hbreak, hslash, Ne.symm hr.1]

theorem goes_of_step {s s' : Scanner} (hr : '\r' ∉ s.text) (h : s.step = .more s') : Goes s s' := by
  rw [step] at h
  split at h
  · exact goes_of_beginLine h
  · exact goes_of_goOn hr h

/-- What holds between two steps of the tokens found and of what was skipped behind the last of them,
when the first `k` characters of the text are taken. -/
structure Spaced (text : List Char) (s : Scanner) (k : Nat) : Prop where
  sound : Sound text s k
  near : s.found.IsChain fun u t => Near text t u
  /-- Nothing but skipped text stands behind the last token. -/
  last : ∀ t ∈ s.found.head?, t.lexeme.isLayout = false → ∃ j ≤ (normalizeNewlines text).length,
    t.span.stop = placeOf text j ∧ skip false ((normalizeNewlines text).drop j) = skip false s.text
  whole : ∀ t ∈ s.found, t.IsWhole text

theorem spaced_start (text : List Char) : Spaced text (start (normalizeNewlines text)) 0 where
  sound := sound_start text
  near := .nil
  last := by intro t ht; cases ht
  whole := by intro t ht; cases ht

/-- Layout is near to everything. -/
theorem isChain_append {marks found : List Token} (hmarks : ∀ t ∈ marks, t.lexeme.isLayout = true)
    (h : found.IsChain fun u t => Near text t u) :
    (marks ++ found).IsChain fun u t => Near text t u := by
  induction marks with
  | nil => exact h
  | cons m marks ih =>
    rw [List.forall_mem_cons] at hmarks
    refine (ih hmarks.2).cons fun t _ _ hlayout => ?_
    rw [hmarks.1] at hlayout
    cases hlayout

theorem spaced_skip {s s' : Scanner} {k k' : Nat} {marks : List Token} (h : Spaced text s k)
    (h' : Sound text s' k') (hskip : skip false s.text = skip false s'.text)
    (hfound : s'.found = marks ++ s.found) (hmarks : ∀ t ∈ marks, t.lexeme.isLayout = true) :
    Spaced text s' k' := by
  refine ⟨h', by rw [hfound]; exact isChain_append hmarks h.near, fun t ht hlayout => ?_, ?_⟩
  · cases marks with
    | cons m marks =>
      rw [hfound, List.cons_append, List.head?_cons, Option.mem_some_iff] at ht
      rw [← ht, hmarks m List.mem_cons_self] at hlayout
      cases hlayout
    | nil =>
      rw [hfound] at ht
      obtain ⟨j, hj, hstop, hlast⟩ := h.last t ht hlayout
      exact ⟨j, hj, hstop, hlast.trans hskip⟩
  · rw [hfound, List.forall_mem_append]
    exact ⟨fun t ht => Token.isWhole_of_isLayout (hmarks t ht), h.whole⟩

theorem spaced_take {s s' : Scanner} {k k' : Nat} {l : Lexeme} {spelling : List Char}
    (h : Spaced text s k) (h' : Sound text s' k') (hskip : skip false s.text = s.text)
    (hscan : scanLexeme s.text = some (l, spelling, s'.text))
    (hfound : s'.found = ⟨l, s.place, s'.place⟩ :: s.found) : Spaced text s' k' := by
  obtain ⟨hidentifier, hends⟩ := word_of_scanLexeme hscan
  refine ⟨h', ?_, fun t ht _ => ?_, ?_⟩
  · rw [hfound]
    refine h.near.cons fun t ht hlayout _ => ?_
    obtain ⟨j, hj, hstop, hlast⟩ := h.last t ht hlayout
    exact ⟨j, hj, k, h.sound.bound, hstop, h.sound.placed, by rw [hlast, hskip, h.sound.left]⟩
  · rw [hfound, List.head?_cons, Option.mem_some_iff] at ht
    subst ht
    exact ⟨k', h'.bound, h'.placed, by rw [h'.left]⟩
  · rw [hfound, List.forall_mem_cons]
    refine ⟨⟨hidentifier, fun hword => ⟨k', h'.bound, h'.placed, ?_⟩⟩, h.whole⟩
    rw [← hends hword, h'.left, List.head?_drop]

theorem spaced_step {s s' : Scanner} (h : ∃ k, Spaced text s k) (hs : s.step = .more s') :
    ∃ k, Spaced text s' k := by
  obtain ⟨k, h⟩ := h
  obtain ⟨k', h'⟩ := sound_step ⟨k, h.sound⟩ hs
  have hr : '\r' ∉ s.text := fun hmem =>
    not_mem_normalizeNewlines text (List.mem_of_mem_drop (h.sound.left ▸ hmem))
  cases goes_of_step hr hs with
  | pass hskip hfound hmarks => exact ⟨k', spaced_skip h h' hskip hfound hmarks⟩
  | take hskip hscan hfound => exact ⟨k', spaced_take h h' hskip hscan hfound⟩

end Scanner

/-- Only skipped text stands between the tokens of a text, and its words are whole. -/
theorem spaced_of_scanTokens {tokens : List Token}
    (h : scanTokens (normalizeNewlines text) = some tokens) :
    tokens.IsChain (Near text) ∧ ∀ t ∈ tokens, t.IsWhole text := by
  obtain ⟨last, blankLine, ⟨k, hlast⟩, hgo⟩ := Scanner.exists_last_of_run
    (I := fun s => ∃ k, Scanner.Spaced text s k) Scanner.spaced_step
    ⟨0, Scanner.spaced_start text⟩ h
  have hfinish : ∀ t ∈ [(⟨.finish, last.place, last.place⟩ : Token)], t.lexeme.isLayout = true := by
    simp [Lexeme.isLayout]
  rw [Scanner.eq_of_goOn hgo]
  refine ⟨List.isChain_reverse.2 (Scanner.isChain_append hfinish hlast.near), fun t ht => ?_⟩
  rcases List.mem_cons.1 (List.mem_reverse.1 ht) with rfl | ht
  · exact Token.isWhole_of_isLayout rfl
  · exact hlast.whole t ht

end CallTrace.Syntax
