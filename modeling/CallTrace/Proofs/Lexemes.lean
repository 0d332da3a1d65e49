import Mathlib
import CallTrace.Syntax.Token.Scan
import CallTrace.Unicode.Blank

/-!
# What a lexeme takes

`append_scanLexeme` says that the spelling of a lexeme and the text left after it are the text that
was scanned.  The lemmas around it say how spellings begin and end: a reserved word is spelled as the
table has it, a string literal ends with a quote, and nothing ends in a blank.
-/

namespace CallTrace.Syntax

/-! ## Blanks -/

/-- No character of the text is blank. -/
def IsSolid (text : List Char) : Prop :=
  ∀ c ∈ text, Unicode.isBlank c = false

@[simp] theorem isSolid_nil : IsSolid [] := by simp [IsSolid]

@[simp] theorem isSolid_cons {c : Char} {text : List Char} :
    IsSolid (c :: text) ↔ Unicode.isBlank c = false ∧ IsSolid text := by
  simp [IsSolid]

@[simp] theorem isSolid_append {front back : List Char} :
    IsSolid (front ++ back) ↔ IsSolid front ∧ IsSolid back := by
  simp [IsSolid, or_imp, forall_and]

/-- The code points of blank characters. -/
def blankCodes : List Nat :=
  [9, 10, 11, 12, 13, 28, 29, 30, 31, 32, 0x85, 0xa0, 0x1680, 0x2000, 0x2001, 0x2002, 0x2003, 0x2004,
   0x2005, 0x2006, 0x2007, 0x2008, 0x2009, 0x200a, 0x2028, 0x2029, 0x202f, 0x205f, 0x3000]

theorem exists_of_isBlank {c : Char} (h : Unicode.isBlank c = true) : ∃ n ∈ blankCodes, c = Char.ofNat n := by
  refine ⟨c.toNat, ?_, (Char.ofNat_toNat c).symm⟩
  simp only [Unicode.isBlank, Bool.or_eq_true, Bool.and_eq_true, decide_eq_true_eq] at h
  simp only [blankCodes, List.mem_cons, List.not_mem_nil, or_false]
  omega

/-- What holds of none of the blank characters. -/
theorem isBlank_eq_false {p : Char → Bool} (hp : ∀ n ∈ blankCodes, p (Char.ofNat n) = false) {c : Char}
    (h : p c = true) : Unicode.isBlank c = false := by
  by_contra hblank
  obtain ⟨n, hn, rfl⟩ := exists_of_isBlank (by simpa using hblank)
  rw [hp n hn] at h
  cases h

theorem isSolid_of_isIdentifier {word : List Char} (h : Unicode.isIdentifier word = true) :
    IsSolid word := by
  cases word with
  | nil => cases h
  | cons c rest =>
    rw [Unicode.isIdentifier, Bool.and_eq_true, List.all_eq_true] at h
    exact isSolid_cons.2 ⟨isBlank_eq_false (by decide +kernel) h.1,
      fun d hd => isBlank_eq_false (by decide +kernel) (h.2 d hd)⟩

/-! ## Numerals -/

namespace Numeral

theorem digitRun_ne_nil {digit : Char → Bool} {text run left : List Char}
    (h : digitRun digit text = some (run, left)) : run ≠ [] := by
  fun_induction digitRun digit text generalizing run left with
  | case1 => simp at h
  | case2 d hd more ih =>
    obtain ⟨⟨r, l⟩, -, he⟩ := Option.map_eq_some_iff.1 h
    simp only [Prod.mk.injEq] at he
    simp [← he.1]
  | case3 d hd c more _ hc ih =>
    obtain ⟨⟨r, l⟩, -, he⟩ := Option.map_eq_some_iff.1 h
    simp only [Prod.mk.injEq] at he
    simp [← he.1]
  | case4 d hd c more _ hc =>
    simp only [Option.some.injEq, Prod.mk.injEq] at h
    simp [← h.1]
  | case5 d hd =>
    simp only [Option.some.injEq, Prod.mk.injEq] at h
    simp [← h.1]
  | case6 => simp at h

theorem isSolid_digitRun {digit : Char → Bool} (hdigit : ∀ n ∈ blankCodes, digit (Char.ofNat n) = false)
    {text run left : List Char} (h : digitRun digit text = some (run, left)) : IsSolid run := by
  have first {d : Char} (hd : digit d = true) : Unicode.isBlank d = false := isBlank_eq_false hdigit hd
  have underscore : Unicode.isBlank '_' = false := by decide
  fun_induction digitRun digit text generalizing run left with
  | case1 => simp at h
  | case2 d hd more ih =>
    obtain ⟨⟨r, l⟩, hr, he⟩ := Option.map_eq_some_iff.1 h
    simp only [Prod.mk.injEq] at he
    simp [← he.1, first hd, underscore, ih hr]
  | case3 d hd c more _ hc ih =>
    obtain ⟨⟨r, l⟩, hr, he⟩ := Option.map_eq_some_iff.1 h
    simp only [Prod.mk.injEq] at he
    simp [← he.1, first hd, ih hr]
  | case4 d hd c more _ hc =>
    simp only [Option.some.injEq, Prod.mk.injEq] at h
    simp [← h.1, first hd]
  | case5 d hd =>
    simp only [Option.some.injEq, Prod.mk.injEq] at h
    simp [← h.1, first hd]
  | case6 => simp at h

theorem isSolid_decimalRun {text run left : List Char}
    (h : digitRun isDecimal text = some (run, left)) : IsSolid run :=
  isSolid_digitRun (by decide) h

theorem append_fraction {text part left : List Char} (h : fraction text = some (part, left)) :
    part ++ left = text ∧ IsSolid part := by
  have point : Unicode.isBlank '.' = false := by decide
  unfold fraction at h
  split at h
  · split at h
    · obtain ⟨⟨r, l⟩, hr, he⟩ := Option.map_eq_some_iff.1 h
      simp only [Prod.mk.injEq] at he
      obtain ⟨rfl, rfl⟩ := he
      rw [List.cons_append, append_digitRun hr]
      exact ⟨rfl, by simp [point, isSolid_decimalRun hr]⟩
    · simp only [Option.some.injEq, Prod.mk.injEq] at h
      obtain ⟨rfl, rfl⟩ := h
      exact ⟨rfl, by simp [point]⟩
  · simp only [Option.some.injEq, Prod.mk.injEq] at h
    obtain ⟨rfl, rfl⟩ := h
    exact ⟨rfl, isSolid_nil⟩

theorem append_exponentPart {text part left : List Char}
    (h : exponentPart text = some (part, left)) : part ++ left = text ∧ IsSolid part := by
  have nothing {rest : List Char} (h : some ([], rest) = some (part, left)) :
      part ++ left = rest ∧ IsSolid part := by
    simp only [Option.some.injEq, Prod.mk.injEq] at h
    obtain ⟨rfl, rfl⟩ := h
    exact ⟨rfl, isSolid_nil⟩
  unfold exponentPart at h
  split at h
  · rename_i e c rest
    split at h
    · rename_i he
      have he : Unicode.isBlank e = false := by
        rcases he with rfl | rfl <;> decide
      split at h
      · rename_i hc
        obtain ⟨⟨r, l⟩, hr, heq⟩ := Option.map_eq_some_iff.1 h
        simp only [Prod.mk.injEq] at heq
        obtain ⟨rfl, rfl⟩ := heq
        have hc : Unicode.isBlank c = false := by
          rcases hc with rfl | rfl <;> decide
        rw [List.cons_append, List.cons_append, append_digitRun hr]
        exact ⟨rfl, by simp [he, hc, isSolid_decimalRun hr]⟩
      · split at h
        · obtain ⟨⟨r, l⟩, hr, heq⟩ := Option.map_eq_some_iff.1 h
          simp only [Prod.mk.injEq] at heq
          obtain ⟨rfl, rfl⟩ := heq
          rw [List.cons_append, append_digitRun hr]
          exact ⟨rfl, by simp [he, isSolid_decimalRun hr]⟩
        · exact nothing h
    · exact nothing h
  · exact nothing h

theorem append_imaginaryMark (text : List Char) :
    (imaginaryMark text).1 ++ (imaginaryMark text).2 = text ∧ IsSolid (imaginaryMark text).1 := by
  unfold imaginaryMark
  split
  · exact ⟨rfl, by simp; decide⟩
  · exact ⟨rfl, by simp; decide⟩
  · exact ⟨rfl, isSolid_nil⟩

theorem fraction_ne_nil {text part left : List Char} (h : fraction text = some (part, left))
    (hd : text.head? = some '.') : part ≠ [] := by
  unfold fraction at h
  split at h
  · split at h
    · obtain ⟨⟨r, l⟩, -, he⟩ := Option.map_eq_some_iff.1 h
      simp only [Prod.mk.injEq] at he
      simp [← he.1]
    · simp only [Option.some.injEq, Prod.mk.injEq] at h
      simp [← h.1]
  · rename_i hne
    cases text with
    | nil => cases hd
    | cons c rest => exact absurd (by rw [Option.some.inj hd]) (hne rest)

theorem append_scanDecimal {text spelling left : List Char}
    (h : scanDecimal text = some (spelling, left)) :
    spelling ++ left = text ∧ spelling ≠ [] ∧ IsSolid spelling := by
  obtain ⟨whole, rest₁, part, rest₂, power, rest₃, hwhole, hplain, hempty, hpart, hpower, hs, rfl⟩ :
      ∃ whole rest₁ part rest₂ power rest₃, whole ++ rest₁ = text ∧ IsSolid whole ∧
        (whole = [] → rest₁.head? = some '.') ∧ fraction rest₁ = some (part, rest₂) ∧
        exponentPart rest₂ = some (power, rest₃) ∧
        spelling = whole ++ part ++ power ++ (imaginaryMark rest₃).1 ∧
        (imaginaryMark rest₃).2 = left := by
    unfold scanDecimal at h
    simp only [Option.bind_eq_bind] at h
    split at h
    · rename_i hd
      simp only [Option.bind_some, Option.bind_eq_some_iff] at h
      obtain ⟨⟨part, rest₂⟩, hpart, ⟨power, rest₃⟩, hpower, h⟩ := h
      split at h
      · cases h
      · simp only [Option.some.injEq, Prod.mk.injEq] at h
        exact ⟨[], text, part, rest₂, power, rest₃, rfl, isSolid_nil, fun _ => hd, hpart, hpower,
          h.1.symm, h.2⟩
    · simp only [Option.bind_eq_some_iff] at h
      obtain ⟨⟨whole, rest₁⟩, hwhole, ⟨part, rest₂⟩, hpart, ⟨power, rest₃⟩, hpower, h⟩ := h
      split at h
      · cases h
      · simp only [Option.some.injEq, Prod.mk.injEq] at h
        exact ⟨whole, rest₁, part, rest₂, power, rest₃, append_digitRun hwhole,
          isSolid_decimalRun hwhole, fun e => absurd e (digitRun_ne_nil hwhole), hpart, hpower, h.1.symm, h.2⟩
  obtain ⟨hmark, hmarkPlain⟩ := append_imaginaryMark rest₃
  obtain ⟨hpower, hpowerPlain⟩ := append_exponentPart hpower
  obtain ⟨hfraction, hfractionPlain⟩ := append_fraction hpart
  refine ⟨?_, ?_, ?_⟩
  · rw [hs, List.append_assoc, hmark, List.append_assoc, hpower, List.append_assoc, hfraction, hwhole]
  · intro he
    rw [hs] at he
    simp only [List.append_eq_nil_iff] at he
    exact fraction_ne_nil hpart (hempty he.1.1.1) he.1.1.2
  · rw [hs]
    simp [hplain, hfractionPlain, hpowerPlain, hmarkPlain]

theorem append_scanRadix {digit : Char → Bool} (hdigit : ∀ n ∈ blankCodes, digit (Char.ofNat n) = false)
    {text spelling left : List Char} (h : scanRadix digit text = some (spelling, left)) :
    spelling ++ left = text ∧ IsSolid spelling := by
  have underscore : Unicode.isBlank '_' = false := by decide
  unfold scanRadix at h
  split at h
  · obtain ⟨⟨r, l⟩, hr, he⟩ := Option.map_eq_some_iff.1 h
    simp only [Prod.mk.injEq] at he
    obtain ⟨rfl, rfl⟩ := he
    rw [List.cons_append, append_digitRun hr]
    exact ⟨rfl, by simp [underscore, isSolid_digitRun hdigit hr]⟩
  · exact ⟨append_digitRun h, isSolid_digitRun hdigit h⟩

theorem plain_of_radixOf {letter : Char} {base : Nat} {digit : Char → Bool}
    (h : radixOf letter = some (base, digit)) :
    Unicode.isBlank letter = false ∧ ∀ n ∈ blankCodes, digit (Char.ofNat n) = false := by
  unfold radixOf at h
  split at h
  · rename_i hl
    obtain ⟨-, rfl⟩ := Prod.mk.inj (Option.some.inj h)
    rcases hl with rfl | rfl <;> decide
  split at h
  · rename_i hl
    obtain ⟨-, rfl⟩ := Prod.mk.inj (Option.some.inj h)
    rcases hl with rfl | rfl <;> decide
  split at h
  · rename_i hl
    obtain ⟨-, rfl⟩ := Prod.mk.inj (Option.some.inj h)
    rcases hl with rfl | rfl <;> decide
  · cases h

theorem append_scan {text spelling left : List Char} (h : scan text = some (spelling, left)) :
    spelling ++ left = text ∧ spelling ≠ [] ∧ IsSolid spelling := by
  have last {s rest : List Char} (hs : s ++ rest = text ∧ s ≠ [] ∧ IsSolid s)
      (h : (if mayFollow rest = true then some (s, rest) else none) = some (spelling, left)) :
      spelling ++ left = text ∧ spelling ≠ [] ∧ IsSolid spelling := by
    split at h
    · simp only [Option.some.injEq, Prod.mk.injEq] at h
      obtain ⟨rfl, rfl⟩ := h
      exact hs
    · cases h
  have zero : Unicode.isBlank '0' = false := by decide
  unfold scan at h
  simp only [Option.bind_eq_bind] at h
  split at h
  · split at h
    · rename_i hradix
      obtain ⟨hletter, hdigit⟩ := plain_of_radixOf hradix
      obtain ⟨⟨s, rest⟩, hs, h⟩ := Option.bind_eq_some_iff.1 h
      obtain ⟨⟨r, l⟩, hr, he⟩ := Option.map_eq_some_iff.1 hs
      simp only [Prod.mk.injEq] at he
      obtain ⟨rfl, rfl⟩ := he
      obtain ⟨happend, hplain⟩ := append_scanRadix hdigit hr
      refine last ⟨?_, List.cons_ne_nil _ _, ?_⟩ h
      · rw [List.cons_append, List.cons_append, happend]
      · simp [zero, hletter, hplain]
    · obtain ⟨⟨s, rest⟩, hs, h⟩ := Option.bind_eq_some_iff.1 h
      exact last (append_scanDecimal hs) h
  · obtain ⟨⟨s, rest⟩, hs, h⟩ := Option.bind_eq_some_iff.1 h
    exact last (append_scanDecimal hs) h

end Numeral

/-! ## String literals -/

theorem append_closeSingle {mark : Char} {text body left : List Char}
    (h : closeSingle mark text = some (body, left)) :
    body ++ left = text ∧ body.getLast? = some mark := by
  fun_induction closeSingle mark text generalizing body left with
  | case1 => simp at h
  | case2 c rest ih =>
    obtain ⟨⟨b, l⟩, hb, he⟩ := Option.map_eq_some_iff.1 h
    simp only [Prod.mk.injEq] at he
    obtain ⟨rfl, rfl⟩ := he
    obtain ⟨h₁, h₂⟩ := ih hb
    cases b with
    | nil => simp at h₂
    | cons d b => exact ⟨by rw [← h₁]; rfl, by simpa using h₂⟩
  | case3 rest =>
    simp only [Option.some.injEq, Prod.mk.injEq] at h
    obtain ⟨rfl, rfl⟩ := h
    exact ⟨rfl, rfl⟩
  | case4 => simp at h
  | case5 c rest _ _ _ ih =>
    obtain ⟨⟨b, l⟩, hb, he⟩ := Option.map_eq_some_iff.1 h
    simp only [Prod.mk.injEq] at he
    obtain ⟨rfl, rfl⟩ := he
    obtain ⟨h₁, h₂⟩ := ih hb
    cases b with
    | nil => simp at h₂
    | cons d b => exact ⟨by rw [← h₁]; rfl, by simpa using h₂⟩

theorem append_closeTriple {mark : Char} {text body left : List Char}
    (h : closeTriple mark text = some (body, left)) :
    body ++ left = text ∧ body.getLast? = some mark := by
  fun_induction closeTriple mark text generalizing body left with
  | case1 => simp at h
  | case2 c rest ih =>
    obtain ⟨⟨b, l⟩, hb, he⟩ := Option.map_eq_some_iff.1 h
    simp only [Prod.mk.injEq] at he
    obtain ⟨rfl, rfl⟩ := he
    obtain ⟨h₁, h₂⟩ := ih hb
    cases b with
    | nil => simp at h₂
    | cons d b => exact ⟨by rw [← h₁]; rfl, by simpa using h₂⟩
  | case3 c rest _ hc =>
    obtain ⟨rfl, hp⟩ := hc
    simp only [Option.some.injEq, Prod.mk.injEq] at h
    obtain ⟨rfl, rfl⟩ := h
    obtain ⟨more, rfl⟩ := List.isPrefixOf_iff_prefix.1 hp
    exact ⟨rfl, rfl⟩
  | case4 => simp at h
  | case5 c rest _ _ _ ih =>
    obtain ⟨⟨b, l⟩, hb, he⟩ := Option.map_eq_some_iff.1 h
    simp only [Prod.mk.injEq] at he
    obtain ⟨rfl, rfl⟩ := he
    obtain ⟨h₁, h₂⟩ := ih hb
    cases b with
    | nil => simp at h₂
    | cons d b => exact ⟨by rw [← h₁]; rfl, by simpa using h₂⟩

/-- A literal from its first mark on begins and ends with that mark. -/
theorem append_scanQuoted {mark : Char} {rest body left : List Char}
    (h : scanQuoted (mark :: rest) = some (body, left)) :
    body ++ left = mark :: rest ∧ body.head? = some mark ∧ body.getLast? = some mark := by
  have cons (front : List Char) {b : List Char} (hb : b.getLast? = some mark) :
      (front ++ b).getLast? = some mark := by
    rw [List.getLast?_append, hb]
    rfl
  unfold scanQuoted at h
  split at h
  · rename_i a b c more heq
    obtain ⟨rfl, rfl⟩ := List.cons.inj heq
    split at h
    · obtain ⟨⟨r, l⟩, hr, he⟩ := Option.map_eq_some_iff.1 h
      simp only [Prod.mk.injEq] at he
      obtain ⟨rfl, rfl⟩ := he
      obtain ⟨h₁, h₂⟩ := append_closeTriple hr
      exact ⟨by rw [← h₁]; rfl, rfl, cons [_, b, c] h₂⟩
    · obtain ⟨⟨r, l⟩, hr, he⟩ := Option.map_eq_some_iff.1 h
      simp only [Prod.mk.injEq] at he
      obtain ⟨rfl, rfl⟩ := he
      obtain ⟨h₁, h₂⟩ := append_closeSingle hr
      exact ⟨by rw [← h₁]; rfl, rfl, cons [_] h₂⟩
  · rename_i a more _ heq
    obtain ⟨rfl, rfl⟩ := List.cons.inj heq
    obtain ⟨⟨r, l⟩, hr, he⟩ := Option.map_eq_some_iff.1 h
    simp only [Prod.mk.injEq] at he
    obtain ⟨rfl, rfl⟩ := he
    obtain ⟨h₁, h₂⟩ := append_closeSingle hr
    exact ⟨by rw [← h₁]; rfl, rfl, cons [_] h₂⟩
  · rename_i heq
    cases heq

/-! ## Lexemes -/

theorem mem_spellings_of_ofSpelling? {word : List Char} {k : Keyword}
    (h : Keyword.ofSpelling? word = some k) : (word, k) ∈ Keyword.spellings := by
  obtain ⟨front, back, heq, -⟩ := List.lookup_eq_some_iff.1 h
  rw [heq]
  exact List.mem_append_right _ List.mem_cons_self

/-- What is known of the spelling of a lexeme. -/
inductive Spelled : Lexeme → List Char → Prop
  | keyword {k : Keyword} {word : List Char} : (word, k) ∈ Keyword.spellings → Spelled (.keyword k) word
  | name {word : List Char} : word ≠ [] → IsSolid word → Spelled (.name word) word
  | number {n : Numeral} {spelling : List Char} : spelling ≠ [] → IsSolid spelling →
      Spelled (.number n) spelling
  | string {spelling : List Char} {first last : Char} : spelling.head? = some first →
      Unicode.isBlank first = false → spelling.getLast? = some last → isQuote last = true →
      Spelled (.string spelling) spelling
  | sign {s : Sign} {spelling : List Char} : (spelling, s) ∈ Sign.spellings → Spelled (.sign s) spelling

theorem Spelled.ne_nil {l : Lexeme} {spelling : List Char} (h : Spelled l spelling) : spelling ≠ [] := by
  cases h with
  | keyword h =>
    have : ∀ p ∈ Keyword.spellings, p.1 ≠ [] := by decide
    exact this _ h
  | name h _ => exact h
  | number h _ => exact h
  | string h _ _ _ => rintro rfl; cases h
  | sign h =>
    have : ∀ p ∈ Sign.spellings, p.1 ≠ [] := by decide
    exact this _ h

theorem Spelled.not_layout {l : Lexeme} {spelling : List Char} (h : Spelled l spelling) :
    l.isLayout = false := by
  cases h <;> rfl

/-- No spelling ends in a blank. -/
theorem Spelled.isBlank_last {l : Lexeme} {spelling : List Char} (h : Spelled l spelling) {c : Char}
    (hc : spelling.getLast? = some c) : Unicode.isBlank c = false := by
  cases h with
  | keyword h =>
    have hall : ∀ p ∈ Keyword.spellings, p.1.getLast?.any Unicode.isBlank = false := by decide
    have hword := hall _ h
    rwa [hc] at hword
  | name _ h => exact h c (List.mem_of_getLast? hc)
  | number _ h => exact h c (List.mem_of_getLast? hc)
  | string _ _ hlast hq =>
    rw [hlast, Option.some.injEq] at hc
    exact hc ▸ isBlank_eq_false (by decide) hq
  | sign h =>
    have hall : ∀ p ∈ Sign.spellings, p.1.getLast?.any Unicode.isBlank = false := by decide
    have hsign := hall _ h
    rwa [hc] at hsign

/-- Nor does one begin with a blank. -/
theorem Spelled.isBlank_first {l : Lexeme} {spelling : List Char} (h : Spelled l spelling) {c : Char}
    (hc : spelling.head? = some c) : Unicode.isBlank c = false := by
  cases h with
  | keyword h =>
    have hall : ∀ p ∈ Keyword.spellings, p.1.head?.any Unicode.isBlank = false := by decide
    have hword := hall _ h
    rwa [hc] at hword
  | name _ h => exact h c (List.mem_of_head? hc)
  | number _ h => exact h c (List.mem_of_head? hc)
  | string hfirst hblank _ _ =>
    rw [hfirst, Option.some.injEq] at hc
    exact hc ▸ hblank
  | sign h =>
    have hall : ∀ p ∈ Sign.spellings, p.1.head?.any Unicode.isBlank = false := by decide
    have hsign := hall _ h
    rwa [hc] at hsign

/-- The word before a string literal begins with a letter. -/
theorem isBlank_of_isLiteralMark {c : Char} {word : List Char} (h : isLiteralMark (c :: word) = true) :
    Unicode.isBlank c = false := by
  refine isBlank_eq_false (p := fun c => ['b', 'u', 'r', 'f'].contains c.toLower) (by decide) ?_
  simp only [isLiteralMark, List.map_cons, List.contains_eq_mem, List.mem_cons, List.cons.injEq,
    List.not_mem_nil, decide_eq_true_eq, or_false] at h ⊢
  tauto

theorem append_scanLexeme {text spelling left : List Char} {l : Lexeme}
    (h : scanLexeme text = some (l, spelling, left)) :
    spelling ++ left = text ∧ Spelled l spelling := by
  unfold scanLexeme at h
  cases text with
  | nil => cases h
  | cons c rest =>
    simp only at h
    split at h
    · rename_i hc
      have hword : (c :: rest).takeWhile Unicode.mayContinue = c :: rest.takeWhile Unicode.mayContinue := by
        have : Unicode.mayContinue c = true := by
          simp only [Unicode.mayStart, Unicode.mayContinue, Char.isAlphanum, Bool.or_eq_true] at hc ⊢
          tauto
        rw [List.takeWhile_cons_of_pos this]
      have hsplit := List.takeWhile_append_dropWhile (p := Unicode.mayContinue) (l := c :: rest)
      split at h
      · rename_i hq
        obtain ⟨⟨r, l'⟩, hr, he⟩ := Option.map_eq_some_iff.1 h
        simp only [Prod.mk.injEq] at he
        obtain ⟨rfl, rfl, rfl⟩ := he
        obtain ⟨mark, more, hleft⟩ : ∃ mark more,
            (c :: rest).dropWhile Unicode.mayContinue = mark :: more := by
          cases hd : (c :: rest).dropWhile Unicode.mayContinue with
          | nil => simp [hd] at hq
          | cons mark more => exact ⟨mark, more, rfl⟩
        have hmark : isQuote mark = true := by
          rw [hleft] at hq
          simp only [List.head?_cons, Option.any_some, Bool.and_eq_true] at hq
          exact hq.2
        rw [hleft] at hr hsplit
        obtain ⟨h₁, -, h₃⟩ := append_scanQuoted hr
        refine ⟨by rw [List.append_assoc, h₁, hsplit], ?_⟩
        have hblank : Unicode.isBlank c = false := by
          rw [hword, Bool.and_eq_true] at hq
          exact isBlank_of_isLiteralMark hq.1
        refine .string (show _ = some c by rw [hword]; rfl) hblank (?_ : _ = some mark) hmark
        rw [List.getLast?_append, h₃]
        rfl
      · split at h
        · rename_i hident
          split at h
          · rename_i k hk
            simp only [Option.some.injEq, Prod.mk.injEq] at h
            obtain ⟨rfl, rfl, rfl⟩ := h
            exact ⟨hsplit, .keyword (mem_spellings_of_ofSpelling? hk)⟩
          · simp only [Option.some.injEq, Prod.mk.injEq] at h
            obtain ⟨rfl, rfl, rfl⟩ := h
            exact ⟨hsplit, .name (by rw [hword]; exact List.cons_ne_nil _ _)
              (isSolid_of_isIdentifier hident)⟩
        · cases h
    · split at h
      · rename_i hq
        obtain ⟨⟨r, l'⟩, hr, he⟩ := Option.map_eq_some_iff.1 h
        simp only [Prod.mk.injEq] at he
        obtain ⟨rfl, rfl, rfl⟩ := he
        obtain ⟨h₁, h₂, h₃⟩ := append_scanQuoted hr
        exact ⟨h₁, .string h₂ (isBlank_eq_false (by decide) hq) h₃ hq⟩
      · split at h
        · rename_i hd
          split at h
          · cases h
          · rename_i s left' hs
            obtain ⟨value, -, he⟩ := Option.map_eq_some_iff.1 h
            simp only [Prod.mk.injEq] at he
            obtain ⟨rfl, rfl, rfl⟩ := he
            obtain ⟨h₁, h₂, h₃⟩ := Numeral.append_scan hs
            exact ⟨h₁, .number h₂ h₃⟩
        · split at h
          · cases h
          · rename_i s sign hs
            simp only [Option.some.injEq, Prod.mk.injEq] at h
            obtain ⟨rfl, rfl, rfl⟩ := h
            have hmem := List.mem_of_find?_eq_some hs
            have hprefix := List.find?_some hs
            obtain ⟨more, hmore⟩ := List.isPrefixOf_iff_prefix.1 hprefix
            refine ⟨?_, .sign hmem⟩
            rw [← hmore]
            simp

end CallTrace.Syntax
