import Mathlib
import CallTrace.Syntax.Literal
import CallTrace.Text.Quoted

/-!
# Quoted texts are read back

A quoted text is one string literal, whatever stands behind it (`scanLexeme_quote`), and the literal is the
text (`toNode?_quote`).  Both go over the characters of the text: how a character is written between quotes
has an equation for the scanner (`closeSingle_quoteChar`), which looks for the closing quote, and one for
the reader of escapes (`unescape_quoteChar`).

Only the empty text is an exception.  Its two quotes and a quote behind them are three, and those open a
literal that runs over lines.
-/

namespace CallTrace.Text

open Syntax

/-- A character that text is quoted with. -/
def IsMark (c : Char) : Prop :=
  c = '\'' ∨ c = '"'

theorem isMark_quoteMark (text : List Char) : IsMark (quoteMark text) := by
  rw [quoteMark]
  split
  · exact Or.inr rfl
  · exact Or.inl rfl

theorem quote_eq (text : List Char) :
    quote text = quoteMark text :: (text.flatMap (quoteChar (quoteMark text)) ++ [quoteMark text]) :=
  rfl

/-! ## Numbers in escapes -/

/-- A digit of a number in an escape. -/
theorem hexDigit_spec {n : Nat} (hn : n < 16) : Numeral.isHexadecimal (hexDigit n) = true ∧
    hexDigit n ≠ '\'' ∧ hexDigit n ≠ '"' ∧ hexDigit n ≠ '\\' ∧ hexDigit n ≠ '\n' := by
  have all : ∀ m ∈ List.range 16, Numeral.isHexadecimal (hexDigit m) = true ∧
      hexDigit m ≠ '\'' ∧ hexDigit m ≠ '"' ∧ hexDigit m ≠ '\\' ∧ hexDigit m ≠ '\n' := by decide
  exact all n (List.mem_range.2 hn)

theorem exists_of_mem_hexPadded {count n : Nat} {c : Char} (h : c ∈ hexPadded count n) :
    ∃ m < 16, c = hexDigit m := by
  induction count generalizing n with
  | zero => cases h
  | succ count ih =>
    rcases List.mem_append.1 h with h | h
    · exact ih h
    · exact ⟨n % 16, Nat.mod_lt n (by decide), List.mem_singleton.1 h⟩

theorem ofDigits_hexPadded {count n : Nat} (h : n < 16 ^ count) : ofDigits 16 (hexPadded count n) = n := by
  induction count generalizing n with
  | zero => exact (Nat.lt_one_iff.1 h).symm
  | succ count ih =>
    have hrest : ofDigits 16 (hexPadded count (n / 16)) = n / 16 :=
      ih (Nat.div_lt_of_lt_mul (by rwa [Nat.pow_succ'] at h))
    calc ofDigits 16 (hexPadded (count + 1) n)
        = 16 * ofDigits 16 (hexPadded count (n / 16)) + (digitValue? (hexDigit (n % 16))).getD 0 := by
          rw [hexPadded, ofDigits, List.foldl_append]
          rfl
      _ = 16 * (n / 16) + n % 16 := by
          rw [hrest, digitValue_hexDigit (Nat.mod_lt n (by decide))]
          rfl
      _ = n := Nat.div_add_mod n 16

theorem hexNumber_hexPadded {count n : Nat} (h : n < 16 ^ count) :
    Literal.hexNumber (hexPadded count n) = some n := by
  rw [Literal.hexNumber, if_pos ?_, ofDigits_hexPadded h]
  rw [List.all_eq_true]
  intro c hc
  obtain ⟨m, hm, rfl⟩ := exists_of_mem_hexPadded hc
  exact (hexDigit_spec hm).1

/-- A number that is written in an escape is read from it. -/
theorem unescape_numberEscape {n : Nat} (hn : n < 0x110000) (rest : List Char) :
    Literal.unescape false (numberEscape n ++ rest) = (Literal.unescape false rest).map (n :: ·) := by
  rw [numberEscape]
  split
  · have hnumber : Literal.hexNumber (hexPadded 2 n) = some n := hexNumber_hexPadded (by norm_num; omega)
    simp only [hexPadded, List.nil_append, List.cons_append] at hnumber ⊢
    simp [Literal.unescape, Literal.signEscape, Numeral.isOctal, hnumber]
  split
  · have hnumber : Literal.hexNumber (hexPadded 4 n) = some n := hexNumber_hexPadded (by norm_num; omega)
    simp only [hexPadded, List.nil_append, List.cons_append] at hnumber ⊢
    simp [Literal.unescape, Literal.signEscape, Numeral.isOctal, Literal.isWide, hnumber]
  · have hnumber : Literal.hexNumber (hexPadded 8 n) = some n := hexNumber_hexPadded (by norm_num; omega)
    simp only [hexPadded, List.nil_append, List.cons_append] at hnumber ⊢
    simp [Literal.unescape, Literal.signEscape, Numeral.isOctal, Literal.isWide, hnumber, hn]

/-! ## One character -/

/-- How a character is written between quotes. -/
theorem quoteChar_cases {mark : Char} (hmark : IsMark mark) (c : Char) :
    (∃ d, quoteChar mark c = ['\\', d] ∧ d ≠ '\n' ∧ Literal.signEscape d = some c.toNat) ∨
    (quoteChar mark c = [c] ∧ c ≠ mark ∧ c ≠ '\\' ∧ c ≠ '\n') ∨
    quoteChar mark c = numberEscape c.toNat := by
  rw [quoteChar]
  split
  · rename_i h
    refine Or.inl ⟨c, rfl, ?_⟩
    rcases h with rfl | rfl
    · rcases hmark with rfl | rfl <;> decide
    · decide
  rename_i hc
  obtain ⟨hm, hb⟩ := not_or.1 hc
  split
  · rename_i h
    exact Or.inl ⟨'t', rfl, by decide, by rw [h]; rfl⟩
  split
  · rename_i h
    exact Or.inl ⟨'n', rfl, by decide, by rw [h]; rfl⟩
  rename_i hn
  split
  · rename_i h
    exact Or.inl ⟨'r', rfl, by decide, by rw [h]; rfl⟩
  split
  · exact Or.inr (Or.inl ⟨rfl, hm, hb, hn⟩)
  · exact Or.inr (Or.inr rfl)

/-- The escapes of a quoted character stand for the character. -/
theorem unescape_quoteChar {mark : Char} (hmark : IsMark mark) (c : Char) (rest : List Char) :
    Literal.unescape false (quoteChar mark c ++ rest) =
      (Literal.unescape false rest).map (c.toNat :: ·) := by
  rcases quoteChar_cases hmark c with ⟨d, h, hd, hescape⟩ | ⟨h, -, hc, -⟩ | h <;> rw [h]
  · rw [List.cons_append, List.singleton_append, Literal.unescape.eq_def]
    simp only [if_neg hd, hescape]
  · rw [List.singleton_append, Literal.unescape]
    · rintro rfl
      exact absurd rfl hc
    · rintro d rest rfl
      exact absurd rfl hc
  · exact unescape_numberEscape (Nat.lt_succ_of_le c.toNat_le_max) rest

theorem unescape_flatMap_quoteChar {mark : Char} (hmark : IsMark mark) (text : List Char) :
    Literal.unescape false (text.flatMap (quoteChar mark)) = some (text.map Char.toNat) := by
  induction text with
  | nil => rw [List.flatMap_nil, Literal.unescape]; rfl
  | cons c text ih => rw [List.flatMap_cons, unescape_quoteChar hmark, ih]; rfl

/-! ## Scanning -/

/-- A character that the scanner steps over in a literal. -/
theorem closeSingle_plain {mark c : Char} (hm : c ≠ mark) (hn : c ≠ '\n') (hb : c ≠ '\\') (rest : List Char) :
    closeSingle mark (c :: rest) = (closeSingle mark rest).map fun (body, left) => (c :: body, left) := by
  rw [closeSingle]
  · rw [if_neg hm, if_neg (not_or.2 ⟨hn, hb⟩)]
  · rintro d rest rfl
    exact absurd rfl hb

theorem closeSingle_escape (mark c : Char) (rest : List Char) :
    closeSingle mark ('\\' :: c :: rest) =
      (closeSingle mark rest).map fun (body, left) => ('\\' :: c :: body, left) := by
  rw [closeSingle]

theorem closeSingle_digits {mark : Char} (hmark : IsMark mark) (count n : Nat) (rest : List Char) :
    closeSingle mark (hexPadded count n ++ rest) =
      (closeSingle mark rest).map fun (body, left) => (hexPadded count n ++ body, left) := by
  have hdigits : ∀ c ∈ hexPadded count n, c ≠ mark ∧ c ≠ '\n' ∧ c ≠ '\\' := by
    intro c hc
    obtain ⟨m, hm, rfl⟩ := exists_of_mem_hexPadded hc
    obtain ⟨-, h₁, h₂, h₃, h₄⟩ := hexDigit_spec hm
    rcases hmark with rfl | rfl
    · exact ⟨h₁, h₄, h₃⟩
    · exact ⟨h₂, h₄, h₃⟩
  generalize hexPadded count n = digits at hdigits
  induction digits with
  | nil =>
    rw [List.nil_append]
    cases closeSingle mark rest <;> rfl
  | cons c digits ih =>
    obtain ⟨⟨hm, hn, hb⟩, hrest⟩ := List.forall_mem_cons.1 hdigits
    rw [List.cons_append, closeSingle_plain hm hn hb, ih hrest, Option.map_map]
    rfl

/-- The scanner steps over a quoted character. -/
theorem closeSingle_quoteChar {mark : Char} (hmark : IsMark mark) (c : Char) (rest : List Char) :
    closeSingle mark (quoteChar mark c ++ rest) =
      (closeSingle mark rest).map fun (body, left) => (quoteChar mark c ++ body, left) := by
  have hescape (letter : Char) (count n : Nat) :
      closeSingle mark ('\\' :: letter :: hexPadded count n ++ rest) =
        (closeSingle mark rest).map fun (body, left) =>
          ('\\' :: letter :: hexPadded count n ++ body, left) := by
    rw [List.cons_append, List.cons_append, closeSingle_escape, closeSingle_digits hmark, Option.map_map]
    rfl
  rcases quoteChar_cases hmark c with ⟨d, h, -, -⟩ | ⟨h, hm, hb, hn⟩ | h <;> rw [h]
  · exact closeSingle_escape mark d rest
  · exact closeSingle_plain hm hn hb rest
  · rw [numberEscape]
    split
    · exact hescape 'x' 2 _
    split
    · exact hescape 'u' 4 _
    · exact hescape 'U' 8 _

theorem closeSingle_quote {mark : Char} (hmark : IsMark mark) (text rest : List Char) :
    closeSingle mark (text.flatMap (quoteChar mark) ++ mark :: rest) =
      some (text.flatMap (quoteChar mark) ++ [mark], rest) := by
  induction text with
  | nil =>
    rw [List.flatMap_nil, List.nil_append, List.nil_append, closeSingle]
    · rw [if_pos rfl]
    · rintro c rest rfl
      rcases hmark with h | h <;> cases h
  | cons c text ih =>
    rw [List.flatMap_cons, List.append_assoc, closeSingle_quoteChar hmark, ih, Option.map_some,
      List.append_assoc]

/-- No quoted character begins with the quote. -/
theorem head_quoteChar {mark : Char} (hmark : IsMark mark) (c : Char) :
    ∃ d rest, quoteChar mark c = d :: rest ∧ d ≠ mark := by
  have hslash : '\\' ≠ mark := by rcases hmark with rfl | rfl <;> decide
  rcases quoteChar_cases hmark c with ⟨d, h, -, -⟩ | ⟨h, hm, -, -⟩ | h <;> rw [h]
  · exact ⟨_, _, rfl, hslash⟩
  · exact ⟨_, _, rfl, hm⟩
  · rw [numberEscape]
    split
    · exact ⟨_, _, rfl, hslash⟩
    split
    · exact ⟨_, _, rfl, hslash⟩
    · exact ⟨_, _, rfl, hslash⟩

/-- Where no second quote follows, a literal ends at the next quote. -/
theorem scanQuoted_of_ne {mark d : Char} (h : d ≠ mark) (rest : List Char) :
    scanQuoted (mark :: d :: rest) =
      (closeSingle mark (d :: rest)).map fun (body, left) => (mark :: body, left) := by
  cases rest with
  | nil => rfl
  | cons e rest => rw [scanQuoted, if_neg fun hquotes => h hquotes.1]

/-- A text that is not empty and in quotes is a string literal, whatever stands behind it. -/
theorem scanLexeme_quote {text : List Char} (hne : text ≠ []) (rest : List Char) :
    scanLexeme (quote text ++ rest) = some (.string (quote text), quote text, rest) := by
  have hmark := isMark_quoteMark text
  obtain ⟨c, more, rfl⟩ := List.exists_cons_of_ne_nil hne
  rw [quote_eq]
  generalize quoteMark (c :: more) = mark at hmark
  obtain ⟨d, others, hchar, hd⟩ := head_quoteChar hmark c
  have hscan : scanQuoted (mark :: ((c :: more).flatMap (quoteChar mark) ++ mark :: rest)) =
      some (mark :: ((c :: more).flatMap (quoteChar mark) ++ [mark]), rest) := by
    have hclose := closeSingle_quote hmark (c :: more) rest
    rw [List.flatMap_cons, hchar, List.cons_append, List.cons_append, List.cons_append] at hclose ⊢
    rw [scanQuoted_of_ne hd, hclose]
    rfl
  have hstart : Unicode.mayStart mark = false := by rcases hmark with rfl | rfl <;> decide +kernel
  have hquote : isQuote mark = true := by rcases hmark with rfl | rfl <;> decide
  rw [List.cons_append, List.append_assoc, List.singleton_append, scanLexeme, if_neg (by rw [hstart]; decide),
    if_pos hquote, hscan]
  rfl

/-! ## Reading -/

theorem unquoted_quote (text : List Char) :
    Literal.unquoted (quote text) = text.flatMap (quoteChar (quoteMark text)) := by
  have hmark := isMark_quoteMark text
  rw [quote_eq]
  generalize quoteMark text = mark at hmark
  cases text with
  | nil => rfl
  | cons c text =>
    obtain ⟨d, others, hchar, hd⟩ := head_quoteChar hmark c
    rw [List.flatMap_cons, hchar, List.cons_append, List.cons_append]
    generalize others ++ text.flatMap (quoteChar mark) = body
    cases hbody : body ++ [mark] with
    | nil => simp at hbody
    | cons e rest =>
      rw [Literal.unquoted, if_neg fun h => hd h.1.symm, ← hbody, List.dropLast_cons_of_ne_nil (by simp),
        List.dropLast_concat]

theorem parts_quote (text : List Char) :
    Literal.parts (quote text) =
      (⟨false, false, false, false⟩, text.flatMap (quoteChar (quoteMark text))) := by
  have hquote : isQuote (quoteMark text) = true := by
    rcases isMark_quoteMark text with h | h <;> rw [h] <;> decide
  rw [Literal.parts, ← unquoted_quote, quote_eq, List.takeWhile_cons_of_neg (by simp [hquote]),
    List.dropWhile_cons_of_neg (by simp [hquote])]
  rfl

/-- The constant of a text in quotes is the text. -/
theorem toNode?_quote (expression : List Char → Option Tree) (place : Span) (text : List Char) :
    Literal.toNode? expression place [quote text] =
      some (Literal.textNode place false (text.map Char.toNat)) := by
  have hcodes := unescape_flatMap_quoteChar (isMark_quoteMark text) text
  simp [Literal.toNode?, parts_quote, Literal.piecesOf, Literal.codes, hcodes]

end CallTrace.Text
