import CallTrace.Function
import CallTrace.Proofs.Gaps

/-!
# Names in headers

A header begins with an `Opening`, the words `async` and `def` with a gap behind each, and the name comes
next.  `Opening.of` and `spelledName` find both as the scanner does; what is put together of an opening and
an identifier is taken apart again (`Opening.of_append`, `spelledName_append`).

The name that is made out in the text is not always this one (`Opening.nameIn`): a header is read past
blanks only, not past a comment or the end of a line that goes on, and a word ends at a character that an
identifier may go on with, such as a combining mark or the middle dot.  `Opening.writtenName_append` says
which name is made out, and `Opening.nameIn_eq_iff` when it is the name that is written there.
-/

namespace CallTrace.Function

open Syntax

/-! ## Words and blanks -/

theorem mayContinue_of_isWord {c : Char} (h : Unicode.isWord c = true) :
    Unicode.mayContinue c = true := by
  unfold Unicode.isWord at h
  split at h
  · simp_all [Unicode.mayContinue]
  · have hlarge : 128 ≤ c.toNat := by omega
    simp [Unicode.mayContinue, hlarge]

theorem mayContinue_of_isIdentifierStart {c : Char} (h : Unicode.isIdentifierStart c = true) :
    Unicode.mayContinue c = true := by
  unfold Unicode.isIdentifierStart at h
  split at h
  · simp only [Bool.or_eq_true] at h
    simp only [Unicode.mayContinue, Char.isAlphanum, Bool.or_eq_true]
    tauto
  · have hlarge : 128 ≤ c.toNat := by omega
    simp [Unicode.mayContinue, hlarge]

/-- An identifier is made of characters that the scanner takes into a name. -/
theorem all_mayContinue {name : List Char} (h : Unicode.isIdentifier name = true) :
    name.all Unicode.mayContinue = true := by
  cases name with
  | nil => cases h
  | cons c name =>
    rw [Unicode.isIdentifier, Bool.and_eq_true, List.all_eq_true] at h
    rw [List.all_cons, Bool.and_eq_true, List.all_eq_true]
    exact ⟨mayContinue_of_isIdentifierStart h.1,
      fun d hd => Unicode.mayContinue_of_isIdentifierPart (h.2 d hd)⟩

theorem head_of_isIdentifier {name : List Char} (h : Unicode.isIdentifier name = true)
    (rest : List Char) : (name ++ rest).head?.any Unicode.mayContinue = true := by
  have hall := all_mayContinue h
  cases name with
  | nil => cases h
  | cons c name => exact (Bool.and_eq_true_iff.1 hall).1

/-- A run of characters ends where something else begins. -/
theorem takeWhile_append_of_head {p : Char → Bool} {front back : List Char}
    (h : back.head?.any p = false) : (front ++ back).takeWhile p = front.takeWhile p := by
  have hback : back.takeWhile p = [] := by
    cases back with
    | nil => rfl
    | cons c back => exact List.takeWhile_cons_of_neg (Bool.not_eq_true _ ▸ h)
  rw [List.takeWhile_append, hback, List.append_nil]
  split
  · exact (List.takeWhile_prefix p).eq_of_length ‹_› |>.symm
  · rfl

section AfterWord

variable {word gap rest left : List Char}

theorem afterWord_append_blank (hne : gap ≠ []) (hgap : Unicode.allBlank gap = true)
    (hrest : ∀ c ∈ rest.head?, Unicode.isBlank c = false) :
    afterWord word (word ++ (gap ++ rest)) = some rest := by
  obtain ⟨c, gap, rfl⟩ := List.exists_cons_of_ne_nil hne
  have hall : ∀ d ∈ c :: gap, Unicode.isBlank d = true := List.all_eq_true.1 hgap
  have hdrop : rest.dropWhile Unicode.isBlank = rest := by
    cases rest with
    | nil => rfl
    | cons d rest => rw [List.dropWhile_cons, hrest d rfl]; rfl
  rw [afterWord, List.drop_left, List.dropWhile_append_of_pos hall, hdrop]
  simp [hall c List.mem_cons_self]

/-- What is skipped and not all blank ends the search. -/
theorem head_of_afterWord (hgap : isGap false gap = true) (hblank : Unicode.allBlank gap = false)
    (h : afterWord word (word ++ (gap ++ rest)) = some left) :
    ∃ c more, left = c :: more ∧ (c = '#' ∨ c = '\\') := by
  have hne : gap.dropWhile Unicode.isBlank ≠ [] := fun hnil => by
    have hall : Unicode.allBlank gap = true :=
      List.all_eq_true.2 (List.dropWhile_eq_nil_iff.1 hnil)
    rw [hblank] at hall
    cases hall
  obtain ⟨c, more, hdrop⟩ := List.exists_cons_of_ne_nil hne
  have hc : c = '#' ∨ c = '\\' := head_of_isGap hgap c (by rw [hdrop]; rfl)
  rw [afterWord, List.drop_left] at h
  simp only [Option.ite_none_right_eq_some, Option.some.injEq] at h
  refine ⟨c, more ++ rest, ?_, hc⟩
  rw [← h.2, List.dropWhile_append, hdrop]
  rfl

theorem afterWord_def_of_ne {c : Char} {more : List Char} (h : c ≠ 'd') :
    afterWord ['d', 'e', 'f'] (c :: more) = none := by
  simp [afterWord, List.isPrefixOf, h.symm]

end AfterWord

/-! ## Gaps -/

/-- What the scanner skips at the front of a text. -/
def gapOf (text : List Char) : List Char :=
  text.take (text.length - (skip false text).length)

section GapOf

variable {gap rest : List Char} (h : isGap false gap = true)
  (hrest : rest.head?.any Unicode.mayContinue = true)

include h hrest

theorem skip_gap_append : skip false (gap ++ rest) = rest :=
  have ⟨hne, hskip⟩ := skip_of_mayContinue hrest
  (skip_append_iff hne hskip).2 h

theorem gapOf_append : gapOf (gap ++ rest) = gap := by
  rw [gapOf, skip_gap_append h hrest, List.length_append, Nat.add_sub_cancel, List.take_left]

end GapOf

/-! ## Openings -/

/-- How a definition is written up to its name. -/
structure Opening where
  /-- What stands between `async` and `def`, if the definition begins with `async`. -/
  afterAsync : Option (List Char)
  /-- What stands between `def` and the name. -/
  afterDef : List Char

namespace Opening

variable {o : Opening} {name rest : List Char}

/-- The text of the opening. -/
def text (o : Opening) : List Char :=
  o.afterAsync.elim [] (['a', 's', 'y', 'n', 'c'] ++ ·) ++ (['d', 'e', 'f'] ++ o.afterDef)

/-- What stands behind the words of the opening. -/
def gaps (o : Opening) : List (List Char) :=
  o.afterAsync.toList ++ [o.afterDef]

/-- Only blanks stand behind the words. -/
def isBlank (o : Opening) : Bool :=
  o.gaps.all Unicode.allBlank

/-- Something stands behind each word, which the scanner skips. -/
def IsSound (o : Opening) : Prop :=
  ∀ gap ∈ o.gaps, gap ≠ [] ∧ isGap false gap = true

/-- The opening of a header, as the scanner reads it. -/
def of (header : List Char) : Opening :=
  if ['a', 's', 'y', 'n', 'c'].isPrefixOf header then
    let behind := header.drop 5
    ⟨some (gapOf behind), gapOf ((skip false behind).drop 3)⟩
  else ⟨none, gapOf (header.drop 3)⟩

/-- The name that is made out behind the opening, where `name` is written. -/
def nameIn (o : Opening) (name : List Char) : List Char :=
  if o.isBlank && name.head?.any Unicode.isWord then name.takeWhile Unicode.isWord
  else Unicode.normalize name

/-- When that is the name that is written there. -/
theorem nameIn_eq_iff : o.nameIn name = name ↔
    if o.isBlank && name.head?.any Unicode.isWord then name.all Unicode.isWord = true
    else Unicode.normalize name = name := by
  unfold nameIn
  split
  · rw [List.takeWhile_eq_self_iff, List.all_eq_true]
  · rfl

/-- A name in ASCII is made out behind every opening. -/
theorem nameIn_of_ascii (o : Opening) (hname : Unicode.isIdentifier name = true)
    (h : ∀ c ∈ name, c.toNat < 128) : o.nameIn name = name := by
  rw [nameIn_eq_iff]
  split
  · rw [List.all_eq_true]
    intro c hc
    have hmay := List.all_eq_true.1 (all_mayContinue hname) c hc
    have hsmall : ¬ 128 ≤ c.toNat := Nat.not_le.2 (h c hc)
    simpa [Unicode.mayContinue, Unicode.isWord, h c hc, hsmall] using hmay
  · exact Unicode.normalize_of_ascii h

theorem of_append (ho : o.IsSound) (hname : Unicode.isIdentifier name = true) :
    of (o.text ++ (name ++ rest)) = o := by
  obtain ⟨afterAsync, afterDef⟩ := o
  have hdef : gapOf (afterDef ++ (name ++ rest)) = afterDef :=
    gapOf_append (ho afterDef (by simp [gaps])).2 (head_of_isIdentifier hname rest)
  have hdrop (left : List Char) : (['d', 'e', 'f'] ++ left).drop 3 = left := rfl
  cases afterAsync with
  | none =>
    have hnot : ['a', 's', 'y', 'n', 'c'].isPrefixOf (['d', 'e', 'f'] ++ (afterDef ++ (name ++ rest))) =
        false := by simp [List.isPrefixOf]
    simp only [text, Option.elim_none, List.nil_append, List.append_assoc]
    rw [of, hnot, if_neg Bool.false_ne_true, hdrop, hdef]
  | some space =>
    have hspace := (ho space (by simp [gaps])).2
    have hdrop' (left : List Char) : (['a', 's', 'y', 'n', 'c'] ++ left).drop 5 = left := rfl
    have hhead : (['d', 'e', 'f'] ++ (afterDef ++ (name ++ rest))).head?.any Unicode.mayContinue =
        true := by simp [Unicode.mayContinue]
    simp only [text, Option.elim_some, List.append_assoc]
    rw [of, if_pos (List.isPrefixOf_iff_prefix.2 (List.prefix_append _ _))]
    simp only
    rw [hdrop', gapOf_append hspace hhead, skip_gap_append hspace hhead, hdrop, hdef]

theorem writtenName_def {gap : List Char} (hne : gap ≠ []) (hgap : isGap false gap = true)
    (hname : ∀ c ∈ (name ++ rest).head?, Unicode.isBlank c = false)
    (hrest : rest.head?.any Unicode.isWord = false) :
    writtenName (['d', 'e', 'f'] ++ (gap ++ (name ++ rest))) =
      if Unicode.allBlank gap && name.head?.any Unicode.isWord then
        some (name.takeWhile Unicode.isWord) else none := by
  have hasync : afterWord ['a', 's', 'y', 'n', 'c'] (['d', 'e', 'f'] ++ (gap ++ (name ++ rest))) =
      none := by simp [afterWord, List.isPrefixOf]
  rw [writtenName, hasync]
  simp only [Option.getD_none]
  cases hblank : Unicode.allBlank gap with
  | true =>
    rw [afterWord_append_blank hne hblank hname, Option.bind_some, takeWhile_append_of_head hrest]
    cases name with
    | nil => rfl
    | cons c name => cases hc : Unicode.isWord c <;> simp [hc]
  | false =>
    simp only [Bool.false_and, Bool.false_eq_true, if_false, Option.bind_eq_none_iff]
    intro left hleft
    obtain ⟨c, more, rfl, hc⟩ := head_of_afterWord hgap hblank hleft
    have hword : Unicode.isWord c = false := by rcases hc with rfl | rfl <;> decide
    simp [hword]

theorem writtenName_async {gap back : List Char} (hne : gap ≠ []) (hgap : isGap false gap = true) :
    writtenName (['a', 's', 'y', 'n', 'c'] ++ (gap ++ (['d', 'e', 'f'] ++ back))) =
      if Unicode.allBlank gap then writtenName (['d', 'e', 'f'] ++ back) else none := by
  have hasync : afterWord ['a', 's', 'y', 'n', 'c'] (['d', 'e', 'f'] ++ back) = none := by
    simp [afterWord, List.isPrefixOf]
  have hhead : ∀ c ∈ (['d', 'e', 'f'] ++ back).head?, Unicode.isBlank c = false := by
    intro c hc
    obtain rfl : 'd' = c := Option.some.inj hc
    decide
  cases hblank : Unicode.allBlank gap with
  | true =>
    rw [if_pos rfl, writtenName, writtenName, hasync, afterWord_append_blank hne hblank hhead]
    rfl
  | false =>
    rw [if_neg Bool.false_ne_true, writtenName]
    cases hleft : afterWord ['a', 's', 'y', 'n', 'c']
        (['a', 's', 'y', 'n', 'c'] ++ (gap ++ (['d', 'e', 'f'] ++ back))) with
    | none =>
      rw [Option.getD_none, List.cons_append, afterWord_def_of_ne (by decide), Option.bind_none]
    | some left =>
      obtain ⟨c, more, rfl, hc⟩ := head_of_afterWord hgap hblank hleft
      have hne : c ≠ 'd' := by rcases hc with rfl | rfl <;> decide
      rw [Option.getD_some, afterWord_def_of_ne hne, Option.bind_none]

/-- Which name is made out in a header. -/
theorem writtenName_append (ho : o.IsSound) (hname : Unicode.isIdentifier name = true)
    (hrest : rest.head?.any Unicode.mayContinue = false) :
    (writtenName (o.text ++ (name ++ rest))).getD (Unicode.normalize name) = o.nameIn name := by
  have hblank : ∀ c ∈ (name ++ rest).head?, Unicode.isBlank c = false := by
    intro c hc
    cases name with
    | nil => cases hname
    | cons d name =>
      obtain rfl : d = c := Option.some.inj hc
      exact isSolid_of_isIdentifier hname d List.mem_cons_self
  have hword : rest.head?.any Unicode.isWord = false := by
    cases rest with
    | nil => rfl
    | cons c rest =>
      refine Bool.eq_false_iff.2 fun h => Bool.eq_false_iff.1 hrest ?_
      exact mayContinue_of_isWord h
  obtain ⟨afterAsync, afterDef⟩ := o
  obtain ⟨hne, hskip⟩ := ho afterDef (by simp [gaps])
  have hdef := writtenName_def hne hskip hblank hword
  cases afterAsync with
  | none =>
    simp only [text, Option.elim_none, List.nil_append, List.append_assoc] at *
    rw [hdef, nameIn]
    simp only [isBlank, gaps, Option.toList_none, List.nil_append, List.all_cons, List.all_nil,
      Bool.and_true]
    split <;> rfl
  | some space =>
    obtain ⟨hne', hskip'⟩ := ho space (by simp [gaps])
    simp only [text, Option.elim_some, List.append_assoc] at *
    rw [writtenName_async hne' hskip', hdef, nameIn]
    simp only [isBlank, gaps, Option.toList_some, List.cons_append, List.nil_append, List.all_cons,
      List.all_nil, Bool.and_true, Bool.and_assoc]
    cases Unicode.allBlank space with
    | true => simp only [if_true, Bool.true_and]; split <;> rfl
    | false => rfl

end Opening

/-- The name in a header, as the scanner reads it. -/
def spelledName (header : List Char) : List Char :=
  (header.drop (Opening.of header).text.length).takeWhile Unicode.mayContinue

theorem spelledName_append {o : Opening} {name rest : List Char} (ho : o.IsSound)
    (hname : Unicode.isIdentifier name = true) (hrest : rest.head?.any Unicode.mayContinue = false) :
    spelledName (o.text ++ (name ++ rest)) = name := by
  rw [spelledName, Opening.of_append ho hname, List.drop_left, takeWhile_append_of_head hrest,
    List.takeWhile_eq_self_iff]
  exact List.all_eq_true.1 (all_mayContinue hname)

end CallTrace.Function
