import Mathlib
import CallTrace.Proofs.Headers
import CallTrace.Proofs.Newlines
import CallTrace.Proofs.Overlap
import CallTrace.Proofs.Titles
import CallTrace.Proofs.Unended

/-!
# Names of definitions

The header of a definition is an opening, the name, and something that does not go on with it
(`Function.exists_header`).  The opening has the words of the definition, each with a gap behind it, as
nothing but skipped text stands between tokens and a word that ended where the next begins would go on
with it (`Parsed.gap_of_words`).

`Function.name_of_classify` says which name is made out in the header, and when this is the name that is
written there: the scanner and the search for the name agree about neither gaps nor the characters of
names.  About names in ASCII they do agree (`Function.name_of_ascii`).
-/

namespace CallTrace

open Syntax Text Instrument

/-- Every definition of a parsed text has its title. -/
theorem titled_of_parse {text : List Char} {s : Source} {tokens : Array Token}
    (ht : IsTerminated text) (hp : Source.parse text = .ok s)
    (hscan : scanTokens (normalizeNewlines text) = some tokens.toList) : Titled tokens s.tree := by
  obtain ⟨fuel, j, ts, hrun, hmem⟩ := Source.exists_run ht hp hscan
  exact titled_of_run fuel hrun (isKnown_of_irregular [] rfl (by simp)) s.tree hmem

/-! ## Words of a text -/

/-- A word is solid and begins with a character of words. -/
theorem Syntax.Spelled.of_isWord {l : Lexeme} {word : List Char} (h : Spelled l word)
    (hl : l.isWord = true) (hname : ∀ name, l = .name name → Unicode.isIdentifier name = true) :
    IsSolid word ∧ word.head?.any Unicode.mayContinue = true := by
  cases h with
  | @keyword k word hk =>
    have hall : ∀ p ∈ Keyword.spellings, p.1.all (fun c => !Unicode.isBlank c) = true ∧
        p.1.head?.any Unicode.mayContinue = true := by decide
    obtain ⟨hblank, hfirst⟩ := hall _ hk
    exact ⟨by simpa [IsSolid] using hblank, hfirst⟩
  | name _ hsolid =>
    exact ⟨hsolid, by simpa using Function.head_of_isIdentifier (hname word rfl) []⟩
  | number => cases hl
  | string => cases hl
  | sign => cases hl

/-- A word stands between two places of the text as it is spelled, and goes on as far as it can. -/
structure IsWordAt (text : List Char) (l : Lexeme) (j k : Nat) (word : List Char) : Prop where
  lt : j < k
  le : k ≤ (normalizeNewlines text).length
  spelled : Spelled l word
  identifier : ∀ name, l = .name name → Unicode.isIdentifier name = true
  written : (LineTable.ofText text).between (offsetOf text j) (offsetOf text k) = word
  first : (normalizeNewlines text)[j]?.any Unicode.mayContinue = true
  stops : (normalizeNewlines text)[k]?.any Unicode.mayContinue = false

theorem Syntax.Opens.startsAt {tokens : Array Token} {m n : Nat} (h : Opens tokens m n) :
    StartsAt tokens m := by
  rcases h.first with rfl | ⟨-, hasync⟩
  · exact ⟨_, h.keyword, rfl⟩
  · exact ⟨_, hasync, rfl⟩

namespace Parsed

variable {text : List Char} {s : Source} {tokens : Array Token} {a b : Nat → Nat}
  (P : Parsed text s tokens a b)

include P

/-- What stands between two places as it is read. -/
theorem normalizeNewlines_between {j k : Nat} (hjk : j ≤ k)
    (hk : k ≤ (normalizeNewlines text).length) :
    normalizeNewlines ((LineTable.ofText text).between (offsetOf text j) (offsetOf text k)) =
      ((normalizeNewlines text).take k).drop j :=
  normalizeNewlines_slice P.terminated hjk hk

section Words

variable {i : Nat} {l : Lexeme} (h : lexemeAt tokens i = some l) (hl : l.isWord = true)

include h hl

omit P in
theorem startsAt_of_isWord : StartsAt tokens i :=
  ⟨l, h, by cases l <;> first | rfl | cases hl⟩

/-- A token that is a word lies where the word stands. -/
theorem exists_word : ∃ word, IsWordAt text l (a i) (b i) word := by
  obtain ⟨l', word, hl', -, hspelled, hslice, hlt, hle, ht⟩ :=
    P.lies_of_startsAt (startsAt_of_isWord h hl)
  obtain rfl : l' = l := Option.some.inj (hl'.symm.trans h)
  have hwhole := (spaced_of_scanTokens P.scanned).2 _ (List.mem_of_getElem? (by simpa using ht))
  obtain ⟨hsolid, hfirst⟩ := hspelled.of_isWord hl hwhole.identifier
  refine ⟨word, hlt, hle, hspelled, hwhole.identifier, ?_, ?_, ?_⟩
  · have hread := P.normalizeNewlines_between hlt.le hle
    rw [hslice] at hread
    have hbreak : '\n' ∉ word := fun hmem => by
      have hblank := hsolid _ hmem
      revert hblank
      decide
    exact (eq_normalizeNewlines (by rwa [hread])).trans hread
  · rwa [← hslice, List.head?_drop, List.getElem?_take_of_lt hlt] at hfirst
  · obtain ⟨j, hj, hplace, hstop⟩ := hwhole.ends hl
    rwa [eq_of_placeOf_eq P.terminated hle hj hplace]

end Words

theorem near {i : Nat} {t u : Token} (ht : tokens[i]? = some t) (hu : tokens[i + 1]? = some u) :
    Near text t u := by
  obtain ⟨hlt, rfl⟩ := Array.getElem?_eq_some_iff.1 ht
  obtain ⟨hlt', rfl⟩ := Array.getElem?_eq_some_iff.1 hu
  exact List.isChain_iff_getElem.1 (spaced_of_scanTokens P.scanned).1 i (by simpa using hlt')

/-- A gap stands between two tokens, one after the other. -/
theorem isGap_between {i : Nat} (hi : StartsAt tokens i) (hi' : StartsAt tokens (i + 1)) :
    isGap false (((normalizeNewlines text).take (a (i + 1))).drop (b i)) = true := by
  obtain ⟨l, -, -, hlayout, -, -, -, hle, ht⟩ := P.lies_of_startsAt hi
  obtain ⟨l', -, -, hlayout', -, -, hlt', hle', hu⟩ := P.lies_of_startsAt hi'
  obtain ⟨j, hj, k, hk, hstop, hstart, hskip⟩ := P.near ht hu hlayout hlayout'
  obtain rfl := eq_of_placeOf_eq P.terminated hle hj hstop
  obtain rfl := eq_of_placeOf_eq P.terminated (hlt'.le.trans hle') hk hstart
  have hne : (normalizeNewlines text).drop (a (i + 1)) ≠ [] := by
    rw [Ne, List.drop_eq_nil_iff]
    omega
  rw [← skip_append_iff hne (by rw [← hskip, skip_skip]),
    ← Edit.drop_eq_append _ (P.b_le_a (Nat.lt_add_one i) hi'), hskip]

/-- So it does in the text as it is written. -/
theorem isGap_written {i : Nat} (hi : StartsAt tokens i) (hi' : StartsAt tokens (i + 1)) :
    isGap false ((LineTable.ofText text).between (offsetOf text (b i)) (offsetOf text (a (i + 1)))) =
      true := by
  rw [← isGap_normalizeNewlines,
    P.normalizeNewlines_between (P.b_le_a (Nat.lt_add_one i) hi') (P.a_le_length hi')]
  exact P.isGap_between hi hi'

section Next

variable {i : Nat} {l l' : Lexeme} (h : lexemeAt tokens i = some l) (hl : l.isWord = true)
  (h' : lexemeAt tokens (i + 1) = some l') (hl' : l'.isWord = true)

include h hl h' hl'

/-- A word that ended where the next begins would go on with it. -/
theorem b_lt_a_of_words : b i < a (i + 1) := by
  obtain ⟨word, hw⟩ := P.exists_word h hl
  obtain ⟨word', hw'⟩ := P.exists_word h' hl'
  rcases Nat.lt_or_eq_of_le (P.b_le_a (Nat.lt_add_one i) (startsAt_of_isWord h' hl')) with hlt | heq
  · exact hlt
  · have hstops := hw.stops
    rw [heq, hw'.first] at hstops
    cases hstops

/-- A gap stands between two words, one token after the other, and it is not empty. -/
theorem gap_of_words :
    (LineTable.ofText text).between (offsetOf text (b i)) (offsetOf text (a (i + 1))) ≠ [] ∧
      isGap false ((LineTable.ofText text).between (offsetOf text (b i)) (offsetOf text (a (i + 1)))) =
        true := by
  have hs' := startsAt_of_isWord h' hl'
  refine ⟨fun hnil => ?_, P.isGap_written (startsAt_of_isWord h hl) hs'⟩
  have hlt := P.b_lt_a_of_words h hl h' hl'
  have hread := P.normalizeNewlines_between hlt.le (P.a_le_length hs')
  rw [hnil] at hread
  have hlength := congrArg List.length hread
  rw [List.length_drop, List.length_take, Nat.min_eq_left (P.a_le_length hs')] at hlength
  exact (Nat.sub_pos_of_lt hlt).ne hlength

end Next

/-- What stands up to a place, with another place on the way. -/
theorem between_offsetOf {j k l : Nat} (hjk : j ≤ k) (hkl : k ≤ l)
    (hl : l ≤ (normalizeNewlines text).length) :
    (LineTable.ofText text).between (offsetOf text j) (offsetOf text l) =
      (LineTable.ofText text).between (offsetOf text j) (offsetOf text k) ++
        (LineTable.ofText text).between (offsetOf text k) (offsetOf text l) :=
  (between_append (offsetOf_le P.terminated hjk (hkl.trans hl)) (offsetOf_le P.terminated hkl hl)).symm

/-- Up to a token that comes later, a keyword and a gap stand before the next word. -/
theorem between_keyword {i x : Nat} {k : Keyword} {spelling : List Char} {l : Lexeme}
    (hk : ∀ p ∈ Keyword.spellings, p.2 = k → p.1 = spelling) (h : lexemeAt tokens i = some (.keyword k))
    (h' : lexemeAt tokens (i + 1) = some l) (hl : l.isWord = true) (hix : i + 1 ≤ x)
    (hx : StartsAt tokens x) : ∃ gap, (gap ≠ [] ∧ isGap false gap = true) ∧
      (LineTable.ofText text).between (offsetOf text (a i)) (offsetOf text (a x)) = spelling ++ (gap ++
        (LineTable.ofText text).between (offsetOf text (a (i + 1))) (offsetOf text (a x))) := by
  have hs' := startsAt_of_isWord h' hl
  obtain ⟨word, hw⟩ := P.exists_word h rfl
  obtain rfl : word = spelling := by
    cases hw.spelled with
    | keyword hmem => exact hk _ hmem rfl
  have hle := P.b_le_a (Nat.lt_add_one i) hs'
  have hle' := P.a_le_a hs' hix hx
  have hbound := P.a_le_length hx
  refine ⟨_, P.gap_of_words h rfl h' hl, ?_⟩
  rw [P.between_offsetOf hw.lt.le (hle.trans hle') hbound, hw.written,
    P.between_offsetOf hle hle' hbound]

/-- Up to a token that comes later, a name stands before something that does not go on with it. -/
theorem between_name {i x : Nat} {name : List Char} (h : lexemeAt tokens i = some (.name name))
    (hix : i < x) (hx : StartsAt tokens x) : Unicode.isIdentifier name = true ∧ ∃ rest,
      (LineTable.ofText text).between (offsetOf text (a i)) (offsetOf text (a x)) = name ++ rest ∧
        rest.head?.any Unicode.mayContinue = false := by
  obtain ⟨word, hw⟩ := P.exists_word h rfl
  have hle := P.b_le_a hix hx
  have hbound := P.a_le_length hx
  obtain rfl : name = word := by cases hw.spelled with | name _ _ => rfl
  refine ⟨hw.identifier name rfl, _, by rw [P.between_offsetOf hw.lt.le hle hbound, hw.written], ?_⟩
  have hsame : Unicode.mayContinue '\n' = Unicode.mayContinue '\r' := by decide
  rw [← any_head?_normalizeNewlines hsame, P.normalizeNewlines_between hle hbound, List.head?_drop]
  rcases Nat.lt_or_eq_of_le hle with hlt | heq
  · rw [List.getElem?_take_of_lt hlt, hw.stops]
  · rw [List.getElem?_eq_none (by rw [List.length_take]; omega)]
    rfl

/-- A definition is written as an opening, its name, and something that does not go on with the name. -/
theorem exists_opening {span : Option Span} {items : List Tree} {m n x : Nat} {name : List Char}
    (h : Title tokens span items m n name) (hnx : n + 1 < x) (hx : StartsAt tokens x) :
    ∃ (o : Function.Opening) (rest : List Char), o.IsSound ∧ Unicode.isIdentifier name = true ∧
      rest.head?.any Unicode.mayContinue = false ∧
      (LineTable.ofText text).between (offsetOf text (a m)) (offsetOf text (a x)) =
        o.text ++ (name ++ rest) := by
  have hdefWord : ∀ p ∈ Keyword.spellings, p.2 = .defWord → p.1 = ['d', 'e', 'f'] := by decide
  have hasyncWord : ∀ p ∈ Keyword.spellings, p.2 = .asyncWord → p.1 = ['a', 's', 'y', 'n', 'c'] := by
    decide
  obtain ⟨gap, hgap, hdef⟩ := P.between_keyword hdefWord h.keyword h.named rfl hnx.le hx
  obtain ⟨hidentifier, rest, hrest, hstops⟩ := P.between_name h.named hnx hx
  rcases h.first with rfl | ⟨rfl, hasync⟩
  · refine ⟨⟨none, gap⟩, rest, ?_, hidentifier, hstops, ?_⟩
    · simpa [Function.Opening.IsSound, Function.Opening.gaps] using hgap
    · rw [hdef, hrest]
      simp [Function.Opening.text]
  · obtain ⟨space, hspace, hbetween⟩ := P.between_keyword hasyncWord hasync h.keyword rfl (by omega) hx
    refine ⟨⟨some space, gap⟩, rest, ?_, hidentifier, hstops, ?_⟩
    · simpa [Function.Opening.IsSound, Function.Opening.gaps] using ⟨hspace, hgap⟩
    · rw [hbetween, hdef, hrest]
      simp [Function.Opening.text]

end Parsed

section Ended

variable {text : List Char} {s ended : Source} {tokens : Array Token} {a b : Nat → Nat}
  (P : Parsed (terminated text) ended tokens a b) (htable : s.table = .ofText text)
  {x : Nat} (hx : StartsAt tokens x)

include P htable hx

/-- A token of the text with its last line ended is in the text where it is there. -/
theorem Source.offset_startAt : s.table.offset (startAt tokens x) = offsetOf (terminated text) (a x) := by
  rw [P.startAt_eq hx, htable, offset_terminated ((P.a_lt_b hx).trans_le (P.b_le hx))]

/-- So is a node that begins with the token. -/
theorem Source.start_of_startsAt {t : Tree} (ht : t.span?.map Span.start = some (startAt tokens x)) :
    s.start t = offsetOf (terminated text) (a x) := by
  rw [Source.start, Tree.start_eq ht, Source.offset_startAt P htable hx]

end Ended

namespace Function

variable {text : List Char} {s : Source} {nodes : List Tree} {t : Tree} {depth : Int} {d : Definition}

/-- A header is an opening, the name of the definition, and something that does not go on with it. -/
theorem exists_header (hp : Source.parse text = .ok s) (hu : Under [] s.tree nodes t)
    (hd : classify s nodes t depth = .definition d) :
    ∃ (o : Opening) (name rest : List Char), o.IsSound ∧ Unicode.isIdentifier name = true ∧
      rest.head?.any Unicode.mayContinue = false ∧ d.header = o.text ++ (name ++ rest) ∧
      t.word? .name = some (Unicode.normalize name) := by
  obtain ⟨ended, tokens, a, b, hended, P, htree, htable⟩ := Source.exists_parsed hp
  rw [← htree] at hu
  obtain ⟨_, _, _, body, -, -, hstands⟩ := P.laid.exists_stands hu hd
  have hne := hstands.ne_nil
  obtain ⟨⟨r, k, span, items, rfl, hk⟩, -, rfl⟩ := eq_of_classify_definition hd
  obtain ⟨first, others, hbody⟩ := List.exists_cons_of_ne_nil hne
  replace hbody : (Syntax.Tree.node r k span items).field .body = first :: others := hbody
  obtain ⟨m, n, name, htitle⟩ : ∃ m n name, Title tokens span items m n name := by
    cases (titled_of_parse P.terminated hended P.scanned).under hu with
    | node hdef _ => exact hdef hk
  obtain ⟨hmem, hrole⟩ : first ∈ items ∧ first.role = .body := by
    have hfield : first ∈ (Syntax.Tree.node r k span items).field .body := by
      rw [hbody]
      exact List.mem_cons_self
    simpa [Tree.field, Tree.items] using hfield
  obtain ⟨x, hnx, hx, hstart⟩ := htitle.body first hmem hrole
  obtain ⟨o, rest, ho, hidentifier, hstops, hbetween⟩ := P.exists_opening htitle hnx hx
  have hm : StartsAt tokens m := htitle.toOpens.startsAt
  refine ⟨o, name, rest, ho, hidentifier, hstops, ?_, ?_⟩
  · rw [← hbetween, ← between_terminated ((P.a_lt_b hx).trans_le (P.b_le hx)), definitionOf, hbody]
    simp only [List.head?_cons, Option.map_some, Option.getD_some]
    have hnode : s.start (.node r k span items) = offsetOf (terminated text) (a m) :=
      Source.start_of_startsAt P htable hm htitle.start
    rw [hnode, Source.start_of_startsAt P htable hx hstart, htable]
  · rw [Tree.word?, Tree.item?, Tree.items, htitle.item]

/-- What the scanner reads in the header of a definition, and the name that is made out in it. -/
theorem header_of_classify (hp : Source.parse text = .ok s) (hu : Under [] s.tree nodes t)
    (hd : classify s nodes t depth = .definition d) :
    (Opening.of d.header).IsSound ∧ Unicode.isIdentifier (spelledName d.header) = true ∧
      (∃ rest, d.header = (Opening.of d.header).text ++ (spelledName d.header ++ rest) ∧
        rest.head?.any Unicode.mayContinue = false) ∧
      t.word? .name = some (Unicode.normalize (spelledName d.header)) ∧
      d.name = (Opening.of d.header).nameIn (spelledName d.header) := by
  obtain ⟨o, name, rest, ho, hname, hrest, hheader, hword⟩ := exists_header hp hu hd
  have hof : Opening.of d.header = o := by rw [hheader, Opening.of_append ho hname]
  have hspelled : spelledName d.header = name := by rw [hheader, spelledName_append ho hname hrest]
  rw [hof, hspelled]
  refine ⟨ho, hname, ⟨rest, hheader, hrest⟩, hword, ?_⟩
  rw [← Opening.writtenName_append ho hname hrest, ← hheader, (eq_of_classify_definition hd).2.2]
  simp only [definitionOf, hword, Option.getD_some]

/-- So a name in ASCII is as it is written. -/
theorem name_of_ascii (hp : Source.parse text = .ok s) (hu : Under [] s.tree nodes t)
    (hd : classify s nodes t depth = .definition d) (h : ∀ c ∈ spelledName d.header, c.toNat < 128) :
    d.name = spelledName d.header := by
  obtain ⟨-, hname, -, -, hin⟩ := header_of_classify hp hu hd
  rw [hin, Opening.nameIn_of_ascii _ hname h]

/-- A text with a definition that has the property. -/
theorem exists_of_definitions {p : Source → Definition → Bool}
    (h : (Source.parse text).toOption.any (fun s => s.definitions.any (p s)) = true) :
    ∃ s nodes d, Source.parse text = .ok s ∧ ⟨d.node, nodes⟩ ∈ s.tree.walk ∧
      classify s nodes d.node 0 = .definition d ∧ p s d = true := by
  obtain ⟨s, hs, hany⟩ := Source.exists_of_parse h
  obtain ⟨d, hd, hp⟩ := List.any_eq_true.1 hany
  obtain ⟨nodes, t, hu, hc⟩ := Source.mem_definitions.1 hd
  obtain rfl : d.node = t := by rw [(eq_of_classify_definition hc).2.2]; rfl
  exact ⟨s, nodes, d, hs, mem_walk.2 hu, hc, hp⟩

end Function

end CallTrace
