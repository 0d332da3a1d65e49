import Mathlib
import CallTrace.Proofs.Bodies
import CallTrace.Proofs.Edit
import CallTrace.Proofs.Offsets

/-!
# When edits overlap

The only edits that replace anything are those for a `pass` that is all a body does.  Such an edit is
clear of all others (`Parsed.before_or_after`) but for one: where the `pass` begins a physical line, as
it may after a line that is continued by a backslash, and a body around it is indented line by line,
the indentation is put where the `pass` begins, and then the edits overlap.  `Source.collides` says
that this happens.

`rewrite_outcome` says that a text that can be parsed is instrumented if and only if it does not.
-/

namespace CallTrace

open Syntax Instrument Text

/-- The definitions that are traced. -/
def Source.definitions (s : Source) : List Definition :=
  (Function.candidates s 0).filterMap fun
    | (_, .definition d) => some d
    | _ => none

/-- A `pass` that is all a body does stands where a line of another body is indented. -/
def Source.collides (s : Source) : Bool :=
  s.definitions.any fun d => d.lonePass?.any fun t =>
    s.definitions.any fun e => (e.shiftedLines s).any fun n => s.start t = s.table.shiftPoint n

theorem Source.mem_definitions {s : Source} {d : Definition} : d ∈ s.definitions ↔
    ∃ nodes t, Under [] s.tree nodes t ∧ Function.classify s nodes t 0 = .definition d := by
  simp only [definitions, Function.candidates, List.filterMap_filterMap, List.mem_filterMap]
  constructor
  · rintro ⟨p, hp, h⟩
    split at h
    · simp only [Option.bind_some] at h
      split at h
      · rename_i heq
        obtain ⟨-, hc⟩ := Prod.mk.inj heq
        obtain rfl := Option.some.inj h
        exact ⟨p.above, p.tree, mem_walk.1 hp, hc⟩
      · cases h
    · cases h
  · rintro ⟨nodes, t, hu, hc⟩
    refine ⟨⟨t, nodes⟩, mem_walk.2 hu, ?_⟩
    obtain ⟨⟨r, k, span, items, rfl, hk⟩, -⟩ := Function.eq_of_classify_definition hc
    simp [Tree.kind?, hk, hc]

theorem Source.collides_iff {s : Source} : s.collides = true ↔ ∃ d ∈ s.definitions, ∃ t,
    d.lonePass? = some t ∧ ∃ e ∈ s.definitions, ∃ n ∈ e.shiftedLines s,
      s.start t = s.table.shiftPoint n := by
  simp only [collides, List.any_eq_true, Option.any_eq_true, decide_eq_true_eq]

/-- The depth at which a definition is met has no part in this. -/
theorem Source.exists_definition {s : Source} {nodes : List Tree} {t : Tree} {depth : Int}
    {d : Definition} (hu : Under [] s.tree nodes t)
    (hd : Function.classify s nodes t depth = .definition d) :
    ∃ d' ∈ s.definitions, d'.lonePass? = d.lonePass? ∧ d'.shiftedLines s = d.shiftedLines s := by
  rw [Function.classify_atDepth] at hd
  cases hc : Function.classify s nodes t 0 with
  | definition d' =>
    rw [hc] at hd
    obtain rfl := Function.Shape.definition.inj hd
    exact ⟨d', Source.mem_definitions.2 ⟨nodes, t, hu, hc⟩, rfl, rfl⟩
  | lambda l =>
    rw [hc] at hd
    cases hd
  | unmatched =>
    rw [hc] at hd
    cases hd

/-! ## Edits one after the other -/

namespace Edit

/-- An edit ends where another begins or before, and is made before it. -/
def IsBefore (a b : Edit) : Prop :=
  a.stop ≤ b.start ∧ ¬ b.le a = true

theorem IsBefore.clears {a b : Edit} (h : a.IsBefore b) : a.Clears b := by
  rw [Clears, if_pos (le_of_not_le h.2)]
  exact h.1

theorem IsBefore.clears' {a b : Edit} (h : a.IsBefore b) : b.Clears a := by
  rw [Clears, if_neg h.2]
  exact h.1

theorem isBefore_of_lt {a b : Edit} (h : a.stop ≤ b.start) (hlt : a.start < b.start) : a.IsBefore b := by
  refine ⟨h, fun hle => ?_⟩
  have := start_le_of_le hle
  omega

/-- Edits that only insert are clear of each other. -/
theorem clears_of_insertions {a b : Edit} (ha : a.start = a.stop) (hb : b.start = b.stop) :
    a.Clears b := by
  rw [Clears]
  split
  · rename_i h
    rw [← ha]
    exact start_le_of_le h
  · rename_i h
    rw [← hb]
    exact start_le_of_le (le_of_not_le h)

end Edit

namespace Instrument

theorem Site.body_eq {s : Source} {x : Site} {depth : Int} {d : Definition}
    (h : Function.classify s x.above x.tree depth = .definition d) : x.body = d.body := by
  obtain ⟨⟨r, k, span, items, htree, hk⟩, -, rfl⟩ := Function.eq_of_classify_definition h
  rw [Site.body, Definition.body, Function.definitionOf, htree, if_pos (by simpa [Tree.kind?] using hk)]

/-- Closing texts come before the text that replaces a `pass`. -/
theorem not_opening_le_closing (level level' : Nat) :
    Edit.orderLe (opening level) (closing level') = false := rfl

end Instrument

namespace Parsed

variable {text : List Char} {s : Source} {tokens : Array Token} {a b : Nat → Nat}
  (P : Parsed text s tokens a b)

include P

/-! ## The word `pass` -/

section Pass

variable {n : Nat} (hn : lexemeAt tokens n = some (.keyword .passWord))

include hn

theorem spelling_of_pass :
    ((normalizeNewlines text).take (b n)).drop (a n) = ['p', 'a', 's', 's'] := by
  obtain ⟨l, spelling, hl, -, hs, htake, -⟩ := P.lies_of_startsAt ⟨_, hn, rfl⟩
  rw [hn, Option.some.injEq] at hl
  subst hl
  rw [htake]
  cases hs with
  | keyword hmem =>
    have hall : ∀ p ∈ Keyword.spellings, p.2 = .passWord → p.1 = ['p', 'a', 's', 's'] := by decide
    exact hall _ hmem rfl

theorem first_char_of_pass : (normalizeNewlines text)[a n]? = some 'p' := by
  have hs := P.spelling_of_pass hn
  have hchar : (((normalizeNewlines text).take (b n)).drop (a n))[0]? = some 'p' := by rw [hs]; rfl
  rwa [List.getElem?_drop, Nat.add_zero, List.getElem?_take_of_lt (P.a_lt_b ⟨_, hn, rfl⟩)] at hchar

theorem line_of_pass : (placeOf text (b n)).line = (placeOf text (a n)).line := by
  have hs := P.spelling_of_pass hn
  refine line_eq_of_no_newline (P.a_lt_b ⟨_, hn, rfl⟩).le (P.b_le ⟨_, hn, rfl⟩) fun i hi hib hc => ?_
  have hmem : '\n' ∈ ((normalizeNewlines text).take (b n)).drop (a n) := by
    refine List.mem_of_getElem? (i := i - a n) ?_
    rw [List.getElem?_drop, Nat.add_sub_cancel' hi, List.getElem?_take_of_lt hib, hc]
  rw [hs] at hmem
  revert hmem
  decide

/-- An insertion outside of the word, and not an opening text right before it, is clear of it. -/
theorem insertion_clear {x level : Nat} {inserted replacement : List Char} {order : List Int}
    (hx : IsOutside text a b n x)
    (hne : x ≠ offsetOf text (a n) ∨ ∃ level', order = closing level') :
    (insertion x inserted order).IsBefore
        ⟨offsetOf text (a n), offsetOf text (b n), replacement, opening level⟩ ∨
      Edit.IsBefore ⟨offsetOf text (a n), offsetOf text (b n), replacement, opening level⟩
        (insertion x inserted order) := by
  have hlt := offsetOf_lt P.terminated (P.a_lt_b ⟨_, hn, rfl⟩) (P.b_le ⟨_, hn, rfl⟩)
  rcases hx with hx | hx
  · refine Or.inl ⟨Int.ofNat_le.2 hx, ?_⟩
    rw [Edit.le_iff]
    rintro (h | ⟨h, ho⟩)
    · have : (offsetOf text (a n) : Int) < x := h
      omega
    · have hxa : (offsetOf text (a n) : Int) = x := h
      rcases hne with hne | ⟨level', rfl⟩
      · omega
      · have : Edit.orderLe (opening level) (closing level') = true := ho
        rw [not_opening_le_closing] at this
        cases this
  · refine Or.inr (Edit.isBefore_of_lt (Int.ofNat_le.2 hx) ?_)
    have : (offsetOf text (a n) : Int) < x := by omega
    exact this

/-- No body ends right before the word. -/
theorem stop_ne_of_pass {c : Cell} {i j m q : Nat} {body : List Cell} (hb : Block tokens i j body)
    (hc : c ∈ body.getLast?) (h : c.Ends text tokens a b m q) :
    offsetOf text (b q) ≠ offsetOf text (a n) := by
  have hs : StartsAt tokens n := ⟨_, hn, rfl⟩
  rcases Nat.lt_or_ge q n with hqn | hnq
  · obtain ⟨e, hqe, -, hnewline, hrest⟩ := exists_newline_after hb hc h
    have hen : e < n := by
      by_contra hle
      rcases Nat.lt_or_eq_of_le (Nat.not_lt.1 hle) with hne | rfl
      · have := hrest n hqn hne hs
        rw [hn] at this
        cases this
      · rw [hn] at hnewline
        cases hnewline
    have h₁ := P.lies.apart hqe (lt_size_of_lexemeAt hnewline)
    have h₂ := (P.newline_at hnewline).2
    have h₃ := P.b_le_a hen hs
    exact (offsetOf_lt P.terminated (by omega) (P.a_le_length hs)).ne
  · have h₁ := P.a_le_a hs hnq h.last
    have h₂ := P.a_lt_b h.last
    exact (offsetOf_lt P.terminated (h₁.trans_lt h₂) (P.b_le h.last)).ne'

/-- No line above a body begins with the word, unless the word is the body's first. -/
theorem above_ne_of_pass {c : Cell} {m q : Nat} (h : c.Ends text tokens a b m q)
    (hd : c.tree.field .decorators ≠ [] → EndedAt tokens c.lo) (hstart : s.atLineStart c.tree = true)
    (hmn : m ≠ n) : s.table.lineStart (Source.firstLine c.tree) ≠ offsetOf text (a n) := by
  have hs : StartsAt tokens n := ⟨_, hn, rfl⟩
  obtain ⟨f, hlo, hfm, hf, hline, hcase⟩ := P.exists_first h
  rw [hline]
  intro heq
  -- The word stands on the line, and no other token of the line before it.
  have hle := (P.lineStart_line_le_iff hf (P.a_le_length hs)).1 heq.le
  have hfirst : offsetOf text (a n) ≤ offsetOf text (a f) := heq ▸ P.lineStart_line_le hf
  have hnf : n ≤ f := by
    by_contra hlt
    have := offsetOf_lt P.terminated (P.a_lt_a hf (Nat.not_le.1 hlt) hs) (P.a_le_length hs)
    omega
  rcases hcase with ⟨-, rfl⟩ | ⟨hne, ⟨l, hl, hplain⟩, hsigns⟩
  · have hnf := Nat.lt_of_le_of_ne hnf hmn.symm
    have := P.line_lt_of_atLineStart h hstart hs hnf
    rw [P.line_of_pass hn] at this
    omega
  · rcases Nat.lt_or_eq_of_le hnf with hnf | rfl
    · have := P.line_lt_of_decorated (hd hne) hsigns hlo hf hs (by rw [hn]; simp) hnf
      rw [P.line_of_pass hn] at this
      omega
    · rw [hn, Option.some.injEq] at hl
      rw [← hl] at hplain
      cases hplain

end Pass

/-- What replaces one token is clear of what replaces another. -/
theorem tokens_clear {n n' : Nat} {level level' : Nat} {text₁ text₂ : List Char}
    (hn : StartsAt tokens n) (hn' : StartsAt tokens n') (hne : n ≠ n') :
    Edit.IsBefore ⟨offsetOf text (a n), offsetOf text (b n), text₁, opening level⟩
        ⟨offsetOf text (a n'), offsetOf text (b n'), text₂, opening level'⟩ ∨
      Edit.IsBefore ⟨offsetOf text (a n'), offsetOf text (b n'), text₂, opening level'⟩
        ⟨offsetOf text (a n), offsetOf text (b n), text₁, opening level⟩ := by
  have before {i j : Nat} {text₁ text₂ : List Char} {level level' : Nat} (hi : StartsAt tokens i)
      (hj : StartsAt tokens j) (hij : i < j) :
      Edit.IsBefore ⟨offsetOf text (a i), offsetOf text (b i), text₁, opening level⟩
        ⟨offsetOf text (a j), offsetOf text (b j), text₂, opening level'⟩ :=
    Edit.isBefore_of_lt
      (Int.ofNat_le.2 (offsetOf_le P.terminated (P.b_le_a hij hj) (P.a_le_length hj)))
      (Int.ofNat_lt.2 (offsetOf_lt P.terminated (P.a_lt_a hi hij hj) (P.a_le_length hj)))
  rcases Nat.lt_or_gt_of_ne hne with h | h
  · exact Or.inl (before hn hn' h)
  · exact Or.inr (before hn' hn h)

/-- The edit for a `pass` is clear of the edits of all other functions. -/
theorem before_or_after {x y : Site} {depth depth' : Int} {d : Definition} {t : Tree} {e : Edit}
    {level : Nat} {replacement : List Char} (hxy : x.Apart y) (hu : Under [] s.tree x.above x.tree)
    (hd : Function.classify s x.above x.tree depth = .definition d) (ht : d.lonePass? = some t)
    (hv : Under [] s.tree y.above y.tree) (he : y.Wraps s depth' e) (hno : s.collides = false) :
    e.IsBefore ⟨s.start t, s.stop t, replacement, opening level⟩ ∨
      Edit.IsBefore ⟨s.start t, s.stop t, replacement, opening level⟩ e := by
  obtain ⟨m, i, j, body, hstands⟩ := P.exists_stands hu hd
  obtain ⟨hone, hpass⟩ := Definition.lonePass?_eq_some_iff.1 ht
  have htx : t ∈ x.body := by
    rw [Site.body_eq hd]
    exact hstands.mem_of_statements (hone ▸ List.mem_singleton_self _)
  obtain ⟨c, hc, htree, m', q, hends⟩ := P.exists_ends_of_mem hstands (Site.body_eq hd ▸ htx)
  subst htree
  obtain ⟨rfl, rfl, hn⟩ := hends.of_pass (hstands.laid c hc) hpass
  have hs := hends.first
  -- A statement of the other function begins with another token.
  have hother {u : Tree} {c' : Cell} {m' q' : Nat} (hmem : u ∈ y.body) (hc' : c'.tree = u)
      (hends' : c'.Ends text tokens a b m' q') : m' ≠ c.lo := by
    rintro rfl
    refine hxy _ htx _ hmem ?_
    rw [← hc', start_eq hends, start_eq hends']
  have hbefore {u : Tree} {c' : Cell} {m' q' : Nat} (hmem : u ∈ y.body) (hc' : c'.tree = u)
      (hends' : c'.Ends text tokens a b m' q') : offsetOf text (a m') ≠ offsetOf text (a c.lo) :=
    fun h => hother hmem hc' hends' (P.eq_of_offsetOf_eq hends'.first hs h)
  have hlines {line : Nat} : ¬ ((placeOf text (a c.lo)).line < line ∧
      line ≤ (placeOf text (b c.lo)).line) := by
    rw [P.line_of_pass hn]
    omega
  rw [P.offset_start hends, P.offset_stop hends]
  cases he with
  | beforeBody hl =>
    obtain ⟨c', hlaid, htree, hplaced, hplain, -⟩ := P.exists_lambda hv hl
    obtain ⟨m', q', hends'⟩ := P.exists_ends hlaid hplaced
    rw [← htree, P.offset_start hends']
    refine P.insertion_clear hn (P.first_outside hs hends'.first) (Or.inl fun h => ?_)
    obtain rfl := P.eq_of_offsetOf_eq hends'.first hs h
    obtain ⟨l, hlex, hplain⟩ := hplain _ hends'.adorned.le (hends'.le.trans_lt hends'.lt)
    rw [hn, Option.some.injEq] at hlex
    rw [← hlex] at hplain
    cases hplain
  | afterBody hl =>
    obtain ⟨c', hlaid, htree, hplaced, -⟩ := P.exists_lambda hv hl
    obtain ⟨m', q', hends'⟩ := P.exists_ends hlaid hplaced
    rw [← htree, P.offset_stop hends']
    exact P.insertion_clear hn (P.last_outside hs hends'.last) (Or.inr ⟨_, rfl⟩)
  | @definition d' e hd' hw =>
    obtain ⟨m, i, j, body', hstands'⟩ := P.exists_stands hv hd'
    have hbody := Site.body_eq hd'
    cases hw with
    | @beforeDocstring doc _ hdoc _ =>
      have hmem := hstands'.mem_of_docstring hdoc
      obtain ⟨c', -, htree, m', q', hends'⟩ := P.exists_ends_of_mem hstands' hmem
      rw [← htree, P.offset_start hends']
      exact P.insertion_clear hn (P.first_outside hs hends'.first)
        (Or.inl (hbefore (hbody ▸ hmem) htree hends'))
    | afterDocstring hdoc hnone =>
      obtain ⟨c', hc', rfl⟩ := hstands'.exists_last (hstands'.getLast?_of_docstring hdoc hnone)
      have hmem := List.mem_of_mem_getLast? hc'
      obtain ⟨m', q', hends'⟩ := P.exists_ends (hstands'.laid c' hmem) (hstands'.block.placed c' hmem)
      rw [P.offset_stop hends']
      exact P.insertion_clear hn (P.last_outside hs hends'.last)
        (Or.inl (P.stop_ne_of_pass hn hstands'.block hc' hends'))
    | forPass ht' _ =>
      obtain ⟨hone', hpass'⟩ := Definition.lonePass?_eq_some_iff.1 ht'
      have hmem := hstands'.mem_of_statements (hone' ▸ List.mem_singleton_self _)
      obtain ⟨c', hc', rfl, m', q', hends'⟩ := P.exists_ends_of_mem hstands' hmem
      have hne := hother (hbody ▸ hmem) rfl hends'
      obtain ⟨rfl, rfl, -⟩ := hends'.of_pass (hstands'.laid c' hc') hpass'
      rw [P.offset_start hends', P.offset_stop hends']
      exact P.tokens_clear hends'.first hs hne
    | beforeHead hhead _ _ =>
      have hmem := hstands'.mem_of_statements (List.mem_of_mem_head? hhead)
      obtain ⟨c', -, htree, m', q', hends'⟩ := P.exists_ends_of_mem hstands' hmem
      rw [← htree, P.offset_start hends']
      exact P.insertion_clear hn (P.first_outside hs hends'.first)
        (Or.inl (hbefore (hbody ▸ hmem) htree hends'))
    | afterLast hlast =>
      have hmem := hstands'.mem_of_statements (List.mem_of_mem_getLast? hlast)
      obtain ⟨c', -, htree, m', q', hends'⟩ := P.exists_ends_of_mem hstands' hmem
      rw [← htree, P.offset_stop hends']
      exact P.insertion_clear hn (P.last_outside hs hends'.last) (Or.inr ⟨_, rfl⟩)
    | aboveHead hhead _ hstart =>
      have hmem := hstands'.mem_of_statements (List.mem_of_mem_head? hhead)
      obtain ⟨c', hc', rfl, m', q', hends'⟩ := P.exists_ends_of_mem hstands' hmem
      obtain ⟨f, -, -, hf, hline, -⟩ := P.exists_first hends'
      have hadorned := hstands'.block.adorned c' hc'
      refine P.insertion_clear hn (P.lineStart_outside hs ?_ ?_ hlines)
        (Or.inl (P.above_ne_of_pass hn hends' hadorned hstart (hother (hbody ▸ hmem) rfl hends')))
      · rw [hline]
        exact P.one_le_line hf
      · rw [hline]
        exact P.line_le_count_succ hf
    | shift hline =>
      obtain ⟨h₁, h₂⟩ := P.bounds_of_mem_shiftedLines hstands' hline
      refine P.insertion_clear hn (P.shiftPoint_outside hs h₁ (by omega) (P.first_char_of_pass hn) (by decide)
        (by decide) hlines) (Or.inl fun heq => ?_)
      -- This is the collision.
      obtain ⟨d₁, hd₁, hlone, -⟩ := Source.exists_definition hu hd
      obtain ⟨d₂, hd₂, -, hlines⟩ := Source.exists_definition hv hd'
      have hcollides : s.collides = true := Source.collides_iff.2
        ⟨d₁, hd₁, _, hlone.trans ht, d₂, hd₂, _, hlines ▸ hline, by rw [P.offset_start hends, heq]⟩
      rw [hno] at hcollides
      cases hcollides
    | belowLast hlast =>
      obtain ⟨c', hc', rfl⟩ := hstands'.exists_last (hstands'.getLast?_of_statements hlast)
      have hmem := List.mem_of_mem_getLast? hc'
      obtain ⟨m', q', hends'⟩ := P.exists_ends (hstands'.laid c' hmem) (hstands'.block.placed c' hmem)
      have hcount := P.line_le_count hends'.last
      rw [stop_eq hends']
      exact P.insertion_clear hn (P.lineStart_outside hs (Nat.succ_pos _) (Nat.succ_le_succ hcount) hlines)
        (Or.inr ⟨_, rfl⟩)

/-! ## All edits -/

/-- The edits of one function are clear of each other. -/
theorem pairwise_clears_of_site {o : Options} {x : Site} {depth : Int}
    (hu : Under [] s.tree x.above x.tree) : (x.edits o s depth).Pairwise Edit.Clears := by
  have insertions {edits : List Edit} (h : ∀ e ∈ edits, e.start = e.stop) :
      edits.Pairwise Edit.Clears :=
    List.pairwise_of_forall_mem_list fun e he f hf => Edit.clears_of_insertions (h e he) (h f hf)
  by_cases hpass : ∃ d t, Function.classify s x.above x.tree depth = .definition d ∧ d.lonePass? = some t
  · obtain ⟨d, t, hd, ht⟩ := hpass
    obtain ⟨m, i, j, body, hstands⟩ := P.exists_stands hu hd
    obtain ⟨docs, replacement, hedits, hdocs⟩ :=
      edits_eq_of_lonePass (o := o) (s := s) x.units ht hstands.ne_nil
    rw [Site.edits, hd, shapeEdits, hedits, List.pairwise_append]
    refine ⟨insertions fun e he => ?_, List.pairwise_singleton _ _, fun e he f hf => ?_⟩
    · obtain ⟨doc, text, -, rfl⟩ := hdocs e he
      rfl
    · obtain ⟨doc, inserted, hdoc, rfl⟩ := hdocs e he
      obtain rfl := List.mem_singleton.1 hf
      -- The docstring is another statement of the same body.
      obtain ⟨hone, hp⟩ := Definition.lonePass?_eq_some_iff.1 ht
      have htrees := hstands.trees
      rw [hstands.parts, hdoc, hone] at htrees
      obtain ⟨c₁, rest, rfl, rfl, hrest⟩ := List.map_eq_cons_iff.1 htrees
      obtain ⟨c₂, rest, rfl, rfl, hrest⟩ := List.map_eq_cons_iff.1 hrest
      obtain ⟨m₁, q₁, hends₁⟩ := P.exists_ends (hstands.laid c₁ (by simp))
        (hstands.block.placed c₁ (by simp))
      obtain ⟨m₂, q₂, hends₂⟩ := P.exists_ends (hstands.laid c₂ (by simp))
        (hstands.block.placed c₂ (by simp))
      obtain ⟨rfl, rfl, hn⟩ := hends₂.of_pass (hstands.laid c₂ (by simp)) hp
      have hlt : m₁ < c₂.lo := by
        have h₁ := (List.pairwise_cons.1 hstands.block.spread.pairwise).1 c₂ (by simp)
        have h₂ := hends₁.le
        have h₃ := hends₁.lt
        omega
      rw [P.offset_start hends₁, P.offset_start hends₂, P.offset_stop hends₂]
      have hne : offsetOf text (a m₁) ≠ offsetOf text (a c₂.lo) := fun h =>
        hlt.ne (P.eq_of_offsetOf_eq hends₁.first hends₂.first h)
      rcases P.insertion_clear hn (P.first_outside hends₂.first hends₁.first) (Or.inl hne) with h | h
      · exact h.clears
      · exact h.clears'
  · refine insertions fun e he => ?_
    rcases (Site.wraps_of_mem he).insertion_or_pass with h | ⟨d, t, _, hd, ht, -⟩
    · exact h
    · exact absurd ⟨d, t, hd, ht⟩ hpass

/-- The edits of two functions are clear of each other. -/
theorem clears_of_apart {o : Options} {x y : Site} {depth depth' : Int} {e f : Edit} (hxy : x.Apart y)
    (hu : Under [] s.tree x.above x.tree) (hv : Under [] s.tree y.above y.tree)
    (hno : s.collides = false) (he : e ∈ x.edits o s depth) (hf : f ∈ y.edits o s depth') :
    e.Clears f := by
  have hwe := Site.wraps_of_mem he
  have hwf := Site.wraps_of_mem hf
  rcases hwe.insertion_or_pass with h₁ | ⟨d, t, _, hd, ht, rfl⟩
  · rcases hwf.insertion_or_pass with h₂ | ⟨d, t, _, hd, ht, rfl⟩
    · exact Edit.clears_of_insertions h₁ h₂
    · rcases P.before_or_after hxy.symm hv hd ht hu hwe hno with h | h
      · exact h.clears
      · exact h.clears'
  · rcases P.before_or_after hxy hu hd ht hv hwf hno with h | h
    · exact h.clears'
    · exact h.clears

theorem ordered_of_mem {o : Options} {e : Edit} (he : e ∈ (pass o s).edits) : e.Ordered := by
  obtain ⟨x, depth, hu, hw⟩ := exists_wraps he
  rcases hw.insertion_or_pass with h | ⟨d, t, _, hd, ht, rfl⟩
  · exact h.le
  · obtain ⟨m, i, j, body, hstands⟩ := P.exists_stands hu hd
    obtain ⟨hone, -⟩ := Definition.lonePass?_eq_some_iff.1 ht
    obtain ⟨c, hc, rfl, m, q, hends⟩ :=
      P.exists_ends_of_mem hstands (hstands.mem_of_statements (hone ▸ List.mem_singleton_self _))
    rw [P.offset_start hends, P.offset_stop hends]
    have hle := (P.a_le_a hends.first hends.le hends.last).trans (P.a_lt_b hends.last).le
    exact Int.ofNat_le.2 (offsetOf_le P.terminated hle (P.b_le hends.last))

/-- The edits of a definition are among those of the pass. -/
theorem exists_mem_edits (o : Options) {d : Definition} (hd : d ∈ s.definitions) :
    ∃ (units : List (List Char)) (depth : Int),
      (∃ m i j body, d.Stands tokens m i j body) ∧
      ∀ e ∈ (wrapDefinition o s units { d with depth }).edits, e ∈ (pass o s).edits := by
  obtain ⟨nodes, t, hu, hc⟩ := Source.mem_definitions.1 hd
  obtain ⟨units, hsite⟩ :=
    (mem_sites o s s.tree [] [] nodes t).2 ⟨hu, by rw [hc]; rfl⟩
  obtain ⟨met, hmet, hedits, -⟩ := exists_met o s
  rw [← hmet, List.mem_map] at hsite
  obtain ⟨⟨x, depth⟩, hx, rfl⟩ := hsite
  refine ⟨units, depth, P.exists_stands hu hc, fun e he => ?_⟩
  rw [hedits, editsOf, List.mem_flatMap]
  refine ⟨_, hx, ?_⟩
  rw [Site.edits, Function.classify_atDepth, hc]
  exact he

/-- The edits of a pass are clear of each other, unless there is a collision. -/
theorem pairwise_clears_iff (o : Options) :
    (pass o s).edits.Pairwise Edit.Clears ↔ s.collides = false := by
  constructor
  · intro h
    by_contra hcollides
    obtain ⟨d, hd, t, ht, e, he, n, hn, heq⟩ :=
      Source.collides_iff.1 (Bool.not_eq_false _ ▸ hcollides)
    obtain ⟨units₁, depth₁, ⟨m, i, j, body, hstands⟩, hmem₁⟩ := P.exists_mem_edits o hd
    obtain ⟨units₂, depth₂, ⟨_, _, _, _, hstands₂⟩, hmem₂⟩ := P.exists_mem_edits o he
    obtain ⟨docs, replacement, hedits, -⟩ := edits_eq_of_lonePass (o := o) (s := s) units₁
      (d := { d with depth := depth₁ }) ht hstands.ne_nil
    obtain ⟨unit, hshift⟩ := exists_shift (o := o) (s := s) units₂
      (d := { e with depth := depth₂ }) hn hstands₂.ne_nil
    have hpass := hmem₁ ⟨s.start t, s.stop t, replacement, opening units₁.length⟩
      (by rw [hedits]; exact List.mem_append_right _ (List.mem_singleton_self _))
    have hshift := hmem₂ _ hshift
    -- The indentation comes after the replacement, and lies inside of it.
    have hlt : s.start t < s.stop t := by
      obtain ⟨hone, -⟩ := Definition.lonePass?_eq_some_iff.1 ht
      obtain ⟨c, hc, rfl, m, q, hends⟩ :=
        P.exists_ends_of_mem hstands (hstands.mem_of_statements (hone ▸ List.mem_singleton_self _))
      rw [P.offset_start hends, P.offset_stop hends]
      exact offsetOf_lt P.terminated ((P.a_le_a hends.first hends.le hends.last).trans_lt
        (P.a_lt_b hends.last)) (P.b_le hends.last)
    rw [← heq] at hshift
    have hone : Edit.orderLe (opening units₁.length) shifting = true := rfl
    have hother : Edit.orderLe shifting (opening units₁.length) = false := rfl
    have hall := List.Pairwise.forall_of_forall_of_flip
      (R := fun a b : Edit => a = b ∨ a.Clears b ∨ b.Clears a) (fun a _ => Or.inl rfl)
      (h.imp fun h => Or.inr (Or.inl h)) (h.imp fun h => Or.inr (Or.inr h)) hpass hshift
    simp only [Edit.Clears, Edit.le, insertion, hone, hother, Edit.mk.injEq] at hall
    simp at hall
    omega
  · intro hno
    obtain ⟨met, hmet, hedits, -⟩ := exists_met o s
    have hunder : ∀ m ∈ met, Under [] s.tree m.1.above m.1.tree :=
      fun m hm => under_of_mem_sites (hmet ▸ List.mem_map_of_mem (f := Prod.fst) hm)
    have hapart := P.pairwise_apart o
    rw [← hmet, List.pairwise_map] at hapart
    rw [hedits, editsOf, List.pairwise_flatMap]
    refine ⟨fun m hm => P.pairwise_clears_of_site (hunder m hm), ?_⟩
    exact hapart.imp_of_mem fun {x y} hx hy hxy e he f hf =>
      P.clears_of_apart hxy (hunder x hx) (hunder y hy) hno he hf

end Parsed

/-- A definition whose body is a `pass` at the very start of the next physical line, in the body of
another definition. -/
def continuedPass : List Char := "def f():\n    def g(): \\\npass\n".toList

end CallTrace
