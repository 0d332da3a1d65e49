import Mathlib
import CallTrace.Proofs.Sites

/-!
# The edits of one function

`Form` lists the forms that the edits of a definition take; `form_wrapDefinition` says that there are
no others, and is the only place where the definition of the edits is opened.

`Wraps` says where these edits stand and how they are ordered, without the texts that they insert
(`wraps_of_mem`); `edits_eq_of_lonePass` and `exists_shift` say of two of them when they are there.
-/

namespace CallTrace

open Syntax Instrument

namespace Definition

variable {s : Source} {d : Definition}

/-- The `pass` that is all a body does. -/
def lonePass? (d : Definition) : Option Tree :=
  match d.statements with
  | [t] => if t.is .passStmt then some t else none
  | _ => none

/-- The lines of a body that are indented further. -/
def shiftedLines (s : Source) (d : Definition) : List Nat :=
  match d.statements.head?, d.statements.getLast? with
  | some head, some last =>
    if d.isEmpty || !s.atLineStart head then []
    else
      (List.range' (Source.firstLine head) (last.stop.line + 1 - Source.firstLine head)).filter fun n =>
        !s.beginsInLiteral n && !s.table.isBlank n
  | _, _ => []

theorem lonePass?_eq_some_iff {t : Tree} :
    d.lonePass? = some t ↔ d.statements = [t] ∧ t.is .passStmt = true := by
  rw [lonePass?]
  split
  · rename_i u hu
    simp only [hu, List.cons.injEq, and_true, Option.ite_none_right_eq_some, Option.some.injEq]
    constructor
    · rintro ⟨h, rfl⟩
      exact ⟨rfl, h⟩
    · rintro ⟨rfl, h⟩
      exact ⟨h, rfl⟩
  · rename_i hne
    constructor
    · intro h
      cases h
    · rintro ⟨h, -⟩
      exact absurd h (hne t)

/-- A body that does nothing has no statements, or a `pass`. -/
theorem isEmpty_iff : d.isEmpty = true ↔ d.statements = [] ∨ ∃ t, d.lonePass? = some t := by
  simp only [lonePass?_eq_some_iff, isEmpty]
  split
  · simp_all
  · rename_i t ht
    simp [ht]
  · rename_i h₁ h₂
    constructor
    · intro h
      cases h
    · rintro (h | ⟨t, h, -⟩)
      · exact absurd h h₁
      · exact absurd h (h₂ t)

theorem mem_shiftedLines_iff {n : Nat} : n ∈ d.shiftedLines s ↔ ∃ head last,
    d.statements.head? = some head ∧ d.statements.getLast? = some last ∧ d.isEmpty = false ∧
      s.atLineStart head = true ∧ Source.firstLine head ≤ n ∧ n ≤ last.stop.line ∧
      s.beginsInLiteral n = false ∧ s.table.isBlank n = false := by
  rw [shiftedLines]
  split
  · rename_i head last hhead hlast
    simp only [hhead, hlast, Option.some.injEq]
    split
    · rename_i h
      simp only [List.not_mem_nil, false_iff]
      rintro ⟨_, _, rfl, rfl, h₁, h₂, -⟩
      simp [h₁, h₂] at h
    · rename_i h
      simp only [Bool.or_eq_true, Bool.not_eq_true', not_or, Bool.not_eq_true, Bool.not_eq_false] at h
      simp only [List.mem_filter, List.mem_range'_1, Bool.and_eq_true, Bool.not_eq_true']
      constructor
      · rintro ⟨⟨h₁, h₂⟩, h₃, h₄⟩
        exact ⟨head, last, rfl, rfl, h.1, h.2, h₁, by omega, h₃, h₄⟩
      · rintro ⟨_, _, rfl, rfl, -, -, h₁, h₂, h₃, h₄⟩
        exact ⟨⟨h₁, by omega⟩, h₃, h₄⟩
  · rename_i hnone
    simp only [List.not_mem_nil, false_iff]
    rintro ⟨head, last, h₁, h₂, -⟩
    exact hnone head last h₁ h₂

end Definition

namespace Instrument

variable {o : Options} {s : Source} {d : Definition} {units : List (List Char)}

/-- The indentation of what is written for a definition whose body begins with `first`. -/
def padding (s : Source) (units : List (List Char)) (d : Definition) (first : Tree) : List Char :=
  units.flatten ++ (bodyIndentation s d.node first).indent

/-- The start of a line that is written for a definition. -/
def newLine (s : Source) (units : List (List Char)) (d : Definition) (first : Tree) : List Char :=
  '\n' :: padding s units d first

/-- A docstring on the header's line is put on a line of its own. -/
def docstringEdits (s : Source) (units : List (List Char)) (d : Definition) (first : Tree) : List Edit :=
  match d.docstring with
  | some doc =>
    if !s.atLineStart first then
      [insertion (s.start doc) (newLine s units d first) (opening units.length)] else []
  | none => []

/-- The statement that tells that a definition is entered. -/
def enterStatement (o : Options) (d : Definition) : List Char :=
  emission (o.entering d.name d.depth)

/-- The statement that tells that a definition is left. -/
def leaveStatement (o : Options) (d : Definition) : List Char :=
  emission (o.leaving d.name d.depth)

/-- The forms that the edits of a definition take. -/
inductive Form (o : Options) (s : Source) (units : List (List Char)) (d : Definition) : Wrapping → Prop
  | nothing : d.body = [] ∨ d.statements = [] ∧ d.docstring = none → Form o s units d ⟨[], []⟩
  | forPass {first t : Tree} : d.body.head? = some first → d.lonePass? = some t →
      Form o s units d ⟨docstringEdits s units d first ++
        [⟨s.start t, s.stop t,
          (if s.atLineStart t then [] else newLine s units d first) ++ enterStatement o d ++
            newLine s units d first ++ leaveStatement o d,
          opening units.length⟩], []⟩
  | afterDocstring {first doc : Tree} : d.body.head? = some first → d.statements = [] →
      d.docstring = some doc →
      Form o s units d ⟨docstringEdits s units d first ++
        [insertion (s.stop doc)
          (newLine s units d first ++ enterStatement o d ++ newLine s units d first ++ leaveStatement o d)
          (opening units.length)], []⟩
  | sameLine {first head last : Tree} : d.body.head? = some first → d.isEmpty = false →
      d.statements.head? = some head → d.statements.getLast? = some last → s.atLineStart head = false →
      Form o s units d ⟨docstringEdits s units d first ++
        [insertion (s.start head)
          (newLine s units d first ++ enterStatement o d ++ newLine s units d first ++ "try:".toList ++
            newLine s units d first ++ (bodyIndentation s d.node first).unit) (opening units.length),
         insertion (s.stop last)
          (newLine s units d first ++ "finally:".toList ++ newLine s units d first ++
            (bodyIndentation s d.node first).unit ++ leaveStatement o d) (closing units.length)], []⟩
  | ownLines {first head last : Tree} : d.body.head? = some first → d.isEmpty = false →
      d.statements.head? = some head → d.statements.getLast? = some last → s.atLineStart head = true →
      Form o s units d ⟨docstringEdits s units d first ++
        insertion (s.table.lineStart (Source.firstLine head))
          (padding s units d first ++ enterStatement o d ++ newLine s units d first ++
            "try:\n".toList) (opening units.length) ::
        (shifts s (bodyIndentation s d.node first).unit (Source.firstLine head) last.stop.line ++
         [insertion (s.table.lineStart (last.stop.line + 1))
          (padding s units d first ++ "finally:".toList ++ newLine s units d first ++
            (bodyIndentation s d.node first).unit ++ leaveStatement o d ++ ['\n']) (closing units.length)]),
        (bodyIndentation s d.node first).unit⟩

/-- The edits of a definition take one of these forms. -/
theorem form_wrapDefinition (o : Options) (s : Source) (units : List (List Char)) (d : Definition) :
    Form o s units d (wrapDefinition o s units d) := by
  rw [wrapDefinition]
  cases hfirst : d.body.head? with
  | none => exact .nothing (Or.inl (List.head?_eq_none_iff.1 hfirst))
  | some first =>
    simp only
    by_cases hempty : d.isEmpty = true
    · rw [if_pos hempty]
      rcases Definition.isEmpty_iff.1 hempty with hnil | ⟨t, ht⟩
      · cases hdoc : d.docstring with
        | none =>
          simp only [hnil]
          exact .nothing (Or.inr ⟨hnil, hdoc⟩)
        | some doc =>
          have hform : Form o s units d _ := .afterDocstring hfirst hnil hdoc
          rw [docstringEdits, hdoc] at hform
          simp only [hnil]
          exact hform
      · simp only [(Definition.lonePass?_eq_some_iff.1 ht).1]
        exact .forPass hfirst ht
    · rw [if_neg hempty]
      have hempty : d.isEmpty = false := by simpa using hempty
      obtain ⟨head, hhead⟩ : ∃ head, d.statements.head? = some head := by
        rw [← Option.isSome_iff_exists, List.isSome_head?]
        intro hnil
        rw [Definition.isEmpty_iff.2 (Or.inl hnil)] at hempty
        cases hempty
      obtain ⟨last, hlast⟩ : ∃ last, d.statements.getLast? = some last := by
        rw [← Option.isSome_iff_exists, List.getLast?_isSome, ← List.isSome_head?, hhead]
        rfl
      simp only [hhead, hlast]
      cases hstart : s.atLineStart head with
      | false => exact .sameLine hfirst hempty hhead hlast hstart
      | true => exact .ownLines hfirst hempty hhead hlast hstart

theorem mem_docstringEdits {first : Tree} {e : Edit} (h : e ∈ docstringEdits s units d first) :
    ∃ doc, d.docstring = some doc ∧ s.atLineStart first = false ∧
      e = insertion (s.start doc) (newLine s units d first) (opening units.length) := by
  rw [docstringEdits] at h
  split at h
  · rename_i doc hdoc
    split at h
    · rename_i hinline
      exact ⟨doc, hdoc, by simpa using hinline, List.mem_singleton.1 h⟩
    · cases h
  · cases h

/-- What the edits of a definition are, at a level of nesting. -/
inductive Wraps (s : Source) (level : Nat) (d : Definition) : Edit → Prop
  | beforeDocstring {doc : Tree} {text : List Char} : d.docstring = some doc →
      d.body.head?.any s.atLineStart = false →
      Wraps s level d (insertion (s.start doc) text (opening level))
  | afterDocstring {doc : Tree} {text : List Char} : d.docstring = some doc → d.statements = [] →
      Wraps s level d (insertion (s.stop doc) text (opening level))
  | forPass {t : Tree} {text : List Char} : d.lonePass? = some t →
      (s.atLineStart t = true → ∃ rest, text = runtime ++ rest) →
      Wraps s level d ⟨s.start t, s.stop t, text, opening level⟩
  | beforeHead {head : Tree} {text : List Char} : d.statements.head? = some head → d.isEmpty = false →
      s.atLineStart head = false →
      Wraps s level d (insertion (s.start head) text (opening level))
  | afterLast {last : Tree} {text : List Char} : d.statements.getLast? = some last →
      Wraps s level d (insertion (s.stop last) text (closing level))
  | aboveHead {head : Tree} {text : List Char} : d.statements.head? = some head → d.isEmpty = false →
      s.atLineStart head = true →
      Wraps s level d
        (insertion (s.table.lineStart (Source.firstLine head)) (text ++ ['\n']) (opening level))
  | shift {n : Nat} {unit : List Char} : n ∈ d.shiftedLines s →
      Wraps s level d (insertion (s.table.shiftPoint n) unit shifting)
  | belowLast {last : Tree} {text : List Char} : d.statements.getLast? = some last →
      Wraps s level d
        (insertion (s.table.lineStart (last.stop.line + 1)) (text ++ ['\n']) (closing level))

/-- There are no other edits for a definition. -/
theorem wraps_of_mem {e : Edit} (h : e ∈ (wrapDefinition o s units d).edits) :
    Wraps s units.length d e := by
  have hdoc {first : Tree} (hfirst : d.body.head? = some first)
      (he : e ∈ docstringEdits s units d first) : Wraps s units.length d e := by
    obtain ⟨doc, hdoc, hinline, rfl⟩ := mem_docstringEdits he
    exact .beforeDocstring hdoc (by rw [hfirst, Option.any_some, hinline])
  have hform := form_wrapDefinition o s units d
  generalize wrapDefinition o s units d = w at h hform
  cases hform with
  | nothing _ => cases h
  | forPass hfirst ht =>
    rcases List.mem_append.1 h with h | h
    · exact hdoc hfirst h
    · obtain rfl := List.mem_singleton.1 h
      refine .forPass ht fun hstart => ?_
      rw [if_pos hstart, List.nil_append, enterStatement, emission]
      simp only [List.append_assoc]
      exact ⟨_, rfl⟩
  | afterDocstring hfirst hnil hd =>
    rcases List.mem_append.1 h with h | h
    · exact hdoc hfirst h
    · obtain rfl := List.mem_singleton.1 h
      exact .afterDocstring hd hnil
  | sameLine hfirst hempty hhead hlast hstart =>
    rcases List.mem_append.1 h with h | h
    · exact hdoc hfirst h
    · rcases List.mem_pair.1 h with rfl | rfl
      · exact .beforeHead hhead hempty hstart
      · exact .afterLast hlast
  | ownLines hfirst hempty hhead hlast hstart =>
    rcases List.mem_append.1 h with h | h
    · exact hdoc hfirst h
    rcases List.mem_cons.1 h with rfl | h
    · rw [show "try:\n".toList = "try:".toList ++ ['\n'] from rfl, ← List.append_assoc]
      exact .aboveHead hhead hempty hstart
    rcases List.mem_append.1 h with h | h
    · obtain ⟨n, hn, rfl⟩ := List.mem_map.1 h
      refine .shift ?_
      rw [Definition.shiftedLines, hhead, hlast]
      simpa [hempty, hstart] using hn
    · obtain rfl := List.mem_singleton.1 h
      exact .belowLast hlast

/-- A `pass` that is all a body does is replaced, and no more is done than that the docstring is moved
to a line of its own. -/
theorem edits_eq_of_lonePass (units : List (List Char)) {t : Tree} (h : d.lonePass? = some t) (hd : d.body ≠ []) :
    ∃ docs text, (wrapDefinition o s units d).edits =
        docs ++ [⟨s.start t, s.stop t, text, opening units.length⟩] ∧
      ∀ e ∈ docs, ∃ doc text, d.docstring = some doc ∧
        e = insertion (s.start doc) text (opening units.length) := by
  have hone := (Definition.lonePass?_eq_some_iff.1 h).1
  have hempty : d.isEmpty = true := Definition.isEmpty_iff.2 (Or.inr ⟨t, h⟩)
  have hform := form_wrapDefinition o s units d
  generalize wrapDefinition o s units d = w at hform
  cases hform with
  | nothing hnone =>
    rcases hnone with hnil | ⟨hnil, -⟩
    · exact absurd hnil hd
    · rw [hnil] at hone
      cases hone
  | forPass _ ht =>
    obtain rfl := Option.some.inj (h.symm.trans ht)
    refine ⟨_, _, rfl, fun e he => ?_⟩
    obtain ⟨doc, hdoc, -, rfl⟩ := mem_docstringEdits he
    exact ⟨doc, _, hdoc, rfl⟩
  | afterDocstring _ hnil _ =>
    rw [hnil] at hone
    cases hone
  | sameLine _ hnot _ _ _ =>
    rw [hempty] at hnot
    cases hnot
  | ownLines _ hnot _ _ _ =>
    rw [hempty] at hnot
    cases hnot

/-- A line of a body that is to be indented gets the indentation. -/
theorem exists_shift (units : List (List Char)) {n : Nat} (h : n ∈ d.shiftedLines s)
    (hd : d.body ≠ []) : ∃ unit,
    insertion (s.table.shiftPoint n) unit shifting ∈ (wrapDefinition o s units d).edits := by
  obtain ⟨head, last, hhead, hlast, hempty, hstart, -⟩ := Definition.mem_shiftedLines_iff.1 h
  have hne : d.statements ≠ [] := by
    rintro hnil
    rw [hnil] at hhead
    cases hhead
  have hform := form_wrapDefinition o s units d
  generalize wrapDefinition o s units d = w at hform
  cases hform with
  | nothing hnone => exact absurd hnone (by tauto)
  | forPass _ ht =>
    rw [Definition.isEmpty_iff.2 (Or.inr ⟨_, ht⟩)] at hempty
    cases hempty
  | afterDocstring _ hnil _ => exact absurd hnil hne
  | sameLine _ _ hhead' _ hstart' =>
    obtain rfl := Option.some.inj (hhead.symm.trans hhead')
    rw [hstart] at hstart'
    cases hstart'
  | @ownLines first head' last' _ _ hhead' hlast' _ =>
    obtain rfl := Option.some.inj (hhead.symm.trans hhead')
    obtain rfl := Option.some.inj (hlast.symm.trans hlast')
    rw [Definition.shiftedLines, hhead, hlast] at h
    simp only [hempty, hstart, Bool.not_true, Bool.or_false, Bool.false_eq_true, if_false] at h
    exact ⟨_, List.mem_append_right _
      (List.mem_cons_of_mem _ (List.mem_append_left _ (List.mem_map.2 ⟨n, h, rfl⟩)))⟩

/-- What the edits of a function are. -/
inductive Site.Wraps (s : Source) (depth : Int) (site : Site) : Edit → Prop
  | definition {d : Definition} {e : Edit} :
      Function.classify s site.above site.tree depth = .definition d →
      Instrument.Wraps s site.units.length d e → Site.Wraps s depth site e
  | beforeBody {l : BoundLambda} {text : List Char} :
      Function.classify s site.above site.tree depth = .lambda l →
      Site.Wraps s depth site (insertion (s.start l.body) text (opening site.units.length))
  | afterBody {l : BoundLambda} {text : List Char} :
      Function.classify s site.above site.tree depth = .lambda l →
      Site.Wraps s depth site (insertion (s.stop l.body) text (closing site.units.length))

theorem Site.wraps_of_mem {site : Site} {depth : Int} {e : Edit} (h : e ∈ site.edits o s depth) :
    site.Wraps s depth e := by
  rw [Site.edits] at h
  cases hc : Function.classify s site.above site.tree depth with
  | definition d =>
    rw [hc] at h
    exact .definition hc (Instrument.wraps_of_mem h)
  | lambda l =>
    rw [hc] at h
    rcases List.mem_pair.1 h with rfl | rfl
    · exact .beforeBody hc
    · exact .afterBody hc
  | unmatched =>
    rw [hc] at h
    cases h

/-- Every edit that a pass records is one of a function in the tree. -/
theorem exists_wraps {e : Edit} (h : e ∈ (pass o s).edits) : ∃ (site : Site) (depth : Int),
    Under [] s.tree site.above site.tree ∧ site.Wraps s depth e := by
  obtain ⟨site, hsite, depth, he⟩ := exists_site h
  exact ⟨site, depth, under_of_mem_sites hsite, Site.wraps_of_mem he⟩

/-- An edit only inserts, or it replaces a `pass`. -/
theorem Site.Wraps.insertion_or_pass {site : Site} {depth : Int} {e : Edit} (h : site.Wraps s depth e) :
    e.start = e.stop ∨ ∃ d t text, Function.classify s site.above site.tree depth = .definition d ∧
      d.lonePass? = some t ∧ e = ⟨s.start t, s.stop t, text, opening site.units.length⟩ := by
  cases h with
  | definition hd hw =>
    cases hw with
    | forPass ht => exact Or.inr ⟨_, _, _, hd, ht, rfl⟩
    | _ => exact Or.inl rfl
  | beforeBody _ => exact Or.inl rfl
  | afterBody _ => exact Or.inl rfl

/-- A text that can be parsed is given back, or edited. -/
theorem rewrite_eq {text : List Char} (hs : Source.parse (Text.terminated text) = .ok s) :
    rewrite o text = if (pass o s).edits.isEmpty then .ok text
      else (Edit.apply (Text.terminated text) (pass o s).edits).mapError .overlap := by
  rw [rewrite, instrument, hs]
  simp only
  split <;> rfl

/-- A docstring with a statement after it on its line, and another statement on the line below. -/
def sharedLine : List Char := "def f():\n    \"doc\"; x = 1\n    y = 2\n".toList

/-- A program that is instrumented to a text that is no program: the statement on the docstring's line
goes under `try`, but the line below is not indented. -/
theorem rewrite_sharedLine : (∃ s, Source.parse (Text.terminated sharedLine) = .ok s) ∧
    ∃ out, rewrite {} sharedLine = .ok out ∧ Source.parse out = .error .invalid := by
  have hparse : (Source.parse (Text.terminated sharedLine)).isOk = true := by decide +kernel
  have hrewrite : ((rewrite {} sharedLine).toOption.any fun out =>
      ((Source.parse out).map fun _ => ()) = .error .invalid) = true := by
    decide +kernel
  constructor
  · cases hs : Source.parse (Text.terminated sharedLine) with
    | ok s => exact ⟨s, rfl⟩
    | error e =>
      rw [hs] at hparse
      cases hparse
  · cases hout : rewrite {} sharedLine with
    | error e =>
      rw [hout] at hrewrite
      cases hrewrite
    | ok out =>
      simp only [hout, Except.toOption, Option.any_some, decide_eq_true_eq] at hrewrite
      refine ⟨out, rfl, ?_⟩
      cases hs : Source.parse out with
      | ok s =>
        rw [hs] at hrewrite
        cases hrewrite
      | error e =>
        rw [hs] at hrewrite
        rw [Except.error.inj hrewrite]

theorem start_nonneg {e : Edit} (h : e ∈ (pass o s).edits) : 0 ≤ e.start := by
  obtain ⟨site, depth, -, hw⟩ := exists_wraps h
  cases hw with
  | definition _ hw => cases hw <;> exact Int.natCast_nonneg _
  | beforeBody _ => exact Int.natCast_nonneg _
  | afterBody _ => exact Int.natCast_nonneg _

end Instrument

end CallTrace
