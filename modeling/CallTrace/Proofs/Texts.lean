import Mathlib
import CallTrace.Proofs.Bodies
import CallTrace.Proofs.Wrapping

/-!
# The texts of edits

What a pass inserts is made of indentation, fixed words and quoted trace lines.  Indentation is made
of spaces and tabs (`isPad_padding`), and a quoted text stands on one line (`le_toNat_quote`).

So the edits of a function quote its two trace lines, each once (`quotes_wrapDefinition`,
`quotes_wrapLambda`), and each inserts something, without carriage returns, and more than it removes
(`inserts_of_mem`).
-/

namespace CallTrace

open Syntax Instrument Text

namespace Text

/-! ## Quoted texts -/

theorem le_toNat_hexPadded (count n : Nat) : ∀ c ∈ hexPadded count n, 32 ≤ c.toNat := by
  have digit : ∀ m ∈ List.range 16, 32 ≤ (hexDigit m).toNat := by decide
  induction count generalizing n with
  | zero => simp [hexPadded]
  | succ count ih =>
    intro c hc
    rcases List.mem_append.1 hc with hc | hc
    · exact ih _ c hc
    · rw [List.mem_singleton.1 hc]
      exact digit _ (List.mem_range.2 (Nat.mod_lt n (by decide)))

theorem le_toNat_numberEscape (n : Nat) : ∀ c ∈ numberEscape n, 32 ≤ c.toNat := by
  have escape (letter : Char) (count : Nat) (h : 32 ≤ letter.toNat) :
      ∀ c ∈ '\\' :: letter :: hexPadded count n, 32 ≤ c.toNat :=
    List.forall_mem_cons.2 ⟨by decide, List.forall_mem_cons.2 ⟨h, le_toNat_hexPadded count n⟩⟩
  rw [numberEscape]
  split
  · exact escape 'x' 2 (by decide)
  split
  · exact escape 'u' 4 (by decide)
  · exact escape 'U' 8 (by decide)

theorem le_toNat_quoteChar {mark : Char} (hm : 32 ≤ mark.toNat) (x : Char) :
    ∀ c ∈ quoteChar mark x, 32 ≤ c.toNat := by
  have pair {c : Char} (h : 32 ≤ c.toNat) : ∀ d ∈ ['\\', c], 32 ≤ d.toNat := by
    simpa using h
  rw [quoteChar]
  split
  · rename_i h
    rcases h with rfl | rfl
    · exact pair hm
    · exact pair (by decide)
  split
  · exact pair (by decide)
  split
  · exact pair (by decide)
  split
  · exact pair (by decide)
  split
  · rename_i hprintable
    simp only [List.mem_singleton, forall_eq]
    rw [Unicode.isPrintable] at hprintable
    split at hprintable
    · simp only [Bool.and_eq_true, decide_eq_true_eq] at hprintable
      exact hprintable.1
    · omega
  · exact le_toNat_numberEscape x.toNat

/-- A quoted text holds no control characters, so it stands on one line. -/
theorem le_toNat_quote (text : List Char) : ∀ c ∈ quote text, 32 ≤ c.toNat := by
  have hmark : 32 ≤ (quoteMark text).toNat := by
    rw [quoteMark]
    split <;> decide
  refine List.forall_mem_cons.2 ⟨hmark, List.forall_mem_append.2 ⟨fun c hc => ?_, by simpa using hmark⟩⟩
  obtain ⟨x, -, hx⟩ := List.mem_flatMap.1 hc
  exact le_toNat_quoteChar hmark x c hx

end Text

namespace Instrument

variable {o : Options} {s : Source} {d : Definition} {units : List (List Char)} {first : Tree}

/-! ## Indentation -/

/-- A text of spaces and tabs. -/
def IsPad (text : List Char) : Prop :=
  ∀ c ∈ text, c = ' ' ∨ c = '\t'

theorem isPad_indentOf (t : LineTable) (n : Nat) : IsPad (t.indentOf n) := by
  intro c hc
  obtain ⟨hc, hne⟩ := List.mem_filter.1 hc
  have := List.mem_takeWhile_imp hc
  simp only [Bool.or_eq_true, decide_eq_true_eq] at this hne
  exact this.resolve_right hne

theorem isPad_usualUnit (indent : List Char) : IsPad (usualUnit indent) := by
  rw [IsPad, usualUnit]
  split <;> simp

theorem usualUnit_ne_nil (indent : List Char) : usualUnit indent ≠ [] := by
  rw [usualUnit]
  split <;> simp

theorem isPad_bodyIndentation (s : Source) (node first : Tree) :
    IsPad (bodyIndentation s node first).indent ∧ IsPad (bodyIndentation s node first).unit ∧
      (bodyIndentation s node first).unit ≠ [] := by
  simp only [bodyIndentation]
  split
  · exact ⟨List.forall_mem_append.2 ⟨isPad_indentOf _ _, isPad_usualUnit _⟩, isPad_usualUnit _,
      usualUnit_ne_nil _⟩
  split
  · rename_i h
    simp only [Bool.and_eq_true, decide_eq_true_eq] at h
    refine ⟨isPad_indentOf _ _, fun c hc => isPad_indentOf _ _ c (List.mem_of_mem_drop hc), ?_⟩
    exact List.ne_nil_of_length_pos (by rw [List.length_drop]; omega)
  · exact ⟨isPad_indentOf _ _, isPad_usualUnit _, usualUnit_ne_nil _⟩

theorem isPad_padding (hu : ∀ u ∈ units, IsPad u) (d : Definition) (first : Tree) :
    IsPad (padding s units d first) := by
  refine List.forall_mem_append.2 ⟨fun c hc => ?_, (isPad_bodyIndentation s d.node first).1⟩
  obtain ⟨u, hmem, hc⟩ := List.mem_flatten.1 hc
  exact hu u hmem c hc

theorem isPad_unit (o : Options) (s : Source) (units : List (List Char)) (d : Definition) :
    IsPad (wrapDefinition o s units d).unit := by
  have hform := form_wrapDefinition o s units d
  generalize wrapDefinition o s units d = w at hform
  cases hform with
  | ownLines _ _ _ _ _ => exact (isPad_bodyIndentation _ _ _).2.1
  | _ => exact fun _ hc => absurd hc List.not_mem_nil

mutual

/-- Bodies are shifted by spaces and tabs. -/
theorem isPad_units : ∀ (t : Tree) {above : List Tree} {units : List (List Char)},
    (∀ u ∈ units, IsPad u) → ∀ x ∈ sites o s above units t, ∀ u ∈ x.units, IsPad u
  | .leaf r v, above, units, _, x, hx => by
    rw [sites] at hx
    cases hx
  | .node r k span ts, above, units, hu, x, hx => by
    have hin {units : List (List Char)} {part : Part} (hu : ∀ u ∈ units, IsPad u)
        (hx : x ∈ sitesIn o s (.node r k span ts :: above) units part ts) : ∀ u ∈ x.units, IsPad u :=
      isPad_unitsIn ts hu x hx
    simp only [sites] at hx
    split at hx
    · rename_i d _
      rcases List.mem_append.1 hx with hx | hx
      · exact hin hu hx
      rcases List.mem_cons.1 hx with rfl | hx
      · exact hu
      · exact hin (List.forall_mem_append.2 ⟨hu, by simpa using isPad_unit o s units d⟩) hx
    · split at hx
      · rcases List.mem_append.1 hx with hx | hx
        · exact hin hu hx
        rcases List.mem_cons.1 hx with rfl | hx
        · exact hu
        · exact hin (List.forall_mem_append.2 ⟨hu, by simp [IsPad]⟩) hx
      · exact hin hu hx
    · exact hin hu hx

theorem isPad_unitsIn : ∀ (ts : List Tree) {above : List Tree} {units : List (List Char)} {part : Part},
    (∀ u ∈ units, IsPad u) → ∀ x ∈ sitesIn o s above units part ts, ∀ u ∈ x.units, IsPad u
  | [], above, units, part, _, x, hx => by
    rw [sitesIn] at hx
    cases hx
  | t :: ts, above, units, part, hu, x, hx => by
    rw [sitesIn] at hx
    rcases List.mem_append.1 hx with hx | hx
    · split at hx
      · exact isPad_units t hu x hx
      · cases hx
    · exact isPad_unitsIn ts hu x hx

end

/-! ## Trace lines -/

/-- A text in which neither `Entering` nor `Leaving` begins. -/
def IsSilent (text : List Char) : Prop :=
  'E' ∉ text ∧ 'L' ∉ text

instance (text : List Char) : Decidable (IsSilent text) :=
  inferInstanceAs (Decidable ('E' ∉ text ∧ 'L' ∉ text))

/-- The text quotes the lines, one after the other and each once, and is silent around them. -/
def Quotes : List (List Char) → List Char → Prop
  | [], text => IsSilent text
  | line :: lines, text => ∃ front back, text = front ++ quote line ++ back ∧ IsSilent front ∧
      Quotes lines back

theorem IsSilent.append {front back : List Char} (hf : IsSilent front) (hb : IsSilent back) :
    IsSilent (front ++ back) :=
  ⟨fun h => (List.mem_append.1 h).elim hf.1 hb.1, fun h => (List.mem_append.1 h).elim hf.2 hb.2⟩

theorem IsPad.isSilent {text : List Char} (h : IsPad text) : IsSilent text := by
  constructor
  · intro hm
    rcases h _ hm with h | h <;> cases h
  · intro hm
    rcases h _ hm with h | h <;> cases h

theorem IsSilent.quotes {front text : List Char} {lines : List (List Char)} (hf : IsSilent front)
    (h : Quotes lines text) : Quotes lines (front ++ text) := by
  cases lines with
  | nil => exact hf.append h
  | cons line lines =>
    obtain ⟨before, after, rfl, hb, ha⟩ := h
    exact ⟨front ++ before, after, by simp, hf.append hb, ha⟩

theorem quotes_quote {line text : List Char} {lines : List (List Char)} (h : Quotes lines text) :
    Quotes (line :: lines) (quote line ++ text) :=
  ⟨[], text, rfl, by simp [IsSilent], h⟩

/-- The statement that writes a trace line quotes it. -/
theorem quotes_emission {line text : List Char} {lines : List (List Char)} (h : Quotes lines text) :
    Quotes (line :: lines) (emission line ++ text) := by
  have hfront : IsSilent (runtime ++ ".emit(".toList) := by decide
  have hclose : IsSilent [')'] := by decide
  rw [emission, List.append_assoc, List.append_assoc]
  exact hfront.quotes (quotes_quote (hclose.quotes h))

theorem quotes_emission_last (line : List Char) : Quotes [line] (emission line) := by
  have h : Quotes [line] (emission line ++ []) :=
    quotes_emission ⟨List.not_mem_nil, List.not_mem_nil⟩
  rwa [List.append_nil] at h

theorem isSilent_newLine (hu : ∀ u ∈ units, IsPad u) : IsSilent (newLine s units d first) := by
  have hbreak : IsSilent ['\n'] := by decide
  exact hbreak.append (isPad_padding hu d first).isSilent

/-- The texts that are inserted by edits, in the order of the edits. -/
def inserted (edits : List Edit) : List Char :=
  edits.flatMap Edit.text

theorem isSilent_docstringEdits (hu : ∀ u ∈ units, IsPad u) :
    IsSilent (inserted (docstringEdits s units d first)) := by
  rw [docstringEdits]
  split
  · split
    · simpa [inserted, insertion] using isSilent_newLine hu
    · exact ⟨List.not_mem_nil, List.not_mem_nil⟩
  · exact ⟨List.not_mem_nil, List.not_mem_nil⟩

theorem isSilent_shifts {unit : List Char} (hu : IsPad unit) (start stop : Nat) :
    IsSilent (inserted (shifts s unit start stop)) := by
  refine IsPad.isSilent fun c hc => ?_
  obtain ⟨e, he, hc⟩ := List.mem_flatMap.1 hc
  obtain ⟨n, -, rfl⟩ := List.mem_map.1 he
  exact hu c hc

/-- What is inserted for a definition tells once that it is entered, and then once that it is left. -/
theorem quotes_wrapDefinition (o : Options) (s : Source) (hu : ∀ u ∈ units, IsPad u) (d : Definition)
    (hd : d.body ≠ []) (hparts : d.body = d.docstring.toList ++ d.statements) :
    Quotes [o.entering d.name d.depth, o.leaving d.name d.depth]
      (inserted (wrapDefinition o s units d).edits) := by
  have hsilent {first : Tree} : IsSilent (newLine s units d first) := isSilent_newLine hu
  have hdocs {first : Tree} : IsSilent (inserted (docstringEdits s units d first)) :=
    isSilent_docstringEdits hu
  have hunit {first : Tree} := (isPad_bodyIndentation s d.node first).2.1
  have hnone : IsSilent [] := ⟨List.not_mem_nil, List.not_mem_nil⟩
  have hpad {first : Tree} : IsSilent (padding s units d first) := (isPad_padding hu d first).isSilent
  have htry : IsSilent "try:".toList := by decide
  have htryLine : IsSilent "try:\n".toList := by decide
  have hfinally : IsSilent "finally:".toList := by decide
  have hbreak : IsSilent ['\n'] := by decide
  have hform := form_wrapDefinition o s units d
  generalize wrapDefinition o s units d = w at hform
  cases hform with
  | nothing hnothing =>
    rcases hnothing with h | ⟨h₁, h₂⟩
    · exact absurd h hd
    · rw [h₁, h₂] at hparts
      exact absurd hparts hd
  | forPass _ _ =>
    simp only [inserted, List.flatMap_append, List.flatMap_singleton, List.append_assoc]
    refine hdocs.quotes (IsSilent.quotes ?_ ?_)
    · split
      · exact hnone
      · exact hsilent
    · exact quotes_emission (hsilent.quotes (quotes_emission_last _))
  | afterDocstring _ _ _ =>
    simp only [inserted, insertion, List.flatMap_append, List.flatMap_singleton, List.append_assoc]
    exact hdocs.quotes (hsilent.quotes (quotes_emission (hsilent.quotes (quotes_emission_last _))))
  | sameLine _ _ _ _ _ =>
    simp only [inserted, insertion, List.flatMap_append, List.flatMap_cons, List.flatMap_nil,
      List.append_nil, List.append_assoc]
    refine hdocs.quotes (hsilent.quotes (quotes_emission ?_))
    refine hsilent.quotes (htry.quotes (hsilent.quotes (hunit.isSilent.quotes ?_)))
    refine hsilent.quotes (hfinally.quotes (hsilent.quotes (hunit.isSilent.quotes ?_)))
    exact quotes_emission_last _
  | ownLines _ _ _ _ _ =>
    simp only [inserted, insertion, List.flatMap_append, List.flatMap_cons, List.flatMap_nil,
      List.append_nil, List.append_assoc]
    refine hdocs.quotes (hpad.quotes (quotes_emission ?_))
    refine hsilent.quotes (htryLine.quotes ((isSilent_shifts hunit _ _).quotes ?_))
    refine hpad.quotes (hfinally.quotes (hsilent.quotes (hunit.isSilent.quotes ?_)))
    exact quotes_emission hbreak

/-- What is inserted for a lambda tells once that it is left, and then once that it is entered. -/
theorem quotes_wrapLambda (o : Options) (s : Source) (units : List (List Char)) (l : BoundLambda) :
    Quotes [o.leaving l.name l.depth, o.entering l.name l.depth]
      (inserted (wrapLambda o s units l)) := by
  have hthrough : IsSilent (runtime ++ ".emit_through(".toList) := by decide
  have hemit : IsSilent (", (".toList ++ (runtime ++ ".emit(".toList)) := by decide
  have hrest : Quotes [] ("), (".toList ++ "))[1])".toList) := by
    rw [Quotes]
    decide
  have h : Quotes [o.leaving l.name l.depth, o.entering l.name l.depth] _ :=
    hthrough.quotes (quotes_quote (hemit.quotes (quotes_quote hrest)))
  simp only [inserted, wrapLambda, insertion, List.flatMap_cons, List.flatMap_nil, List.append_nil,
    List.append_assoc] at h ⊢
  exact h

/-- What is inserted tells once that a function is entered and once that it is left. -/
def TellsOnce (o : Options) (name : List Char) (depth : Int) (text : List Char) : Prop :=
  Quotes [o.entering name depth, o.leaving name depth] text ∨
    Quotes [o.leaving name depth, o.entering name depth] text

theorem TellsOnce.ne_nil {name text : List Char} {depth : Int} (h : TellsOnce o name depth text) :
    text ≠ [] := by
  rintro rfl
  rcases h with ⟨front, back, h, -⟩ | ⟨front, back, h, -⟩ <;> simp [quote] at h

/-! ## What every edit inserts -/

theorem IsPad.not_mem {text : List Char} (h : IsPad text) : '\r' ∉ text := by
  intro hm
  rcases h _ hm with h | h <;> cases h

theorem not_mem_quote (line : List Char) : '\r' ∉ quote line := by
  intro hm
  have := le_toNat_quote line _ hm
  revert this
  decide

theorem not_mem_emission (line : List Char) : '\r' ∉ emission line := by
  have hfront : '\r' ∉ runtime ++ ".emit(".toList := by decide
  rw [emission, List.mem_append, List.mem_append]
  rintro ((h | h) | h)
  · exact hfront h
  · exact not_mem_quote line h
  · simp at h

theorem lt_length_emission (line : List Char) : 4 < (emission line).length := by
  have : 4 < runtime.length := by decide
  rw [emission, List.length_append, List.length_append, List.length_append]
  omega

/-- An edit inserts something, without carriage returns; what replaces a text is longer than four
characters. -/
structure Inserts (e : Edit) : Prop where
  ne_nil : e.text ≠ []
  not_mem : '\r' ∉ e.text
  lt_length : e.start = e.stop ∨ 4 < e.text.length

theorem inserts_insertion {offset : Nat} {text : List Char} {order : List Int} (hne : text ≠ [])
    (h : '\r' ∉ text) : Inserts (insertion offset text order) :=
  ⟨hne, h, Or.inl rfl⟩

theorem inserts_of_mem_wrapDefinition (hu : ∀ u ∈ units, IsPad u) {e : Edit}
    (h : e ∈ (wrapDefinition o s units d).edits) : Inserts e := by
  have hpad {first : Tree} : '\r' ∉ padding s units d first := (isPad_padding hu d first).not_mem
  have hline {first : Tree} : '\r' ∉ newLine s units d first := by
    rw [newLine, List.mem_cons]
    rintro (h | h)
    · cases h
    · exact hpad h
  have hunit {first : Tree} := (isPad_bodyIndentation s d.node first).2.1.not_mem
  have henter : '\r' ∉ enterStatement o d := not_mem_emission _
  have hleave : '\r' ∉ leaveStatement o d := not_mem_emission _
  have hlength : 4 < (enterStatement o d).length := lt_length_emission _
  have hdocs {first : Tree} (h : e ∈ docstringEdits s units d first) : Inserts e := by
    obtain ⟨doc, -, -, rfl⟩ := mem_docstringEdits h
    exact inserts_insertion (List.cons_ne_nil _ _) hline
  have hform := form_wrapDefinition o s units d
  generalize wrapDefinition o s units d = w at h hform
  cases hform with
  | nothing _ => cases h
  | forPass _ _ =>
    rcases List.mem_append.1 h with h | h
    · exact hdocs h
    obtain rfl := List.mem_singleton.1 h
    refine ⟨?_, ?_, Or.inr ?_⟩
    · simp [newLine]
    · split <;> simp [hline, henter, hleave]
    · simp only [List.length_append]
      omega
  | afterDocstring _ _ _ =>
    rcases List.mem_append.1 h with h | h
    · exact hdocs h
    obtain rfl := List.mem_singleton.1 h
    exact inserts_insertion (by simp [newLine]) (by simp [hline, henter, hleave])
  | sameLine _ _ _ _ _ =>
    rcases List.mem_append.1 h with h | h
    · exact hdocs h
    rcases List.mem_pair.1 h with rfl | rfl
    · exact inserts_insertion (by simp [newLine]) (by simp [hline, henter, hunit])
    · exact inserts_insertion (by simp [newLine]) (by simp [hline, hleave, hunit])
  | ownLines _ _ _ _ _ =>
    rcases List.mem_append.1 h with h | h
    · exact hdocs h
    rcases List.mem_cons.1 h with rfl | h
    · exact inserts_insertion (by simp [newLine]) (by simp [hpad, hline, henter])
    rcases List.mem_append.1 h with h | h
    · obtain ⟨n, -, rfl⟩ := List.mem_map.1 h
      exact inserts_insertion (isPad_bodyIndentation _ _ _).2.2 hunit
    · obtain rfl := List.mem_singleton.1 h
      exact inserts_insertion (by simp) (by simp [hpad, hline, hleave, hunit])

theorem inserts_of_mem_wrapLambda {l : BoundLambda} {e : Edit} (h : e ∈ wrapLambda o s units l) :
    Inserts e := by
  have hquote := not_mem_quote
  have hruntime : '\r' ∉ runtime := by decide
  rcases List.mem_pair.1 h with rfl | rfl
  · exact inserts_insertion (by simp) (by simp [hruntime, hquote])
  · exact inserts_insertion (by simp) (by simp)

/-- Every edit of a pass inserts something. -/
theorem inserts_of_mem {e : Edit} (h : e ∈ (pass o s).edits) : Inserts e := by
  obtain ⟨x, hx, depth, he⟩ := exists_site h
  rw [Site.edits] at he
  cases hc : Function.classify s x.above x.tree depth with
  | definition d =>
    rw [hc] at he
    exact inserts_of_mem_wrapDefinition (isPad_units s.tree (by simp) x hx) he
  | lambda l =>
    rw [hc] at he
    exact inserts_of_mem_wrapLambda he
  | unmatched =>
    rw [hc] at he
    cases he

end Instrument

end CallTrace
