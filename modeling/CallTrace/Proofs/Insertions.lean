import Mathlib
import CallTrace.Proofs.Gaps
import CallTrace.Proofs.Quoting
import CallTrace.Proofs.Texts

/-!
# What is inserted, read again

The lines that are inserted for a definition are indentation with a statement behind it, or with nothing
(`isStatements_of_mem`), and what is inserted for a lambda stands on one line (`isCode_wrapLambda`).  The
statements that write trace lines, and what stands around the body of a lambda, are read as calls of the
functions of the runtime, whatever comes behind them (`isCode_emission`, `isCode_wrapLambda`); their only
string literals are the name of a module and the trace lines in quotes.

So the trace lines come back from what is inserted (`inserted_reads`).
-/

namespace CallTrace

open Syntax Text

/-! ## Reading code -/

namespace Syntax

/-- The lexemes that a text begins with, with nothing but blanks between them, and what is left. -/
inductive Reads : List Lexeme → List Char → List Char → Prop
  | nil (rest : List Char) : Reads [] rest rest
  | blank {lexemes : List Lexeme} {c : Char} {text rest : List Char} : isSpace c = true →
      Reads lexemes text rest → Reads lexemes (c :: text) rest
  | lexeme {lexemes : List Lexeme} {l : Lexeme} {text spelling left rest : List Char} :
      scanLexeme text = some (l, spelling, left) → Reads lexemes left rest → Reads (l :: lexemes) text rest

/-- A text on one line that is read as the lexemes, whatever comes behind it. -/
structure IsCode (lexemes : List Lexeme) (text : List Char) : Prop where
  oneLine : ∀ c ∈ text, isLineEnd c = false
  reads : ∀ rest, Reads lexemes (text ++ rest) rest

theorem Reads.append {lexemes others : List Lexeme} {text left rest : List Char}
    (h : Reads lexemes text left) (hleft : Reads others left rest) : Reads (lexemes ++ others) text rest := by
  induction h with
  | nil rest => exact hleft
  | blank hspace _ ih => exact .blank hspace (ih hleft)
  | lexeme hscan _ ih => exact .lexeme hscan (ih hleft)

theorem IsCode.append {lexemes others : List Lexeme} {front back : List Char} (hf : IsCode lexemes front)
    (hb : IsCode others back) : IsCode (lexemes ++ others) (front ++ back) := by
  refine ⟨List.forall_mem_append.2 ⟨hf.oneLine, hb.oneLine⟩, fun rest => ?_⟩
  rw [List.append_assoc]
  exact (hf.reads _).append (hb.reads rest)

theorem isLineEnd_of_any {text : List Char} (h : text.any isLineEnd = false) :
    ∀ c ∈ text, isLineEnd c = false := by
  simpa using h

theorem isLineEnd_of_mem_quote {text : List Char} : ∀ c ∈ quote text, isLineEnd c = false := by
  intro c hc
  have hle := le_toNat_quote text c hc
  rw [isLineEnd, Bool.or_eq_false_iff, decide_eq_false_iff_not, decide_eq_false_iff_not]
  constructor <;> rintro rfl <;> revert hle <;> decide

theorem isCode_quote {text : List Char} (hne : text ≠ []) : IsCode [.string (quote text)] (quote text) :=
  ⟨isLineEnd_of_mem_quote, fun rest => .lexeme (scanLexeme_quote hne rest) (.nil rest)⟩

end Syntax

namespace Instrument

/-! ## Calls of the runtime -/

/-- The lexemes of a call of a function of the runtime, up to its arguments. -/
def callLexemes (function : List Char) : List Lexeme :=
  [.name "__import__".toList, .sign .leftParen, .string (quote "tracehook.runtime".toList),
   .sign .rightParen, .sign .dot, .name "runtime".toList, .sign .dot, .name function, .sign .leftParen]

/-- The lexemes of the statement that writes a trace line. -/
def emissionLexemes (line : List Char) : List Lexeme :=
  callLexemes "emit".toList ++ [.string (quote line), .sign .rightParen]

/-- The lexemes in front of the body of a lambda. -/
def openingLexemes (entering leaving : List Char) : List Lexeme :=
  callLexemes "emit_through".toList ++ [.string (quote leaving), .sign .comma, .sign .leftParen] ++
    emissionLexemes entering ++ [.sign .comma, .sign .leftParen]

/-- The lexemes behind the body of a lambda. -/
def closingLexemes : List Lexeme :=
  [.sign .rightParen, .sign .rightParen, .sign .leftBracket, .number (.integer 1), .sign .rightBracket,
   .sign .rightParen]

/-- A call of a function of the runtime, up to its arguments. -/
theorem isCode_call {function : List Char} (h : function ∈ ["emit".toList, "emit_through".toList]) :
    IsCode (callLexemes function) (runtime ++ '.' :: (function ++ ['('])) := by
  rcases List.mem_pair.1 h with rfl | rfl
  all_goals
    refine ⟨isLineEnd_of_any (by decide), fun rest => ?_⟩
    repeat refine .lexeme rfl ?_
    exact .nil rest

theorem isCode_emission {line : List Char} (hne : line ≠ []) : IsCode (emissionLexemes line) (emission line) := by
  have hclose : IsCode [.sign .rightParen] [')'] :=
    ⟨isLineEnd_of_any (by decide), fun rest => .lexeme rfl (.nil rest)⟩
  have hcall : IsCode (callLexemes "emit".toList) (runtime ++ ".emit(".toList) :=
    isCode_call List.mem_cons_self
  have h := (hcall.append (isCode_quote hne)).append hclose
  rwa [List.append_assoc] at h

theorem isCode_closing : IsCode closingLexemes "))[1])".toList := by
  refine ⟨isLineEnd_of_any (by decide), fun rest => ?_⟩
  repeat refine .lexeme rfl ?_
  exact .nil rest

theorem isCode_signs_opening : IsCode [.sign .comma, .sign .leftParen] ", (".toList :=
  ⟨isLineEnd_of_any (by decide), fun rest => .lexeme rfl (.blank rfl (.lexeme rfl (.nil rest)))⟩

theorem entering_ne_nil (o : Options) (name : List Char) (depth : Int) : o.entering name depth ≠ [] := by
  simp [Options.entering]

theorem leaving_ne_nil (o : Options) (name : List Char) (depth : Int) : o.leaving name depth ≠ [] := by
  simp [Options.leaving]

variable {o : Options} {s : Source} {units : List (List Char)} {d : Definition} {first : Tree}
  {name : List Char} {depth : Int}

/-- What is inserted for a lambda tells the two lines in calls. -/
theorem isCode_wrapLambda {l : BoundLambda} {e : Edit} (h : e ∈ wrapLambda o s units l) :
    IsCode (openingLexemes (o.entering l.name l.depth) (o.leaving l.name l.depth)) e.text ∨
      IsCode closingLexemes e.text := by
  rcases List.mem_pair.1 h with rfl | rfl
  · left
    have hleave := isCode_quote (leaving_ne_nil o l.name l.depth)
    have henter := isCode_emission (entering_ne_nil o l.name l.depth)
    have hcall : IsCode (callLexemes "emit_through".toList) (runtime ++ ".emit_through(".toList) :=
      isCode_call (by simp)
    have hcode := (((hcall.append hleave).append isCode_signs_opening).append henter).append
      isCode_signs_opening
    simpa [openingLexemes, emission, insertion] using hcode
  · exact Or.inr isCode_closing

/-! ## Statements -/

/-- The statements that are inserted for a definition. -/
def statements (o : Options) (name : List Char) (depth : Int) : List (List Char) :=
  [[], "try:".toList, "finally:".toList, emission (o.entering name depth), emission (o.leaving name depth)]

/-- A text whose lines are indentation with a statement behind it. -/
def IsStatements (o : Options) (name : List Char) (depth : Int) (text : List Char) : Prop :=
  ∀ row ∈ text.splitOn '\n', ∃ pad, IsPad pad ∧ ∃ statement ∈ statements o name depth,
    row = pad ++ statement

theorem not_mem_of_isCode {lexemes : List Lexeme} {text : List Char} (h : IsCode lexemes text) :
    '\n' ∉ text := by
  intro hmem
  cases h.oneLine _ hmem

theorem not_mem_statement {statement : List Char} (h : statement ∈ statements o name depth) :
    '\n' ∉ statement := by
  simp only [statements, List.mem_cons, List.not_mem_nil, or_false] at h
  rcases h with rfl | rfl | rfl | rfl | rfl
  · exact List.not_mem_nil
  · decide
  · decide
  · exact not_mem_of_isCode (isCode_emission (entering_ne_nil o name depth))
  · exact not_mem_of_isCode (isCode_emission (leaving_ne_nil o name depth))

theorem IsPad.newline_not_mem {pad : List Char} (h : IsPad pad) : '\n' ∉ pad := by
  intro hm
  rcases h _ hm with h | h <;> cases h

theorem isStatements_row {pad statement : List Char} (hpad : IsPad pad)
    (h : statement ∈ statements o name depth) : IsStatements o name depth (pad ++ statement) := by
  have hsplit : (pad ++ statement).splitOn '\n' = [pad ++ statement] :=
    List.splitOn_eq_singleton (List.not_mem_append hpad.newline_not_mem (not_mem_statement h))
  intro row hrow
  rw [hsplit, List.mem_singleton] at hrow
  exact ⟨pad, hpad, statement, h, hrow⟩

theorem isStatements_pad {pad : List Char} (hpad : IsPad pad) : IsStatements o name depth pad := by
  have h : IsStatements o name depth (pad ++ []) := isStatements_row hpad List.mem_cons_self
  rwa [List.append_nil] at h

theorem IsStatements.append {front back : List Char} (hf : IsStatements o name depth front)
    (hb : IsStatements o name depth back) : IsStatements o name depth (front ++ '\n' :: back) := by
  rw [IsStatements, List.splitOn_append_cons_self]
  exact List.forall_mem_append.2 ⟨hf, hb⟩

/-- A statement on a new line. -/
theorem IsStatements.newLine {front statement : List Char} (hf : IsStatements o name depth front)
    (hu : ∀ u ∈ units, IsPad u) (h : statement ∈ statements o name depth) :
    IsStatements o name depth (front ++ newLine s units d first ++ statement) := by
  rw [List.append_assoc]
  exact hf.append (isStatements_row (isPad_padding hu d first) h)

/-- Every line that is inserted for a definition is indentation with a statement behind it. -/
theorem isStatements_of_mem (hu : ∀ u ∈ units, IsPad u) {e : Edit}
    (h : e ∈ (wrapDefinition o s units d).edits) : IsStatements o d.name d.depth e.text := by
  have htry : "try:".toList ∈ statements o d.name d.depth := by simp [statements]
  have hfinally : "finally:".toList ∈ statements o d.name d.depth := by simp [statements]
  have henter : enterStatement o d ∈ statements o d.name d.depth := by simp [statements, enterStatement]
  have hleave : leaveStatement o d ∈ statements o d.name d.depth := by simp [statements, leaveStatement]
  have hnone : IsStatements o d.name d.depth [] := isStatements_pad (List.forall_mem_nil _)
  have hpad {first : Tree} : IsPad (padding s units d first) := isPad_padding hu d first
  have hunit {first : Tree} : IsPad (bodyIndentation s d.node first).unit :=
    (isPad_bodyIndentation s d.node first).2.1
  have hdeep {first : Tree} : IsPad (padding s units d first ++ (bodyIndentation s d.node first).unit) :=
    List.forall_mem_append.2 ⟨hpad, hunit⟩
  have hdocs {first : Tree} (h : e ∈ docstringEdits s units d first) : IsStatements o d.name d.depth e.text := by
    obtain ⟨doc, -, -, rfl⟩ := mem_docstringEdits h
    exact hnone.append (isStatements_pad hpad)
  have hform := form_wrapDefinition o s units d
  generalize wrapDefinition o s units d = w at h hform
  cases hform with
  | nothing _ => cases h
  | forPass _ _ =>
    rcases List.mem_append.1 h with h | h
    · exact hdocs h
    obtain rfl := List.mem_singleton.1 h
    refine IsStatements.newLine ?_ hu hleave
    split
    · exact isStatements_row (List.forall_mem_nil _) henter
    · exact hnone.newLine hu henter
  | afterDocstring _ _ _ =>
    rcases List.mem_append.1 h with h | h
    · exact hdocs h
    obtain rfl := List.mem_singleton.1 h
    exact (hnone.newLine hu henter).newLine hu hleave
  | @sameLine first _ _ _ _ _ _ _ =>
    rcases List.mem_append.1 h with h | h
    · exact hdocs h
    rcases List.mem_pair.1 h with rfl | rfl
    · suffices hlines : IsStatements o d.name d.depth ([] ++ newLine s units d first ++ enterStatement o d ++
          newLine s units d first ++ "try:".toList ++
          '\n' :: (padding s units d first ++ (bodyIndentation s d.node first).unit)) by
        simpa [insertion, newLine] using hlines
      exact ((hnone.newLine hu henter).newLine hu htry).append (isStatements_pad hdeep)
    · suffices hlines : IsStatements o d.name d.depth ([] ++ newLine s units d first ++ "finally:".toList ++
          '\n' :: (padding s units d first ++ (bodyIndentation s d.node first).unit ++ leaveStatement o d)) by
        simpa [insertion, newLine] using hlines
      exact (hnone.newLine hu hfinally).append (isStatements_row hdeep hleave)
  | @ownLines first _ _ _ _ _ _ _ =>
    rcases List.mem_append.1 h with h | h
    · exact hdocs h
    rcases List.mem_cons.1 h with rfl | h
    · suffices hlines : IsStatements o d.name d.depth (padding s units d first ++ enterStatement o d ++
          newLine s units d first ++ "try:".toList ++ ['\n']) by
        simpa [insertion, newLine] using hlines
      exact ((isStatements_row hpad henter).newLine hu htry).append hnone
    rcases List.mem_append.1 h with h | h
    · obtain ⟨n, -, rfl⟩ := List.mem_map.1 h
      exact isStatements_pad hunit
    · obtain rfl := List.mem_singleton.1 h
      suffices hlines : IsStatements o d.name d.depth (padding s units d first ++ "finally:".toList ++
          '\n' :: (padding s units d first ++ (bodyIndentation s d.node first).unit ++ leaveStatement o d) ++
          ['\n']) by
        simpa [insertion, newLine] using hlines
      exact ((isStatements_row hpad hfinally).append (isStatements_row hdeep hleave)).append hnone

/-! ## All of a pass -/

/-- What is inserted for a function. -/
def IsInserted (o : Options) : Function.Shape → List Char → Prop
  | .definition d, text => IsStatements o d.name d.depth text
  | .lambda l, text =>
    IsCode (openingLexemes (o.entering l.name l.depth) (o.leaving l.name l.depth)) text ∨
      IsCode closingLexemes text
  | .unmatched, _ => False

theorem isInserted_of_mem {e : Edit} (h : e ∈ (pass o s).edits) : ∃ x ∈ sites o s [] [] s.tree, ∃ depth,
    e ∈ x.edits o s depth ∧ IsInserted o (Function.classify s x.above x.tree depth) e.text := by
  obtain ⟨x, hx, depth, he⟩ := exists_site h
  refine ⟨x, hx, depth, he, ?_⟩
  rw [Site.edits] at he
  cases hc : Function.classify s x.above x.tree depth with
  | definition d =>
    rw [hc] at he
    exact isStatements_of_mem (isPad_units s.tree (List.forall_mem_nil _) x hx) he
  | lambda l =>
    rw [hc] at he
    exact isCode_wrapLambda he
  | unmatched =>
    rw [hc] at he
    cases he

/-- The quotes of a trace line stand on one line and are read as the trace line, whatever indents the trace
lines and whatever the function is called, and the statement with them is a call that gets it.  Nothing else
that is inserted holds a trace line: for a definition such statements, `try:` and `finally:` are inserted,
each on a line of its own, and for a lambda such calls. -/
theorem inserted_reads (o : Options) (s : Source) :
    (∀ (name : List Char) (depth : Int), ∀ line ∈ [o.entering name depth, o.leaving name depth],
      (∀ c ∈ quote line, c ≠ '\n' ∧ c ≠ '\r') ∧
      (∀ rest, scanLexeme (quote line ++ rest) = some (.string (quote line), quote line, rest)) ∧
      (∀ expression place, Literal.toNode? expression place [quote line] =
        some (Literal.textNode place false (line.map Char.toNat))) ∧
      IsCode (emissionLexemes line) (emission line)) ∧
    ∀ e ∈ (pass o s).edits, ∃ x ∈ sites o s [] [] s.tree, ∃ depth, e ∈ x.edits o s depth ∧
      IsInserted o (Function.classify s x.above x.tree depth) e.text := by
  refine ⟨fun name depth line hline => ?_, fun e he => isInserted_of_mem he⟩
  have hne : line ≠ [] := by
    rcases List.mem_pair.1 hline with rfl | rfl
    · exact entering_ne_nil o name depth
    · exact leaving_ne_nil o name depth
  refine ⟨fun c hc => ?_, scanLexeme_quote hne, fun _ _ => toNode?_quote _ _ line, isCode_emission hne⟩
  have hend := isLineEnd_of_mem_quote c hc
  simpa [isLineEnd] using hend

end Instrument

end CallTrace
