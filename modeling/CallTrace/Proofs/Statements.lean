import Mathlib
import CallTrace.Proofs.Fronts
import CallTrace.Proofs.Inline

/-!
# First lines of statements

The first token of a statement stands at a front (`BeginsAt`); for a statement with decorators it is the
sign before the first of them.  Its line is taken from the nodes, which know nothing of that sign nor of
parentheses: it is the line on which the first decorator begins (`Parsed.firstLine_eq`).

So the first line is that of the first token, and what is inserted in front of the line stays clear of the
statement, if and only if the first decorator begins on the line of its sign.
`Source.firstLine_bracketedDecorator` is a statement where it does not.
-/

namespace CallTrace

open Syntax Instrument Text

/-- The first token of the statement, decorators counted, is the `lo`-th. -/
structure Syntax.BeginsAt (tokens : Array Token) (lo : Nat) (t : Tree) : Prop where
  front : IsFront tokens lo
  starts : StartsAt tokens lo
  laid : ∃ hi, Laid tokens ⟨t, lo, hi⟩
  placed : ∃ m, Adorned tokens lo m (t.field .decorators) ∧
    t.span?.map Span.start = some (startAt tokens m)

/-- Every statement of a parsed text lies on tokens from a front on. -/
theorem seated_of_parse {text : List Char} {s : Source} {tokens : Array Token}
    (ht : IsTerminated text) (hp : Source.parse text = .ok s)
    (hscan : scanTokens (normalizeNewlines text) = some tokens.toList) : Seated tokens s.tree := by
  obtain ⟨fuel, j, ts, hrun, hmem⟩ := Source.exists_run ht hp hscan
  exact (seated_of_run fuel hrun (isKnown_of_irregular [] rfl (by simp))
    (b := true) (c := false) rfl fun _ => isFront_zero).1 s.tree hmem

/-- A statement has a place. -/
theorem Syntax.Kind.isPlaced_of_isStatement {k : Kind} (h : k.isStatement = true) :
    k.isPlaced = true := by
  revert h
  cases k <;> decide

/-- So a statement on tokens has one. -/
theorem Syntax.Laid.isSome_span? {tokens : Array Token} {c : Cell} (h : Laid tokens c)
    (hk : c.tree.kind?.any Kind.isStatement = true) : c.tree.span?.isSome = true := by
  cases h with
  | leaf _ => cases hk
  | literal _ _ _ _ => rfl
  | node _ _ _ _ _ _ _ _ _ _ _ _ =>
    have hplaced := Kind.isPlaced_of_isStatement hk
    simp [Tree.span?, hplaced]
  | lambda _ _ _ _ _ _ _ _ _ _ => rfl
  | definition _ _ _ _ _ _ _ _ _ _ _ _ => rfl

namespace Parsed

variable {text : List Char} {s : Source} {tokens : Array Token} {a b : Nat → Nat}
  (P : Parsed text s tokens a b)

include P

/-- The place of a node. -/
theorem beginsAt_of_ends {c : Cell} {m n : Nat} (hfront : IsFront tokens c.lo) (hlaid : Laid tokens c)
    (h : c.Ends text tokens a b m n) : BeginsAt tokens c.lo c.tree where
  front := hfront
  starts := h.adorned.startsAt h.first
  laid := ⟨c.hi, hlaid⟩
  placed := ⟨m, h.adorned, by rw [h.span, P.startAt_eq h.first]; rfl⟩

/-- The first line of a statement is that of its first token if and only if the first decorator begins on
that line. -/
theorem firstLine_eq_iff {c : Cell} {m n : Nat} (h : c.Ends text tokens a b m n) :
    Source.firstLine c.tree = (startAt tokens c.lo).line ↔
      ∀ d ∈ (c.tree.field .decorators).head?, d.start.line = (startAt tokens c.lo).line := by
  rw [P.firstLine_eq h]
  have ha := h.adorned
  have hm : c.tree.start = startAt tokens m := (start_eq h).trans (P.startAt_eq h.first).symm
  generalize c.tree.field .decorators = decorators at ha
  cases ha with
  | none => simp [hm]
  | some _ _ _ _ _ _ _ _ => simp

end Parsed

namespace Source

variable {text : List Char} {s : Source} {nodes : List Tree} {t : Tree}

/-- The first line of a statement begins before the first token, or at it, if and only if the token is on that
line. -/
theorem lineStart_firstLine_le_iff {ended : Source} {tokens : Array Token} {a b : Nat → Nat}
    (P : Parsed (terminated text) ended tokens a b) (htable : s.table = .ofText text) {c : Cell}
    {m n : Nat} (h : c.Ends (terminated text) tokens a b m n) :
    s.table.lineStart (firstLine c.tree) ≤ s.table.offset (startAt tokens c.lo) ↔
      firstLine c.tree = (startAt tokens c.lo).line := by
  have hlo : StartsAt tokens c.lo := h.adorned.startsAt h.first
  obtain ⟨f, hlof, -, hf, hline, -⟩ := P.exists_first h
  have hflt := (P.a_lt_b hf).trans_le (P.b_le hf)
  have hstart := (line_terminated (P.one_le_line hf) (line_le_count P.terminated hflt)).1
  rw [hline, offset_startAt P htable hlo, P.startAt_eq hlo, htable, ← hstart, ← P.table,
    P.lineStart_line_le_iff hf (P.a_le_length hlo)]
  exact ⟨fun hle => hle.antisymm (line_mono (P.a_le_a hlo hlof hf)), fun heq => heq.le⟩

/-- A statement of a text begins with a token of the text with its last line ended, and ends with another. -/
theorem exists_beginsAt (hp : Source.parse text = .ok s) (ht : ⟨t, nodes⟩ ∈ s.tree.walk)
    (hk : t.kind?.any Kind.isStatement = true) : ∃ ended tokens a b lo hi m n,
      Parsed (terminated text) ended tokens a b ∧ s.table = .ofText text ∧ BeginsAt tokens lo t ∧
      Cell.Ends (terminated text) tokens a b ⟨t, lo, hi⟩ m n := by
  obtain ⟨ended, tokens, a, b, hended, P, htree, htable⟩ := Source.exists_parsed hp
  have hu := mem_walk.1 ht
  rw [← htree] at hu
  obtain ⟨lo, hi, hfront, hlaid⟩ : Sits tokens t := by
    cases (seated_of_parse P.terminated hended P.scanned).under hu with
    | leaf => cases hk
    | node hsits _ => exact hsits hk
  obtain ⟨m, n, hends⟩ := P.exists_ends hlaid (hlaid.isSome_span? hk)
  exact ⟨ended, tokens, a, b, lo, hi, m, n, P, htable, P.beginsAt_of_ends hfront hlaid hends, hends⟩

/-- A text with a node that has the property. -/
theorem exists_of_walk {p : Source → Tree.Placed → Bool}
    (h : (Source.parse text).toOption.any (fun s => s.tree.walk.any (p s)) = true) :
    ∃ s t nodes, Source.parse text = .ok s ∧ ⟨t, nodes⟩ ∈ s.tree.walk ∧ p s ⟨t, nodes⟩ = true := by
  obtain ⟨s, hs, hany⟩ := Source.exists_of_parse h
  obtain ⟨⟨t, nodes⟩, ht, hp⟩ := List.any_eq_true.1 hany
  exact ⟨s, t, nodes, hs, ht, hp⟩

/-- Every sign of a decorator is on the given line. -/
def signsOn (text : List Char) (n : Nat) : Bool :=
  (scanTokens (normalizeNewlines (terminated text))).any fun tokens =>
    tokens.all fun u => u.lexeme ≠ .sign .atSign || u.span.start.line = n

/-- So a statement with decorators begins on that line. -/
theorem line_of_signsOn {tokens : Array Token} {n lo : Nat} (h : signsOn text n = true)
    (hscan : scanTokens (normalizeNewlines (terminated text)) = some tokens.toList)
    (hbegins : BeginsAt tokens lo t) (hne : t.field .decorators ≠ []) :
    (startAt tokens lo).line = n := by
  obtain ⟨m, ha, -⟩ := hbegins.placed
  generalize t.field .decorators = decorators at ha hne
  cases ha with
  | none => exact absurd rfl hne
  | some hat _ _ _ _ _ _ _ =>
    obtain ⟨u, hu, hlexeme⟩ := Option.map_eq_some_iff.1 hat
    rw [signsOn, hscan, Option.any_some, List.all_eq_true] at h
    have hmem : u ∈ tokens.toList := Array.mem_toList_iff.2 (Array.mem_of_getElem? hu)
    have hline := h u hmem
    rw [startAt, hu]
    simpa [hlexeme] using hline

/-- A class whose decorator is in brackets, after another statement. -/
def decoratedClass : List Char :=
  "x = 0\n@(a)\nclass C: pass\n".toList

/-- A function whose decorator is on the line below its sign. -/
def bracketedDecorator : List Char :=
  "@(\n a\n)\ndef f(): pass\n".toList

end Source

end CallTrace
