import Mathlib
import CallTrace.Proofs.Overlap
import CallTrace.Proofs.Within

/-!
# Functions with their places

Every function of a parsed text has its places in the text (`Parsed.fitsBelow`).  So its edits do not
reach over the end of the text (`Parsed.stop_le`), and none is at the very beginning
(`Parsed.start_pos`): before the body of a function there stands the word `def`, or `lambda`.
-/

namespace CallTrace

open Syntax Instrument Text

namespace Parsed

variable {text : List Char} {s : Source} {tokens : Array Token} {a b : Nat → Nat}
  (P : Parsed text s tokens a b)

include P

/-! ## Places -/

theorem has_first {m : Nat} (h : StartsAt tokens m) : s.Has (placeOf text (a m)) where
  one_le := P.one_le_line h
  le_count := (line_mono (P.a_lt_b h).le).trans (P.line_le_count h)
  offset_le := by
    rw [P.offset_eq, P.table]
    exact offsetOf_le_length P.terminated (P.a_le_length h)
  exists_placeOf := by
    rw [P.table]
    exact ⟨a m, P.a_le_length h, rfl⟩

theorem has_last {n : Nat} (h : StartsAt tokens n) : s.Has (placeOf text (b n)) where
  one_le := Text.one_le_line P.terminated (P.b_le h)
  le_count := P.line_le_count h
  offset_le := by
    rw [P.offset_eq, P.table]
    exact offsetOf_le_length P.terminated (P.b_le h)
  exists_placeOf := by
    rw [P.table]
    exact ⟨b n, P.b_le h, rfl⟩

theorem contains_of_span {t : Tree} {m n : Nat} (hm : StartsAt tokens m) (hn : StartsAt tokens n)
    (h : t.span? = some ⟨placeOf text (a m), placeOf text (b n)⟩) : s.Contains t where
  placed := by rw [h]; rfl
  start := by
    rw [Tree.start, h]
    exact P.has_first hm
  stop := by
    rw [Tree.stop, h]
    exact P.has_last hn

/-- A node with a place has it in the text. -/
theorem contains {nodes : List Tree} {t : Tree} (hu : Under [] s.tree nodes t)
    (ht : t.span?.isSome = true) : s.Contains t := by
  obtain ⟨span, hspan⟩ := Option.isSome_iff_exists.1 ht
  obtain ⟨m, n, -, hm, hn, rfl⟩ := P.exists_span hu hspan
  exact P.contains_of_span hm hn hspan

/-- A statement has its place in the text, and so have its decorators. -/
theorem containsStatement {c : Cell} {m n : Nat} (h : c.Ends text tokens a b m n) :
    s.ContainsStatement c.tree := by
  obtain ⟨f, -, -, hf, hfirst, -⟩ := P.exists_first h
  refine ⟨P.contains_of_span h.first h.last h.span, fun d hd => ?_, ?_, ?_⟩
  · have placed {d : Tree} {p : Position} (hp : d.span?.map Span.start = some p) :
        d.span?.isSome = true := by
      rw [← Option.isSome_map (f := Span.start), hp]
      rfl
    have ha := h.adorned
    generalize c.tree.field .decorators = decorators at ha hd
    cases ha with
    | none => cases hd
    | some _ _ _ _ _ hspan hrest =>
      rcases List.mem_cons.1 hd with rfl | hd
      · exact placed hspan
      · obtain ⟨y, -, -, hy⟩ := hrest d hd
        exact placed hy
  · rw [hfirst]
    exact (P.has_first hf).one_le
  · rw [hfirst]
    exact (P.has_first hf).le_count

theorem fits_of_definition {nodes : List Tree} {t : Tree} {depth : Int} {d : Definition}
    (hu : Under [] s.tree nodes t) (hd : Function.classify s nodes t depth = .definition d) :
    d.Fits s := by
  obtain ⟨m, i, j, body, h⟩ := P.exists_stands hu hd
  obtain ⟨-, -, rfl⟩ := Function.eq_of_classify_definition hd
  refine ⟨P.contains hu ?_, fun u hu => ?_, h.ne_nil, h.parts⟩
  · rw [h.span]
    rfl
  · obtain ⟨c, -, rfl, m', n', hends⟩ := P.exists_ends_of_mem h hu
    exact P.containsStatement hends

/-- Every function has its places in the text. -/
theorem fitsBelow : FitsBelow s [] s.tree := by
  intro nodes t depth hu
  cases hc : Function.classify s nodes t depth with
  | definition d => exact P.fits_of_definition hu hc
  | lambda l =>
    obtain ⟨c, hl, htree, hplaced, -⟩ := P.exists_lambda hu hc
    obtain ⟨m, n, hends⟩ := P.exists_ends hl hplaced
    rw [Function.Shape.Fits, ← htree]
    exact P.contains_of_span hends.first hends.last hends.span
  | unmatched => trivial

/-! ## Where edits end -/

theorem lineStart_le (line : Nat) : s.table.lineStart line ≤ text.length := by
  rw [P.table]
  exact lineStart_le_length text line

theorem offset_le {p : Position} (h : s.Has p) : s.table.offset p ≤ text.length := by
  have := h.offset_le
  rwa [P.table] at this ⊢

/-- No edit reaches over the end of the text. -/
theorem stop_le {o : Options} {e : Edit} (he : e ∈ (pass o s).edits) : e.stop ≤ text.length := by
  obtain ⟨x, depth, hu, hw⟩ := exists_wraps he
  have hfits := P.fitsBelow _ _ depth hu
  cases hw with
  | beforeBody hl =>
    rw [hl] at hfits
    exact Int.ofNat_le.2 (P.offset_le hfits.start)
  | afterBody hl =>
    rw [hl] at hfits
    exact Int.ofNat_le.2 (P.offset_le hfits.stop)
  | @definition d _ hd hw =>
    rw [hd] at hfits
    have hfits : d.Fits s := hfits
    cases hw with
    | beforeDocstring h _ => exact Int.ofNat_le.2 (P.offset_le (hfits.docstring h).start)
    | afterDocstring h _ => exact Int.ofNat_le.2 (P.offset_le (hfits.docstring h).stop)
    | forPass h _ =>
      obtain ⟨hone, -⟩ := Definition.lonePass?_eq_some_iff.1 h
      exact Int.ofNat_le.2 (P.offset_le (hfits.statement (hone ▸ List.mem_singleton_self _)).stop)
    | beforeHead h _ _ =>
      exact Int.ofNat_le.2 (P.offset_le (hfits.statement (List.mem_of_mem_head? h)).start)
    | afterLast h =>
      exact Int.ofNat_le.2 (P.offset_le (hfits.statement (List.mem_of_mem_getLast? h)).stop)
    | aboveHead _ _ _ => exact Int.ofNat_le.2 (P.lineStart_le _)
    | belowLast _ => exact Int.ofNat_le.2 (P.lineStart_le _)
    | @shift n _ h =>
      obtain ⟨_, _, _, body, hstands⟩ := P.exists_stands hu hd
      obtain ⟨hone, -⟩ := P.bounds_of_mem_shiftedLines hstands h
      obtain ⟨-, -, -, -, -, -, -, -, -, hblank⟩ := Definition.mem_shiftedLines_iff.1 h
      have hlt : s.table.shiftPoint n < s.table.lineStart (n + 1) := by
        rw [P.table] at hblank ⊢
        exact shiftPoint_lt_lineStart_succ hone hblank
      exact Int.ofNat_le.2 (hlt.le.trans (P.lineStart_le _))

/-! ## Where edits begin -/

/-- What has a token before it stands after the token's beginning. -/
theorem lt_offsets {c : Cell} {k m n : Nat} (h : c.Ends text tokens a b m n) (hk : StartsAt tokens k)
    (hkc : k < c.lo) :
    offsetOf text (a k) < s.start c.tree ∧ offsetOf text (a k) < s.stop c.tree := by
  have hstart : offsetOf text (a k) < offsetOf text (a m) := offsetOf_lt P.terminated
    (P.a_lt_a hk (hkc.trans_le h.adorned.le) h.first) (P.a_le_length h.first)
  rw [P.offset_start h, P.offset_stop h]
  exact ⟨hstart, hstart.trans_le (offsetOf_le P.terminated
    ((P.a_lt_b h.first).le.trans (P.b_le_b h.le h.last)) (P.b_le h.last))⟩

/-- The line after a token begins after the token. -/
theorem last_lt_lineStart {n : Nat} (hn : StartsAt tokens n) :
    offsetOf text (b n) < s.table.lineStart ((placeOf text (b n)).line + 1) := by
  by_contra hge
  have hcount := P.line_le_count hn
  have hle := (P.lineStart_le_iff (by omega) (by omega) (P.b_le hn)).1 (Nat.not_lt.1 hge)
  omega

/-- A body on lines of its own begins on a line that begins after the word `def`. -/
theorem keyword_lt_lineStart {d : Definition} {m i j : Nat} {body : List Cell}
    (h : d.Stands tokens m i j body) {head : Tree} (hhead : head ∈ d.body)
    (hstart : s.atLineStart head = true) :
    offsetOf text (a m) < s.table.lineStart (Source.firstLine head) := by
  obtain ⟨c, hc, rfl, m', n', hends⟩ := P.exists_ends_of_mem h hhead
  obtain ⟨f, -, -, hf, hfirst, -⟩ := P.exists_first hends
  have hline := P.line_lt_firstLine hends (h.block.adorned c hc) hstart h.keyword.startsAt
    (h.lt.trans_le (h.block.spread.bounds c hc).1)
  have hmono : (placeOf text (a m)).line ≤ (placeOf text (b m)).line :=
    line_mono (P.a_lt_b h.keyword.startsAt).le
  rw [hfirst] at hline ⊢
  by_contra hge
  have hle := (P.lineStart_line_le_iff hf (P.a_le_length h.keyword.startsAt)).1 (Nat.not_lt.1 hge)
  omega

/-- The edits of a definition stand after the word `def`. -/
theorem keyword_lt_of_definition {d : Definition} {m i j level : Nat} {body : List Cell} {e : Edit}
    (h : d.Stands tokens m i j body) (hw : Wraps s level d e) :
    (offsetOf text (a m) : Int) < e.start := by
  have hafter {t : Tree} (ht : t ∈ d.body) :
      offsetOf text (a m) < s.start t ∧ offsetOf text (a m) < s.stop t := by
    obtain ⟨c, hc, rfl, m', n', hends⟩ := P.exists_ends_of_mem h ht
    exact P.lt_offsets hends h.keyword.startsAt
      (h.lt.trans_le (h.block.spread.bounds c hc).1)
  cases hw with
  | beforeDocstring hdoc _ => exact Int.ofNat_lt.2 (hafter (h.mem_of_docstring hdoc)).1
  | afterDocstring hdoc _ => exact Int.ofNat_lt.2 (hafter (h.mem_of_docstring hdoc)).2
  | forPass ht _ =>
    obtain ⟨hone, -⟩ := Definition.lonePass?_eq_some_iff.1 ht
    exact Int.ofNat_lt.2 (hafter (h.mem_of_statements (hone ▸ List.mem_singleton_self _))).1
  | beforeHead hhead _ _ =>
    exact Int.ofNat_lt.2 (hafter (h.mem_of_statements (List.mem_of_mem_head? hhead))).1
  | afterLast hlast =>
    exact Int.ofNat_lt.2 (hafter (h.mem_of_statements (List.mem_of_mem_getLast? hlast))).2
  | aboveHead hhead _ hstart =>
    exact Int.ofNat_lt.2
      (P.keyword_lt_lineStart h (h.mem_of_statements (List.mem_of_mem_head? hhead)) hstart)
  | @belowLast last _ hlast =>
    have hmem := h.mem_of_statements (List.mem_of_mem_getLast? hlast)
    obtain ⟨c, -, rfl, m', n', hends⟩ := P.exists_ends_of_mem h hmem
    have hlt := P.last_lt_lineStart hends.last
    rw [← P.offset_stop hends, ← stop_eq hends] at hlt
    exact Int.ofNat_lt.2 ((hafter hmem).2.trans hlt)
  | @shift n _ hline =>
    obtain ⟨head, _, hhead, -, -, hstart, hle, -⟩ := Definition.mem_shiftedLines_iff.1 hline
    have hlt := P.keyword_lt_lineStart h (h.mem_of_statements (List.mem_of_mem_head? hhead)) hstart
    have hmono : s.table.lineStart (Source.firstLine head) ≤ s.table.lineStart n := by
      rw [P.table]
      exact lineStart_mono text hle
    exact Int.ofNat_lt.2 ((hlt.trans_le hmono).trans_le (Nat.le_add_right _ _))

/-- No edit is at the very beginning of the text. -/
theorem start_pos {o : Options} {e : Edit} (he : e ∈ (pass o s).edits) : 0 < e.start := by
  obtain ⟨x, depth, hu, hw⟩ := exists_wraps he
  have hlambda {l : BoundLambda} (hl : Function.classify s x.above x.tree depth = .lambda l) :
      0 < s.start l.body ∧ 0 < s.stop l.body := by
    obtain ⟨c, hlaid, htree, hplaced, -, k, hkc, hk⟩ := P.exists_lambda hu hl
    obtain ⟨m, n, hends⟩ := P.exists_ends hlaid hplaced
    obtain ⟨hstart, hstop⟩ := P.lt_offsets hends hk hkc
    rw [← htree]
    exact ⟨(Nat.zero_le _).trans_lt hstart, (Nat.zero_le _).trans_lt hstop⟩
  cases hw with
  | beforeBody hl => exact Int.natCast_pos.2 (hlambda hl).1
  | afterBody hl => exact Int.natCast_pos.2 (hlambda hl).2
  | definition hd hw =>
    obtain ⟨m, i, j, body, hstands⟩ := P.exists_stands hu hd
    exact (Int.natCast_nonneg _).trans_lt (P.keyword_lt_of_definition hstands hw)

end Parsed

end CallTrace
