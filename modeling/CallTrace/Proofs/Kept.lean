import Mathlib
import CallTrace.Proofs.Fitting
import CallTrace.Proofs.Literals
import CallTrace.Proofs.Newlines

/-!
# What is kept of a text

Editing cuts a text into patches: a piece that is kept, a piece that is removed, and what is put in its
place (`Edit.exists_patches`).  The pieces that a pass removes are the words `pass` of bodies that do
nothing else; everything else of the text is kept, in its order (`text_kept`).
-/

namespace CallTrace

open Syntax Instrument Text

namespace Edit

/-- A piece of a text that is kept, the piece after it that is removed, and what is put in its place. -/
structure Patch where
  kept : List Char
  removed : List Char
  inserted : List Char

/-- The text that is patched. -/
def Patch.before (patches : List Patch) : List Char :=
  patches.flatMap fun p => p.kept ++ p.removed

/-- What the patches make of it. -/
def Patch.after (patches : List Patch) : List Char :=
  patches.flatMap fun p => p.kept ++ p.inserted

/-- An edit removes and inserts as the patch between the given ones does. -/
def IsPatch (position : Int) (front : List Patch) (p : Patch) (e : Edit) : Prop :=
  e.start = position + (Patch.before front).length + p.kept.length ∧
    e.stop = e.start + p.removed.length ∧ e.text = p.inserted

theorem exists_patches_from {text : List Char} {edits : List Edit}
    (h : ∀ e ∈ edits, e.Ordered ∧ e.stop ≤ text.length) :
    ∀ {position : Int} {out : List Char}, 0 ≤ position → position ≤ text.length →
      applyFrom text position edits = .ok out →
      ∃ (patches : List Patch) (rest : List Char),
        text.drop position.toNat = Patch.before patches ++ rest ∧ out = Patch.after patches ++ rest ∧
          ∀ front p back, patches = front ++ p :: back → ∃ e ∈ edits, IsPatch position front p e := by
  induction edits with
  | nil =>
    intro position out hp _ hout
    rw [applyFrom, Except.ok.injEq, sliceFrom_eq _ hp] at hout
    exact ⟨[], out, hout, rfl, fun front p back h => by simp at h⟩
  | cons e edits ih =>
    intro position out hp hlength hout
    obtain ⟨ho, hstop⟩ := h e List.mem_cons_self
    have ho : e.start ≤ e.stop := ho
    rw [applyFrom] at hout
    split at hout
    · cases hout
    rename_i hle
    cases hafter : applyFrom text e.stop edits with
    | error overlap =>
      rw [hafter] at hout
      cases hout
    | ok after =>
      rw [hafter, Except.ok.injEq, slice_eq _ hp (by omega)] at hout
      obtain ⟨patches, rest, hbefore, hrest, hedits⟩ :=
        ih (fun f hf => h f (List.mem_cons_of_mem e hf)) (by omega) hstop hafter
      have hkept : ((text.take e.start.toNat).drop position.toNat).length =
          e.start.toNat - position.toNat := by
        rw [List.length_drop, List.length_take]
        omega
      have hremoved : ((text.take e.stop.toNat).drop e.start.toNat).length =
          e.stop.toNat - e.start.toNat := by
        rw [List.length_drop, List.length_take]
        omega
      refine ⟨⟨(text.take e.start.toNat).drop position.toNat, (text.take e.stop.toNat).drop e.start.toNat,
        e.text⟩ :: patches, rest, ?_, ?_, ?_⟩
      · rw [drop_eq_append text (show position.toNat ≤ e.start.toNat by omega),
          drop_eq_append text (show e.start.toNat ≤ e.stop.toNat by omega), hbefore]
        simp [Patch.before]
      · rw [← hout, hrest]
        simp [Patch.after]
      · intro front p back hsplit
        cases front with
        | nil =>
          obtain ⟨rfl, -⟩ := List.cons.inj hsplit
          refine ⟨e, List.mem_cons_self, ?_, ?_, rfl⟩
          · simp only [hkept, Patch.before, List.flatMap_nil, List.length_nil]
            omega
          · simp only [hremoved]
            omega
        | cons q front =>
          rw [List.cons_append, List.cons.injEq] at hsplit
          obtain ⟨rfl, hsplit⟩ := hsplit
          obtain ⟨f, hf, h₁, h₂, h₃⟩ := hedits front p back hsplit
          refine ⟨f, List.mem_cons_of_mem e hf, ?_, h₂, h₃⟩
          simp only [Patch.before, List.flatMap_cons, List.length_append, hkept, hremoved] at h₁ ⊢
          omega

/-- Edited texts are patched texts. -/
theorem exists_patches {text out : List Char} {edits : List Edit}
    (h : ∀ e ∈ edits, e.Ordered ∧ e.stop ≤ text.length) (hout : apply text edits = .ok out) :
    ∃ (patches : List Patch) (rest : List Char),
      text = Patch.before patches ++ rest ∧ out = Patch.after patches ++ rest ∧
        ∀ front p back, patches = front ++ p :: back → ∃ e ∈ edits, IsPatch 0 front p e := by
  obtain ⟨patches, rest, h₁, h₂, h₃⟩ :=
    exists_patches_from (fun e he => h e (mem_sort_iff.1 he)) le_rfl (Int.natCast_nonneg _) hout
  refine ⟨patches, rest, h₁, h₂, fun front p back hsplit => ?_⟩
  obtain ⟨e, he, hpatch⟩ := h₃ front p back hsplit
  exact ⟨e, mem_sort_iff.1 he, hpatch⟩

/-- By how much an edit makes the text longer. -/
def growth (e : Edit) : Int :=
  e.text.length - (e.stop - e.start)

theorem length_of_applyFrom {text : List Char} {edits : List Edit}
    (h : ∀ e ∈ edits, e.Ordered ∧ e.stop ≤ text.length) :
    ∀ {position : Int} {out : List Char}, 0 ≤ position → position ≤ text.length →
      applyFrom text position edits = .ok out →
      (out.length : Int) = text.length - position + (edits.map growth).sum := by
  induction edits with
  | nil =>
    intro position out hp _ hout
    rw [applyFrom, Except.ok.injEq, sliceFrom_eq _ hp] at hout
    rw [← hout, List.length_drop, List.map_nil, List.sum_nil]
    omega
  | cons e edits ih =>
    intro position out hp _ hout
    obtain ⟨ho, hstop⟩ := h e List.mem_cons_self
    have ho : e.start ≤ e.stop := ho
    rw [applyFrom] at hout
    split at hout
    · cases hout
    cases hafter : applyFrom text e.stop edits with
    | error overlap =>
      rw [hafter] at hout
      cases hout
    | ok after =>
      rw [hafter, Except.ok.injEq, slice_eq _ hp (by omega)] at hout
      have := ih (fun f hf => h f (List.mem_cons_of_mem e hf)) (by omega) hstop hafter
      rw [← hout, List.length_append, List.length_append, List.length_drop, List.length_take,
        List.map_cons, List.sum_cons, growth]
      omega

/-- Editing makes a text longer by what the edits insert, and shorter by what they remove. -/
theorem length_of_apply {text out : List Char} {edits : List Edit}
    (h : ∀ e ∈ edits, e.Ordered ∧ e.stop ≤ text.length) (hout : apply text edits = .ok out) :
    (out.length : Int) = text.length + (edits.map growth).sum := by
  have := length_of_applyFrom (fun e he => h e (mem_sort_iff.1 he)) le_rfl (Int.natCast_nonneg _) hout
  rw [this, ((sort_perm edits).map growth).sum_eq, sub_zero]

theorem removed_eq {text rest : List Char} {front back : List Patch} {p : Patch} {e : Edit}
    (h : IsPatch 0 front p e) (htext : text = Patch.before (front ++ p :: back) ++ rest) :
    (text.take e.stop.toNat).drop e.start.toNat = p.removed := by
  obtain ⟨hstart, hstop, -⟩ := h
  have hsplit : text =
      (Patch.before front ++ p.kept) ++ (p.removed ++ (Patch.before back ++ rest)) := by
    simp [htext, Patch.before]
  have hlow : e.start.toNat = (Patch.before front ++ p.kept).length := by
    rw [List.length_append]
    omega
  have hhigh : e.stop.toNat = (Patch.before front ++ p.kept).length + p.removed.length := by
    omega
  rw [hhigh, hlow, hsplit, List.take_length_add_append, List.drop_left, List.take_left]

end Edit

/-- The text between two offsets is the token `pass` of a statement that is, but for a docstring, the
only one of a definition that is traced. -/
def Source.IsLonePass (s : Source) (ts : List Token) (x y : Nat) : Prop :=
  ∃ d ∈ s.definitions, ∃ t, d.statements = [t] ∧ t.is .passStmt = true ∧
    (∃ u ∈ ts, u.lexeme = .keyword .passWord ∧ t.span? = some u.span) ∧
    x = s.start t ∧ y = s.stop t ∧ s.table.between x y = "pass".toList

theorem Parsed.isLonePass {text : List Char} {s : Source} {tokens : Array Token} {a b : Nat → Nat}
    (P : Parsed text s tokens a b) {nodes : List Tree} {u t : Tree} {depth : Int} {d : Definition}
    (hu : Under [] s.tree nodes u) (hd : Function.classify s nodes u depth = .definition d)
    (ht : d.lonePass? = some t) : s.IsLonePass tokens.toList (s.start t) (s.stop t) := by
  obtain ⟨d', hd', hlone, -⟩ := Source.exists_definition hu hd
  obtain ⟨hone, hpass⟩ := Definition.lonePass?_eq_some_iff.1 ht
  obtain ⟨m, i, j, body, hstands⟩ := P.exists_stands hu hd
  obtain ⟨c, hc, rfl, m, q, hends⟩ :=
    P.exists_ends_of_mem hstands (hstands.mem_of_statements (hone ▸ List.mem_singleton_self _))
  obtain ⟨rfl, rfl, hn⟩ := hends.of_pass (hstands.laid c hc) hpass
  obtain ⟨l, -, hl, -, -, -, hlt, hle, htoken⟩ := P.lies_of_startsAt hends.first
  rw [hn, Option.some.injEq] at hl
  subst hl
  refine ⟨d', hd', c.tree, (Definition.lonePass?_eq_some_iff.1 (hlone.trans ht)).1, hpass,
    ⟨_, Array.mem_toList_iff.2 (Array.mem_of_getElem? htoken), rfl, hends.span⟩, rfl, rfl, ?_⟩
  rw [P.offset_start hends, P.offset_stop hends, LineTable.between, P.table, LineTable.ofText]
  have hread := (normalizeNewlines_slice P.terminated hlt.le hle).trans (P.spelling_of_pass hn)
  exact (eq_normalizeNewlines (by rw [hread]; decide)).trans hread

theorem Parsed.insertion_or_lonePass {text : List Char} {s : Source} {tokens : Array Token}
    {a b : Nat → Nat} (P : Parsed text s tokens a b) {o : Options} {e : Edit}
    (he : e ∈ (pass o s).edits) :
    e.start = e.stop ∨ s.IsLonePass tokens.toList e.start.toNat e.stop.toNat := by
  obtain ⟨x, depth, hu, hw⟩ := exists_wraps he
  rcases hw.insertion_or_pass with h | ⟨d, t, _, hd, ht, rfl⟩
  · exact Or.inl h
  · exact Or.inr (P.isLonePass hu hd ht)

/-- A definition that does nothing. -/
def doesNothing : List Char := "def f(): pass\n".toList

end CallTrace
