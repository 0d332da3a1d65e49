import Mathlib
import CallTrace.Proofs.Splicing

/-!
# What edits come to

The edits of a list are made in one pass, in the stable order (`InOrder`).  The pass compares an edit with
the end of the one before it alone; since edits have their ends in order and the pass goes on only behind
an edit, that is the end of all that came before it, and so the first edit that is refused is the first
that begins before the end of any edit made earlier (`applyFrom_eq_error_iff`).

Two other ways to say what edits come to do not mention the pass.  `outcome` goes by the offsets of the
text: at each there are the texts of the edits that begin there, and then the character, unless an edit
takes its place.  `make` makes one edit on a text that it changes; the edits are made one by one, the last
first, so that each finds the text before it as it was.  Main statements: `apply_pass` and `apply_singly`.
-/

namespace CallTrace.Edit

variable {text out : List Char} {e : Edit} {edits sorted : List Edit}

/-! ## The stable order -/

/-- The edits in the order of their offsets and orders; edits that these do not tell apart stand as they
were given. -/
structure InOrder (edits sorted : List Edit) : Prop where
  perm : sorted.Perm edits
  ascending : sorted.Pairwise fun a b => a.le b = true
  stable : ∀ e, sorted.filter (isBeside e) = edits.filter (isBeside e)

theorem inOrder_sort (edits : List Edit) : InOrder edits (sort edits) where
  perm := sort_perm edits
  ascending := pairwise_sort edits
  stable := fun e => filter_sort_isBeside e edits

theorem isBeside_self (e : Edit) : isBeside e e = true := by
  rw [isBeside, le_refl, Bool.and_self]

/-- Ascending edits are known from those beside each place in the order. -/
theorem eq_of_filter_isBeside : ∀ {left right : List Edit},
    left.Pairwise (fun a b => a.le b = true) → right.Pairwise (fun a b => a.le b = true) →
    (∀ e, left.filter (isBeside e) = right.filter (isBeside e)) → left = right := by
  intro left
  induction left with
  | nil =>
    intro right _ _ h
    cases right with
    | nil => rfl
    | cons f right =>
      have := h f
      rw [List.filter_cons_of_pos (isBeside_self f)] at this
      cases this
  | cons e left ih =>
    intro right hl hr h
    obtain ⟨hle, hleft⟩ := List.pairwise_cons.1 hl
    cases right with
    | nil =>
      have := h e
      rw [List.filter_cons_of_pos (isBeside_self e)] at this
      cases this
    | cons f right =>
      obtain ⟨hrf, hright⟩ := List.pairwise_cons.1 hr
      have hmem (a : Edit) : a ∈ e :: left ↔ a ∈ f :: right := by
        have := congrArg (a ∈ ·) (h a)
        simpa only [List.mem_filter, isBeside_self, and_true, eq_iff_iff] using this
      have hfe : f.le e = true := by
        rcases List.mem_cons.1 ((hmem e).1 List.mem_cons_self) with rfl | he
        · exact le_refl e
        · exact hrf e he
      have hef : e.le f = true := by
        rcases List.mem_cons.1 ((hmem f).2 List.mem_cons_self) with rfl | hf
        · exact le_refl f
        · exact hle f hf
      -- The heads are beside each other, and so the first of the same edits.
      have hhead := h e
      rw [List.filter_cons_of_pos (isBeside_self e), List.filter_cons_of_pos (by rw [isBeside, hef, hfe]; rfl)]
        at hhead
      obtain ⟨rfl, -⟩ := List.cons.inj hhead
      refine congrArg (e :: ·) (ih hleft hright fun g => ?_)
      have hg := h g
      rw [List.filter_cons, List.filter_cons] at hg
      split at hg
      · exact (List.cons.inj hg).2
      · exact hg

/-- There is one stable order. -/
theorem InOrder.eq_sort (h : InOrder edits sorted) : sorted = sort edits :=
  eq_of_filter_isBeside h.ascending (pairwise_sort edits) fun e => by
    rw [h.stable, filter_sort_isBeside]

/-- What the place of an edit in the order comes from. -/
def key (e : Edit) : Int × List Int :=
  (e.start, e.order)

theorem key_eq_of_le {a b : Edit} (hab : a.le b = true) (hba : b.le a = true) : a.key = b.key := by
  rw [le_iff] at hab hba
  rcases hab with hab | ⟨hstart, hab⟩
  · omega
  · rcases hba with hba | ⟨-, hba⟩
    · omega
    · rw [key, key, hstart, orderLe_antisymm hab hba]

/-- Edits that the order tells apart are sorted in one way, however they are given. -/
theorem sort_eq_of_perm {other : List Edit} (h : other.Perm edits) (hkeys : (edits.map key).Nodup) :
    sort other = sort edits := by
  refine List.Perm.eq_of_pairwise (fun a b ha hb hab hba => ?_) (pairwise_sort other)
    (pairwise_sort edits) ((sort_perm other).trans (h.trans (sort_perm edits).symm))
  have ha : a ∈ edits := h.mem_iff.1 (mem_sort_iff.1 ha)
  exact List.inj_on_of_nodup_map hkeys ha (mem_sort_iff.1 hb) (key_eq_of_le hab hba)

/-! ## Edits that are refused -/

theorem applyFrom_cons_eq_error_iff {position : Int} {o : Overlap} :
    applyFrom text position (e :: edits) = .error o ↔
      (e.start < position ∧ o = ⟨e.start⟩) ∨
        (position ≤ e.start ∧ applyFrom text e.stop edits = .error o) := by
  rw [applyFrom]
  split
  · rename_i hlt
    rw [Except.error.injEq, eq_comm]
    simp [hlt, Int.not_le.2 hlt]
  · rename_i hle
    cases applyFrom text e.stop edits <;> simp [hle, Int.not_lt.1 hle]

/-- Edits are refused for the first that begins before the position, or before the end of an edit made
earlier. -/
theorem applyFrom_eq_error_iff {o : Overlap} (ho : ∀ e ∈ edits, e.Ordered) : ∀ {position : Int},
    applyFrom text position edits = .error o ↔ ∃ front e back, edits = front ++ e :: back ∧
      (e.start < position ∨ ∃ f ∈ front, e.start < f.stop) ∧
      (∀ f ∈ front, position ≤ f.start) ∧ front.Pairwise Apart ∧ o = ⟨e.start⟩ := by
  induction edits with
  | nil => simp [applyFrom]
  | cons e rest ih =>
    intro position
    have he : e.start ≤ e.stop := ho e List.mem_cons_self
    rw [applyFrom_cons_eq_error_iff, ih fun f hf => ho f (List.mem_cons_of_mem e hf)]
    constructor
    · rintro (⟨hlt, rfl⟩ | ⟨hle, front, f, back, rfl, hover, hfront, hapart, rfl⟩)
      · exact ⟨[], e, rest, rfl, Or.inl hlt, by simp, .nil, rfl⟩
      · refine ⟨e :: front, f, back, rfl, Or.inr ?_, fun g hg => ?_,
          List.pairwise_cons.2 ⟨hfront, hapart⟩, rfl⟩
        · rcases hover with hover | ⟨g, hg, hover⟩
          · exact ⟨e, List.mem_cons_self, hover⟩
          · exact ⟨g, List.mem_cons_of_mem e hg, hover⟩
        · rcases List.mem_cons.1 hg with rfl | hg
          · exact hle
          · have := hfront g hg
            omega
    · rintro ⟨front, f, back, hsplit, hover, hfront, hapart, rfl⟩
      cases front with
      | nil =>
        obtain ⟨rfl, -⟩ := List.cons.inj hsplit
        exact Or.inl ⟨hover.resolve_right (by simp), rfl⟩
      | cons g front =>
        obtain ⟨rfl, rfl⟩ := List.cons.inj hsplit
        obtain ⟨hge, hapart⟩ := List.pairwise_cons.1 hapart
        have hle := hfront e List.mem_cons_self
        refine Or.inr ⟨hle, front, f, back, rfl, ?_, hge, hapart, rfl⟩
        rcases hover with hover | ⟨g, hg, hover⟩
        · exact Or.inl (by omega)
        · rcases List.mem_cons.1 hg with rfl | hg
          · exact Or.inl hover
          · exact Or.inr ⟨g, hg, hover⟩

/-! ## The outcome by offsets -/

/-- The edit takes the place of the character at the offset. -/
def covers (e : Edit) (i : Nat) : Bool :=
  e.start ≤ i && i < e.stop

/-- What there is of an offset in the outcome: the texts of the edits that begin there, in their order, and
the character, unless an edit takes its place. -/
def outcomeAt (text : List Char) (sorted : List Edit) (i : Nat) : List Char :=
  (sorted.filter fun e => e.start = (i : Int)).flatMap Edit.text ++
    if sorted.any (·.covers i) then [] else text[i]?.toList

/-- What edits make of a text: offset after offset, the end of the text included. -/
def outcome (text : List Char) (sorted : List Edit) : List Char :=
  (List.range (text.length + 1)).flatMap (outcomeAt text sorted)

theorem outcomeAt_of_lt {i : Nat} (h : ∀ e ∈ sorted, (i : Int) < e.start) :
    outcomeAt text sorted i = text[i]?.toList := by
  have hnone : (sorted.filter fun e => e.start = (i : Int)) = [] :=
    List.filter_eq_nil_iff.2 fun e he => by
      have := h e he
      simp only [decide_eq_true_eq]
      omega
  have hfree : sorted.any (·.covers i) = false :=
    List.any_eq_false.2 fun e he => by
      have := h e he
      simp only [covers, Bool.and_eq_true, decide_eq_true_eq]
      omega
  rw [outcomeAt, hnone, hfree]
  rfl

/-- The first edit has no part in what comes behind it. -/
theorem outcomeAt_cons_of_lt {i : Nat} (hstart : e.start < i) (hstop : e.stop ≤ i) :
    outcomeAt text (e :: sorted) i = outcomeAt text sorted i := by
  have hcovers : e.covers i = false := by
    simp only [covers, Bool.and_eq_false_iff, decide_eq_false_iff_not]
    omega
  rw [outcomeAt, outcomeAt, List.filter_cons_of_neg (by simp only [decide_eq_true_eq]; omega), List.any_cons,
    hcovers, Bool.false_or]

/-- Without edits, the offsets from one on are the text from there on. -/
theorem flatMap_toList (text : List Char) (n : Nat) : ∀ i, i + n = text.length →
    (List.range' i (n + 1)).flatMap (fun k => text[k]?.toList) = text.drop i := by
  induction n with
  | zero =>
    intro i hi
    rw [List.drop_of_length_le (by omega), List.range'_one, List.flatMap_singleton,
      List.getElem?_eq_none (by omega)]
    rfl
  | succ n ih =>
    intro i hi
    have hlt : i < text.length := by omega
    rw [List.range'_succ, List.flatMap_cons, ih (i + 1) (by omega), List.getElem?_eq_getElem hlt,
      List.drop_eq_getElem_cons hlt]
    rfl

theorem flatMap_toList_take (text : List Char) {i j : Nat} (hij : i ≤ j) (hj : j ≤ text.length) :
    (List.range' i (j - i)).flatMap (fun k => text[k]?.toList) = (text.take j).drop i := by
  induction j, hij using Nat.le_induction with
  | base => simp
  | succ j hij ih =>
    rw [show j + 1 - i = (j - i) + 1 by omega, List.range'_concat, List.flatMap_append, ih (by omega),
      List.flatMap_singleton, List.take_add_one, List.drop_append_of_le_length (by rw [List.length_take]; omega),
      show i + 1 * (j - i) = j by omega]

/-- The offsets from one up to another, and those from there on. -/
theorem flatMap_range'_append {α : Type} (g : Nat → List α) {i j k : Nat} (hij : i ≤ j) (hjk : j ≤ k) :
    (List.range' i (k - i)).flatMap g = (List.range' i (j - i)).flatMap g ++ (List.range' j (k - j)).flatMap g := by
  rw [← List.flatMap_append, show k - i = (j - i) + (k - j) by omega, ← List.range'_append_1,
    show i + (j - i) = j by omega]

/-- An edit with its ends in order and in the text. -/
structure IsWithin (text : List Char) (e : Edit) : Prop where
  nonneg : 0 ≤ e.start
  ordered : e.start ≤ e.stop
  le_length : e.stop ≤ text.length

/-- At the offsets of an edit, and behind them, there is its text and what the edits made later come to. -/
theorem flatMap_outcomeAt_cons (hw : e.IsWithin text) (hlater : ∀ f ∈ sorted, e.stop ≤ f.start) :
    (List.range' e.start.toNat (text.length + 1 - e.start.toNat)).flatMap (outcomeAt text (e :: sorted)) =
      e.text ++
        (List.range' e.stop.toNat (text.length + 1 - e.stop.toNat)).flatMap (outcomeAt text sorted) := by
  obtain ⟨hnonneg, hordered, hlength⟩ := hw
  have hbehind (i : Nat) (hi : i ∈ List.range' (e.stop.toNat + 1) (text.length - e.stop.toNat)) :
      outcomeAt text (e :: sorted) i = outcomeAt text sorted i := by
    have := List.mem_range'_1.1 hi
    exact outcomeAt_cons_of_lt (by omega) (by omega)
  have hfirst (n : Nat) (hn : 0 < n) (g : Nat → List Char) (i : Nat) :
      (List.range' i n).flatMap g = g i ++ (List.range' (i + 1) (n - 1)).flatMap g := by
    obtain ⟨m, rfl⟩ := Nat.exists_eq_add_of_le' hn
    rw [List.range'_succ, List.flatMap_cons, Nat.add_sub_cancel]
  rcases Int.lt_or_eq_of_le hordered with hlt | heq
  · -- A range that is replaced: the text stands at its first offset, and nothing at the others.
    have hcovered (i : Nat) (h₁ : e.start ≤ i) (h₂ : (i : Int) < e.stop) :
        outcomeAt text (e :: sorted) i = if e.start = i then e.text else [] := by
      have hnone : (sorted.filter fun f => f.start = (i : Int)) = [] :=
        List.filter_eq_nil_iff.2 fun f hf => by
          have := hlater f hf
          simp only [decide_eq_true_eq]
          omega
      have hcovers : e.covers i = true := by simp [covers, h₁, h₂]
      rw [outcomeAt, List.any_cons, hcovers, Bool.true_or, if_pos rfl, List.append_nil, List.filter_cons, hnone]
      by_cases hi : e.start = i <;> simp [hi]
    have hinner : (List.range' (e.start.toNat + 1) (e.stop.toNat - (e.start.toNat + 1))).flatMap
        (outcomeAt text (e :: sorted)) = [] :=
      List.flatMap_eq_nil_iff.2 fun i hi => by
        have := List.mem_range'_1.1 hi
        rw [hcovered i (by omega) (by omega), if_neg (by omega)]
    rw [hfirst _ (by omega), hcovered _ (by omega) (by omega), if_pos (by omega),
      show text.length + 1 - e.start.toNat - 1 = text.length + 1 - (e.start.toNat + 1) by omega,
      flatMap_range'_append _ (show e.start.toNat + 1 ≤ e.stop.toNat by omega) (by omega), hinner,
      List.nil_append]
    congr 1
    refine List.flatMap_congr fun i hi => ?_
    have := List.mem_range'_1.1 hi
    exact outcomeAt_cons_of_lt (by omega) (by omega)
  · -- An insertion: its text stands before what the later edits come to at the same offset.
    have hhead : outcomeAt text (e :: sorted) e.start.toNat = e.text ++ outcomeAt text sorted e.stop.toNat := by
      have hcovers : e.covers e.start.toNat = false := by
        simp only [covers, Bool.and_eq_false_iff, decide_eq_false_iff_not]
        omega
      rw [outcomeAt, outcomeAt, List.any_cons, hcovers, Bool.false_or, ← heq,
        List.filter_cons_of_pos (by simp only [decide_eq_true_eq]; omega), List.flatMap_cons, List.append_assoc]
    rw [← heq] at hbehind hhead ⊢
    rw [hfirst _ (by omega), hhead, hfirst _ (by omega) (outcomeAt text sorted), List.append_assoc,
      show text.length + 1 - e.start.toNat - 1 = text.length - e.start.toNat by omega]
    congr 2
    exact List.flatMap_congr hbehind

theorem applyFrom_eq_outcome (hw : ∀ e ∈ edits, e.IsWithin text) : ∀ {position : Nat} {out : List Char},
    position ≤ text.length → applyFrom text position edits = .ok out →
      out = (List.range' position (text.length + 1 - position)).flatMap (outcomeAt text edits) := by
  induction edits with
  | nil =>
    intro position out hp h
    rw [applyFrom, Except.ok.injEq, sliceFrom_eq _ (Int.natCast_nonneg _), Int.toNat_natCast] at h
    have hfree : outcomeAt text [] = fun k => text[k]?.toList :=
      funext fun k => outcomeAt_of_lt (by simp)
    rw [← h, hfree, show text.length + 1 - position = (text.length - position) + 1 by omega,
      flatMap_toList _ _ _ (by omega)]
  | cons e rest ih =>
    intro position out hp h
    have he := hw e List.mem_cons_self
    have hrest := fun f hf => hw f (List.mem_cons_of_mem e hf)
    obtain ⟨hnonneg, hordered, hlength⟩ := hw e List.mem_cons_self
    rw [applyFrom] at h
    split at h
    · cases h
    · rename_i hle
      cases hr : applyFrom text e.stop rest with
      | error overlap => simp [hr] at h
      | ok after =>
        rw [hr, Except.ok.injEq, slice_eq _ (by omega) hnonneg, Int.toNat_natCast] at h
        obtain ⟨hlater, -⟩ := (applyFrom_isOk_iff (fun f hf => (hrest f hf).ordered) e.stop).1 ⟨after, hr⟩
        have hstop : ((e.stop.toNat : Nat) : Int) = e.stop := Int.toNat_of_nonneg (by omega)
        rw [← hstop] at hr
        have hafter := ih hrest (by omega) hr
        rw [← h, flatMap_range'_append _ (show position ≤ e.start.toNat by omega) (by omega),
          flatMap_outcomeAt_cons he hlater, ← hafter, List.append_assoc]
        congr 1
        rw [← flatMap_toList_take text (by omega) (by omega)]
        refine List.flatMap_congr fun i hi => (outcomeAt_of_lt fun f hf => ?_).symm
        have := List.mem_range'_1.1 hi
        rcases List.mem_cons.1 hf with rfl | hf
        · omega
        · have := hlater f hf
          omega

/-! ## What the pass comes to -/

section InOrder

variable (h : ∀ e ∈ edits, e.IsWithin text) (hs : InOrder edits sorted)

include h hs

theorem InOrder.isWithin : ∀ e ∈ sorted, e.IsWithin text :=
  fun e he => h e (hs.perm.mem_iff.1 he)

theorem InOrder.ordered : ∀ e ∈ sorted, e.Ordered :=
  fun e he => (hs.isWithin h e he).ordered

theorem InOrder.nonneg {front back : List Edit} (hsplit : sorted = front ++ e :: back) : 0 ≤ e.start := by
  refine (hs.isWithin h e ?_).nonneg
  rw [hsplit]
  exact List.mem_append_right _ List.mem_cons_self

omit h in
theorem InOrder.apply_eq : apply text edits = applyFrom text 0 sorted := by
  rw [apply, hs.eq_sort]

/-- Edits are refused for the first in the order that begins before the end of an edit before it. -/
theorem InOrder.apply_eq_error {o : Overlap} (ho : apply text edits = .error o) :
    ∃ front e back, sorted = front ++ e :: back ∧ (∃ f ∈ front, e.start < f.stop) ∧
      front.Pairwise Apart ∧ o = ⟨e.start⟩ := by
  rw [hs.apply_eq] at ho
  obtain ⟨front, e, back, hsplit, hover, -, hapart, rfl⟩ := (applyFrom_eq_error_iff (hs.ordered h)).1 ho
  exact ⟨front, e, back, hsplit, hover.resolve_left (Int.not_lt.2 (hs.nonneg h hsplit)), hapart, rfl⟩

theorem InOrder.pairwise_apart (hout : apply text edits = .ok out) : sorted.Pairwise Apart := by
  rw [hs.apply_eq] at hout
  exact ((applyFrom_isOk_iff (hs.ordered h) 0).1 ⟨out, hout⟩).2

theorem InOrder.exists_error_iff : (∃ o, apply text edits = .error o) ↔
    ∃ front e back, sorted = front ++ e :: back ∧ ∃ f ∈ front, e.start < f.stop := by
  constructor
  · rintro ⟨o, ho⟩
    obtain ⟨front, e, back, hsplit, hover, -, -⟩ := hs.apply_eq_error h ho
    exact ⟨front, e, back, hsplit, hover⟩
  · rintro ⟨front, e, back, hsplit, f, hf, hlt⟩
    cases hout : apply text edits with
    | error o => exact ⟨o, rfl⟩
    | ok out =>
      have hapart := hs.pairwise_apart h hout
      rw [hsplit, List.pairwise_append] at hapart
      have hfe : f.stop ≤ e.start := hapart.2.2 f hf e List.mem_cons_self
      omega

theorem InOrder.eq_outcome (hout : apply text edits = .ok out) : out = outcome text sorted := by
  rw [hs.apply_eq] at hout
  rw [outcome, List.range_eq_range', applyFrom_eq_outcome (hs.isWithin h) (Nat.zero_le _) hout, Nat.sub_zero]

end InOrder

theorem decimalInt_of_nonneg {i : Int} (h : 0 ≤ i) : Text.decimalInt i = Text.decimal i.toNat := by
  rw [Text.decimalInt, if_neg (Int.not_lt.2 h), show i.natAbs = i.toNat by omega]

/-- An overlap is reported with the offset at which the second edit begins. -/
theorem message_of_nonneg {i : Int} (h : 0 ≤ i) :
    Overlap.message ⟨i⟩ = "overlapping edit at offset ".toList ++ Text.decimal i.toNat :=
  congrArg ("overlapping edit at offset ".toList ++ ·) (decimalInt_of_nonneg h)

/-- Edits in a text, in the stable order, are refused if and only if one of them begins before the end of an
edit made earlier, and then for the first that does.  Otherwise the outcome holds, offset by offset, the
texts of the edits that begin there, in their order, and the characters that no edit takes the place of.
Edits that the order tells apart may be given in any order. -/
theorem apply_pass (h : ∀ e ∈ edits, e.IsWithin text) :
    (∃ sorted, InOrder edits sorted) ∧
    (∀ sorted, InOrder edits sorted →
      ((∃ o, apply text edits = .error o) ↔
        ∃ front e back, sorted = front ++ e :: back ∧ ∃ f ∈ front, e.start < f.stop) ∧
      (∀ o, apply text edits = .error o → ∃ front e back, sorted = front ++ e :: back ∧
        (∃ f ∈ front, e.start < f.stop) ∧ front.Pairwise Apart ∧
        o.message = "overlapping edit at offset ".toList ++ Text.decimal e.start.toNat) ∧
      ∀ out, apply text edits = .ok out → out = outcome text sorted) ∧
    ∀ other, other.Perm edits → (edits.map key).Nodup → apply text other = apply text edits := by
  refine ⟨⟨sort edits, inOrder_sort edits⟩, fun sorted hs => ?_, fun other hperm hkeys => ?_⟩
  · refine ⟨hs.exists_error_iff h, fun o ho => ?_, fun out hout => hs.eq_outcome h hout⟩
    obtain ⟨front, e, back, hsplit, hover, hapart, rfl⟩ := hs.apply_eq_error h ho
    exact ⟨front, e, back, hsplit, hover, hapart, message_of_nonneg (hs.nonneg h hsplit)⟩
  · rw [apply, apply, sort_eq_of_perm hperm hkeys]

/-- A character that is replaced, given before an insertion at the same offset, and an insertion behind it. -/
def replacement : List Edit :=
  [⟨1, 2, ['B'], [1, 0]⟩, ⟨1, 1, ['<'], [0, 0]⟩, ⟨2, 2, ['>'], [0, 0]⟩]

theorem isWithin_replacement : ∀ e ∈ replacement, e.IsWithin ['a', 'b', 'c'] := by
  intro e he
  simp only [replacement, List.mem_cons, List.not_mem_nil, or_false] at he
  rcases he with rfl | rfl | rfl <;> exact ⟨by decide, by decide, by decide⟩

/-- The insertion at the offset of the replacement is legal because it is made before it; made after it, it
is refused. -/
theorem apply_pass_replacement :
    (∀ e ∈ replacement, e.IsWithin ['a', 'b', 'c']) ∧
    apply ['a', 'b', 'c'] replacement = .ok (outcome ['a', 'b', 'c'] (sort replacement)) ∧
    outcome ['a', 'b', 'c'] (sort replacement) = ['a', '<', 'B', '>', 'c'] ∧
    apply ['a', 'b', 'c'] replacement.reverse = apply ['a', 'b', 'c'] replacement := by
  have happly : apply ['a', 'b', 'c'] replacement = .ok ['a', '<', 'B', '>', 'c'] := rfl
  obtain ⟨-, hsorted, hperm⟩ := apply_pass isWithin_replacement
  have hout := (hsorted _ (inOrder_sort replacement)).2.2 _ happly
  exact ⟨isWithin_replacement, hout ▸ happly, hout.symm, hperm _ (List.reverse_perm _) (by decide)⟩

/-! ## One edit at a time -/

/-- Makes one edit on a text. -/
def make (text : List Char) (e : Edit) : List Char :=
  Text.slice text 0 e.start ++ e.text ++ Text.sliceFrom text e.stop

/-- An edit finds the text before it as it was, if all that was made is behind its end. -/
theorem make_append {after : List Char} (hw : e.IsWithin text) :
    make (text.take e.stop.toNat ++ after) e = text.take e.start.toNat ++ e.text ++ after := by
  obtain ⟨hnonneg, hordered, hlength⟩ := hw
  have hstop : (text.take e.stop.toNat).length = e.stop.toNat := by
    rw [List.length_take]
    omega
  rw [make, slice_eq _ le_rfl hnonneg, sliceFrom_eq _ (by omega), List.drop_left' hstop, Int.toNat_zero,
    List.drop_zero, List.take_append_of_le_length (by omega), List.take_take, Nat.min_eq_left (by omega)]

/-- What edits come to from a position on, behind the text before it, is what they come to one by one, the
last first. -/
theorem foldl_make_of_applyFrom (hw : ∀ e ∈ edits, e.IsWithin text) : ∀ {position : Int} {out : List Char},
    0 ≤ position → applyFrom text position edits = .ok out →
      edits.reverse.foldl make text = text.take position.toNat ++ out := by
  induction edits with
  | nil =>
    intro position out hp h
    rw [applyFrom, Except.ok.injEq, sliceFrom_eq _ hp] at h
    rw [← h, List.take_append_drop]
    rfl
  | cons e rest ih =>
    intro position out hp h
    have he := hw e List.mem_cons_self
    rw [applyFrom] at h
    split at h
    · cases h
    · rename_i hle
      cases hr : applyFrom text e.stop rest with
      | error overlap => simp [hr] at h
      | ok after =>
        rw [hr, Except.ok.injEq, slice_eq _ hp he.nonneg] at h
        have hstop : 0 ≤ e.stop := he.nonneg.trans he.ordered
        have hrest := ih (fun f hf => hw f (List.mem_cons_of_mem e hf)) hstop hr
        have hsplit := List.take_append_drop position.toNat (text.take e.start.toNat)
        rw [List.take_take, Nat.min_eq_left (by omega)] at hsplit
        rw [List.reverse_cons, List.foldl_concat, hrest, make_append he, ← h]
        calc text.take e.start.toNat ++ e.text ++ after
            = text.take position.toNat ++ (text.take e.start.toNat).drop position.toNat ++ e.text ++ after := by
              rw [hsplit]
          _ = text.take position.toNat ++
              ((text.take e.start.toNat).drop position.toNat ++ e.text ++ after) := by
              simp only [List.append_assoc]

/-- One pass is as good as one edit at a time, the last of the order first: when an edit is to be made, the
text up to its end is still what it was, and so its offsets are. -/
theorem apply_singly (h : ∀ e ∈ edits, e.IsWithin text) (hs : InOrder edits sorted)
    (hout : apply text edits = .ok out) :
    out = sorted.reverse.foldl make text ∧
    ∀ front e back, sorted = front ++ e :: back →
      (back.reverse.foldl make text).take e.stop.toNat = text.take e.stop.toNat := by
  have hw := hs.isWithin h
  rw [hs.apply_eq] at hout
  refine ⟨by rw [foldl_make_of_applyFrom hw le_rfl hout, Int.toNat_zero, List.take_zero, List.nil_append], ?_⟩
  intro front e back hsplit
  subst hsplit
  have hascending := (List.pairwise_append.1 hs.ascending).2.2
  obtain ⟨before, after, -, -, hafter⟩ := exists_of_applyFrom
    (fun f hf => ⟨hs.ordered h f (List.mem_append_left _ hf),
      start_le_of_le (hascending f hf e List.mem_cons_self)⟩) le_rfl hout
  have he := hw e (List.mem_append_right _ List.mem_cons_self)
  have hback := fun f hf => hw f (List.mem_append_right _ (List.mem_cons_of_mem e hf))
  have hlength : e.stop.toNat ≤ (text.take e.stop.toNat).length := by
    have := he.le_length
    rw [List.length_take]
    omega
  rw [foldl_make_of_applyFrom hback (he.nonneg.trans he.ordered) hafter,
    List.take_append_of_le_length hlength, List.take_take, Nat.min_self]

theorem apply_singly_replacement :
    apply ['a', 'b', 'c'] replacement = .ok ((sort replacement).reverse.foldl make ['a', 'b', 'c']) ∧
    (sort replacement).reverse.foldl make ['a', 'b', 'c'] = ['a', '<', 'B', '>', 'c'] := by
  have happly : apply ['a', 'b', 'c'] replacement = .ok ['a', '<', 'B', '>', 'c'] := rfl
  obtain ⟨hout, -⟩ := apply_singly isWithin_replacement (inOrder_sort replacement) happly
  exact ⟨hout ▸ happly, hout.symm⟩

end CallTrace.Edit
