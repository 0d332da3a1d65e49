import Mathlib
import CallTrace.Edit

/-!
# Edits that leave each other alone

`apply_isOk_iff` says when a list of edits can be made at all: when every edit leaves those recorded
after it alone.  The order in which the edits are recorded counts only between edits of one offset
and one order.

`apply_append` cuts a text in two: edits that stay in the first part, and edits that begin within
the second part, are made on each part by itself.  `apply_around` is the form for a piece of the text
that no edit touches.
-/

namespace CallTrace.Edit

/-! ## The order -/

theorem orderLe_refl : ∀ as : List Int, orderLe as as = true := by
  intro as
  induction as with
  | nil => rfl
  | cons a as ih => simp [orderLe, ih]

theorem orderLe_total : ∀ as bs : List Int, orderLe as bs = true ∨ orderLe bs as = true := by
  intro as
  induction as with
  | nil => intro bs; exact Or.inl rfl
  | cons a as ih =>
    intro bs
    cases bs with
    | nil => exact Or.inr rfl
    | cons b bs =>
      rcases lt_trichotomy a b with h | h | h
      · left; simp [orderLe, h]
      · subst h
        simpa [orderLe] using ih bs
      · right; simp [orderLe, h]

theorem orderLe_trans : ∀ as bs cs : List Int,
    orderLe as bs = true → orderLe bs cs = true → orderLe as cs = true := by
  intro as
  induction as with
  | nil => intro _ _ _ _; rfl
  | cons a as ih =>
    intro bs cs hab hbc
    cases bs with
    | nil => simp [orderLe] at hab
    | cons b bs =>
      cases cs with
      | nil => simp [orderLe] at hbc
      | cons c cs =>
        simp only [orderLe] at hab hbc ⊢
        have := ih bs cs
        grind

theorem orderLe_antisymm : ∀ {as bs : List Int}, orderLe as bs = true → orderLe bs as = true → as = bs := by
  intro as
  induction as with
  | nil =>
    intro bs _ hba
    cases bs with
    | nil => rfl
    | cons b bs => simp [orderLe] at hba
  | cons a as ih =>
    intro bs hab hba
    cases bs with
    | nil => simp [orderLe] at hab
    | cons b bs =>
      rcases lt_trichotomy a b with h | rfl | h
      · simp [orderLe, h, h.not_gt] at hba
      · rw [ih (by simpa [orderLe] using hab) (by simpa [orderLe] using hba)]
      · simp [orderLe, h, h.not_gt] at hab

theorem le_iff {a b : Edit} :
    a.le b = true ↔ a.start < b.start ∨ (a.start = b.start ∧ orderLe a.order b.order = true) := by
  simp [le]

theorem start_le_of_le {a b : Edit} (h : a.le b = true) : a.start ≤ b.start := by
  rcases le_iff.1 h with h | h
  · exact le_of_lt h
  · exact le_of_eq h.1

theorem le_of_start_lt {a b : Edit} (h : a.start < b.start) : a.le b = true :=
  le_iff.2 (Or.inl h)

theorem le_of_le_of_le {a b c : Edit} (hab : a.le b = true) (hbc : b.le c = true) : a.le c = true := by
  rw [le_iff] at *
  have := orderLe_trans a.order b.order c.order
  grind

theorem le_of_not_le {a b : Edit} (h : ¬ a.le b = true) : b.le a = true := by
  rw [le_iff] at *
  have := orderLe_total a.order b.order
  grind

/-! ## Sorting -/

theorem mem_insert_iff {e f : Edit} {edits : List Edit} :
    f ∈ insert e edits ↔ f = e ∨ f ∈ edits := by
  rw [(insert_perm e edits).mem_iff, List.mem_cons]

theorem mem_sort_iff {f : Edit} {edits : List Edit} : f ∈ sort edits ↔ f ∈ edits :=
  (sort_perm edits).mem_iff

theorem pairwise_insert {e : Edit} {edits : List Edit}
    (h : edits.Pairwise fun a b => a.le b = true) :
    (insert e edits).Pairwise fun a b => a.le b = true := by
  induction edits with
  | nil => simp [insert]
  | cons f rest ih =>
    obtain ⟨hf, hr⟩ := List.pairwise_cons.1 h
    rw [insert]
    split
    · rename_i hef
      refine List.pairwise_cons.2 ⟨?_, h⟩
      intro g hg
      rcases List.mem_cons.1 hg with rfl | hg
      · exact hef
      · exact le_of_le_of_le hef (hf g hg)
    · rename_i hef
      refine List.pairwise_cons.2 ⟨?_, ih hr⟩
      intro g hg
      rcases mem_insert_iff.1 hg with rfl | hg
      · exact le_of_not_le hef
      · exact hf g hg

theorem pairwise_sort (edits : List Edit) : (sort edits).Pairwise fun a b => a.le b = true := by
  induction edits with
  | nil => exact List.Pairwise.nil
  | cons e rest ih => exact pairwise_insert ih

theorem insert_append_left {e : Edit} {front back : List Edit}
    (h : ∀ b ∈ back, e.le b = true) : insert e (front ++ back) = insert e front ++ back := by
  induction front with
  | nil =>
    cases back with
    | nil => rfl
    | cons b back => simp [insert, h b List.mem_cons_self]
  | cons f front ih =>
    rw [List.cons_append, insert, insert]
    split
    · rfl
    · rw [ih, List.cons_append]

theorem insert_append_right {e : Edit} {front back : List Edit}
    (h : ∀ a ∈ front, ¬ e.le a = true) : insert e (front ++ back) = front ++ insert e back := by
  induction front with
  | nil => rfl
  | cons f front ih =>
    rw [List.cons_append, insert, if_neg (h f List.mem_cons_self),
      ih fun a ha => h a (List.mem_cons_of_mem f ha), List.cons_append]

theorem sort_append {front back : List Edit}
    (h : ∀ a ∈ front, ∀ b ∈ back, a.start < b.start) :
    sort (front ++ back) = sort front ++ sort back := by
  induction front with
  | nil => rfl
  | cons e rest ih =>
    rw [List.cons_append, sort, ih fun a ha => h a (List.mem_cons_of_mem e ha), sort]
    exact insert_append_left fun b hb => le_of_start_lt (h e List.mem_cons_self b (mem_sort_iff.1 hb))

/-- Where all edits of one kind are made before all others, each kind is sorted by itself. -/
theorem sort_eq_append_filter_of_not_le (p : Edit → Bool) {edits : List Edit}
    (h : ∀ a ∈ edits, ∀ b ∈ edits, p a = true → p b = false → ¬ b.le a = true) :
    sort edits = sort (edits.filter p) ++ sort (edits.filter fun e => !p e) := by
  induction edits with
  | nil => rfl
  | cons e rest ih =>
    have hr : ∀ a ∈ rest, ∀ b ∈ rest, p a = true → p b = false → ¬ b.le a = true :=
      fun a ha b hb => h a (List.mem_cons_of_mem e ha) b (List.mem_cons_of_mem e hb)
    rw [sort, ih hr]
    by_cases hp : p e = true
    · rw [List.filter_cons_of_pos hp, List.filter_cons_of_neg (by simp [hp]), sort]
      refine insert_append_left fun b hb => ?_
      obtain ⟨hb, hpb⟩ := List.mem_filter.1 (mem_sort_iff.1 hb)
      exact le_of_not_le (h e List.mem_cons_self b (List.mem_cons_of_mem e hb) hp (by simpa using hpb))
    · rw [List.filter_cons_of_neg hp, List.filter_cons_of_pos (by simp [hp]), sort]
      refine insert_append_right fun a ha hea => ?_
      obtain ⟨ha, hpa⟩ := List.mem_filter.1 (mem_sort_iff.1 ha)
      exact h a (List.mem_cons_of_mem e ha) e List.mem_cons_self hpa (by simpa using hp) hea

/-- Where all edits of one kind begin before all others, each kind is sorted by itself. -/
theorem sort_eq_append_filter (p : Edit → Bool) {edits : List Edit}
    (h : ∀ a ∈ edits, ∀ b ∈ edits, p a = true → p b = false → a.start < b.start) :
    sort edits = sort (edits.filter p) ++ sort (edits.filter fun e => !p e) := by
  refine sort_eq_append_filter_of_not_le p fun a ha b hb hpa hpb hle => ?_
  have hlt := h a ha b hb hpa hpb
  have hle := start_le_of_le hle
  omega

/-! ## When edits can be made -/

/-- An edit leaves another alone that is recorded after it: the one that is made first ends before
the other begins. -/
def Clears (a b : Edit) : Prop :=
  if a.le b = true then a.stop ≤ b.start else b.stop ≤ a.start

/-- Each edit ends before the next begins. -/
abbrev Apart (a b : Edit) : Prop := a.stop ≤ b.start

theorem pairwise_insert_apart {e : Edit} {edits : List Edit}
    (h : edits.Pairwise fun a b => a.le b = true) :
    (insert e edits).Pairwise Apart ↔ edits.Pairwise Apart ∧ ∀ f ∈ edits, e.Clears f := by
  induction edits with
  | nil => simp [insert]
  | cons f rest ih =>
    obtain ⟨hf, hr⟩ := List.pairwise_cons.1 h
    rw [insert]
    split
    · rename_i hef
      have hclear : ∀ g ∈ f :: rest, (e.Clears g ↔ e.Apart g) := by
        intro g hg
        have heg : e.le g = true := by
          rcases List.mem_cons.1 hg with rfl | hg
          · exact hef
          · exact le_of_le_of_le hef (hf g hg)
        rw [Clears, if_pos heg]
      rw [List.pairwise_cons, and_comm]
      exact and_congr_right fun _ => forall₂_congr fun g hg => (hclear g hg).symm
    · rename_i hef
      have hfe : e.Clears f ↔ f.Apart e := by rw [Clears, if_neg hef]
      rw [List.pairwise_cons, ih hr, List.pairwise_cons]
      simp only [mem_insert_iff, List.mem_cons, forall_eq_or_imp, hfe]
      tauto

theorem pairwise_sort_apart (edits : List Edit) :
    (sort edits).Pairwise Apart ↔ edits.Pairwise Clears := by
  induction edits with
  | nil => simp [sort]
  | cons e rest ih =>
    rw [sort, pairwise_insert_apart (pairwise_sort rest), ih, List.pairwise_cons, and_comm]
    simp only [mem_sort_iff]

/-- An edit with its ends in order. -/
abbrev Ordered (e : Edit) : Prop := e.start ≤ e.stop

theorem applyFrom_isOk_iff {text : List Char} {edits : List Edit} (h : ∀ e ∈ edits, e.Ordered) :
    ∀ position : Int, (∃ out, applyFrom text position edits = .ok out) ↔
      (∀ e ∈ edits, position ≤ e.start) ∧ edits.Pairwise Apart := by
  induction edits with
  | nil => intro position; simp [applyFrom]
  | cons e rest ih =>
    intro position
    have hrest := ih fun f hf => h f (List.mem_cons_of_mem e hf)
    have he : e.start ≤ e.stop := h e List.mem_cons_self
    have step : (∃ out, applyFrom text position (e :: rest) = .ok out) ↔
        position ≤ e.start ∧ ∃ after, applyFrom text e.stop rest = .ok after := by
      rw [applyFrom]
      split
      · rename_i hlt
        simp only [reduceCtorEq, exists_false, false_iff, not_and]
        omega
      · rename_i hlt
        cases applyFrom text e.stop rest with
        | error overlap => simp
        | ok after => simpa using hlt
    rw [step, hrest, List.pairwise_cons]
    constructor
    · rintro ⟨hp, hs, hr⟩
      refine ⟨fun f hf => ?_, hs, hr⟩
      rcases List.mem_cons.1 hf with rfl | hf
      · exact hp
      · have := hs f hf
        omega
    · rintro ⟨hp, hs, hr⟩
      exact ⟨hp e List.mem_cons_self, hs, hr⟩

/-- Edits can be made if and only if each leaves those recorded after it alone. -/
theorem apply_isOk_iff {text : List Char} {edits : List Edit}
    (h : ∀ e ∈ edits, 0 ≤ e.start ∧ e.Ordered) :
    (∃ out, apply text edits = .ok out) ↔ edits.Pairwise Clears := by
  rw [apply, applyFrom_isOk_iff (fun e he => (h e (mem_sort_iff.1 he)).2), pairwise_sort_apart]
  exact and_iff_right fun e he => (h e (mem_sort_iff.1 he)).1

/-! ## Two parts of a text -/

/-- The edit for a text that begins `n` characters later. -/
def move (n : Int) (e : Edit) : Edit :=
  { e with start := e.start + n, stop := e.stop + n }

@[simp] theorem move_start (n : Int) (e : Edit) : (e.move n).start = e.start + n := rfl

@[simp] theorem move_stop (n : Int) (e : Edit) : (e.move n).stop = e.stop + n := rfl

@[simp] theorem move_text (n : Int) (e : Edit) : (e.move n).text = e.text := rfl

theorem move_le_move (n : Int) (a b : Edit) : (a.move n).le (b.move n) = a.le b := by
  simp [le, move]

section Map

variable {g : Edit → Edit} {edits : List Edit}

theorem insert_map {e : Edit} (h : ∀ f ∈ edits, (g e).le (g f) = e.le f) :
    insert (g e) (edits.map g) = (insert e edits).map g := by
  induction edits with
  | nil => rfl
  | cons f rest ih =>
    rw [List.map_cons, insert, insert, h f List.mem_cons_self,
      ih fun f' hf => h f' (List.mem_cons_of_mem f hf)]
    split <;> rfl

/-- Edits that are changed without a change of their order are sorted as before. -/
theorem sort_map (h : ∀ a ∈ edits, ∀ b ∈ edits, (g a).le (g b) = a.le b) :
    sort (edits.map g) = (sort edits).map g := by
  induction edits with
  | nil => rfl
  | cons e rest ih =>
    have hrest := ih fun a ha b hb => h a (List.mem_cons_of_mem e ha) b (List.mem_cons_of_mem e hb)
    rw [List.map_cons, sort, hrest, sort]
    exact insert_map fun f hf => h e List.mem_cons_self f (List.mem_cons_of_mem e (mem_sort_iff.1 hf))

end Map

theorem sort_map_move (n : Int) (edits : List Edit) :
    sort (edits.map (move n)) = (sort edits).map (move n) :=
  sort_map fun a _ b _ => move_le_move n a b

theorem slice_eq {α : Type} (items : List α) {p q : Int} (hp : 0 ≤ p) (hq : 0 ≤ q) :
    Text.slice items p q = (items.take q.toNat).drop p.toNat := by
  rw [Text.slice, Text.place, Text.place, if_neg (by omega), if_neg (by omega), Nat.min_comm _ q.toNat,
    ← List.take_eq_take_min]
  rcases Nat.le_total items.length p.toNat with h | h
  · rw [List.drop_of_length_le, List.drop_of_length_le] <;> rw [List.length_take] <;> omega
  · rw [Nat.min_eq_right h]

theorem sliceFrom_eq {α : Type} (items : List α) {p : Int} (hp : 0 ≤ p) :
    Text.sliceFrom items p = items.drop p.toNat := by
  rw [Text.sliceFrom, Text.place, if_neg (by omega)]
  rcases Nat.le_total items.length p.toNat with h | h
  · rw [Nat.min_eq_left h, List.drop_of_length_le h, List.drop_length]
  · rw [Nat.min_eq_right h]

theorem drop_eq_append {α : Type} (items : List α) {i j : Nat} (h : i ≤ j) :
    items.drop i = (items.take j).drop i ++ items.drop j := by
  have hsplit := List.drop_take_append_drop items i (j - i)
  rw [Nat.add_sub_cancel' h] at hsplit
  rw [List.drop_take, hsplit]

/-- Edits on the second part of a text. -/
theorem applyFrom_append_right (front : List Char) {back : List Char} {edits : List Edit}
    (ho : ∀ e ∈ edits, e.Ordered) :
    ∀ {position : Int} {out : List Char}, 0 ≤ position →
      applyFrom back position edits = .ok out →
      applyFrom (front ++ back) (position + front.length) (edits.map (move front.length)) = .ok out := by
  induction edits with
  | nil =>
    intro position out hp h
    rw [applyFrom, Except.ok.injEq, sliceFrom_eq _ hp] at h
    rw [List.map_nil, applyFrom, sliceFrom_eq _ (by omega), ← h,
      show (position + front.length).toNat = front.length + position.toNat by omega,
      List.drop_append]
    simp
  | cons e rest ih =>
    intro position out hp h
    have he : e.start ≤ e.stop := ho e List.mem_cons_self
    rw [applyFrom] at h
    split at h
    · cases h
    · rename_i hpe
      cases hr : applyFrom back e.stop rest with
      | error overlap => simp [hr] at h
      | ok after =>
        rw [hr, Except.ok.injEq] at h
        have hrest := ih (fun f hf => ho f (List.mem_cons_of_mem e hf)) (by omega) hr
        rw [List.map_cons, applyFrom, move_start, move_stop, if_neg (by omega), hrest, move_text, ← h,
          slice_eq _ hp (by omega), slice_eq _ (by omega) (by omega)]
        have hq : (e.start + front.length).toNat = front.length + e.start.toNat := by omega
        have hp' : (position + front.length).toNat = front.length + position.toNat := by omega
        rw [hq, hp', List.take_append, List.drop_append]
        simp

/-- Edits on each of two parts of a text. -/
theorem applyFrom_append (front : List Char) {back : List Char} {left right : List Edit}
    (hl : ∀ e ∈ left, e.Ordered ∧ e.stop ≤ front.length)
    (hr : ∀ e ∈ right, 0 ≤ e.start ∧ e.Ordered) {after : List Char}
    (ha : applyFrom back 0 right = .ok after) :
    ∀ {position : Int} {before : List Char}, 0 ≤ position → position ≤ front.length →
      applyFrom front position left = .ok before →
      applyFrom (front ++ back) position (left ++ right.map (move front.length)) =
        .ok (before ++ after) := by
  induction left with
  | nil =>
    intro position before hp hpl h
    rw [applyFrom, Except.ok.injEq, sliceFrom_eq _ hp] at h
    rw [List.nil_append, ← h]
    cases right with
    | nil =>
      rw [applyFrom, Except.ok.injEq, sliceFrom_eq _ le_rfl] at ha
      rw [List.map_nil, applyFrom, sliceFrom_eq _ hp, ← ha, List.drop_append_of_le_length (by omega)]
      rfl
    | cons e rest =>
      obtain ⟨he, heo⟩ := hr e List.mem_cons_self
      rw [applyFrom, if_neg (by omega)] at ha
      cases hrest : applyFrom back e.stop rest with
      | error overlap => simp [hrest] at ha
      | ok last =>
        rw [hrest, Except.ok.injEq, slice_eq _ le_rfl he] at ha
        have hmoved := applyFrom_append_right front
          (fun f hf => (hr f (List.mem_cons_of_mem e hf)).2) (by omega) hrest
        rw [List.map_cons, applyFrom, move_start, move_stop, if_neg (by omega), hmoved, move_text, ← ha,
          slice_eq _ hp (by omega),
          show (e.start + front.length).toNat = front.length + e.start.toNat by omega,
          List.take_append, List.take_of_length_le (by omega), List.drop_append_of_le_length (by omega)]
        simp
  | cons e rest ih =>
    intro position before hp hpl h
    obtain ⟨heo, hel⟩ := hl e List.mem_cons_self
    have heo : e.start ≤ e.stop := heo
    rw [applyFrom] at h
    split at h
    · cases h
    · rename_i hpe
      cases hrest : applyFrom front e.stop rest with
      | error overlap => simp [hrest] at h
      | ok middle =>
        rw [hrest, Except.ok.injEq] at h
        have := ih (fun f hf => hl f (List.mem_cons_of_mem e hf)) (by omega) hel hrest
        rw [List.cons_append, applyFrom, if_neg hpe, this, ← h, slice_eq _ hp (by omega),
          slice_eq _ hp (by omega), List.take_append_of_le_length (by omega)]
        simp

/-- Edits in the first part of a text, and edits that begin within the second part, are made on each
part by itself. -/
theorem apply_append {front back before after : List Char} {left right : List Edit}
    (hl : ∀ e ∈ left, 0 ≤ e.start ∧ e.Ordered ∧ e.stop ≤ front.length)
    (hr : ∀ e ∈ right, 0 < e.start ∧ e.Ordered)
    (hb : apply front left = .ok before) (ha : apply back right = .ok after) :
    apply (front ++ back) (left ++ right.map (move front.length)) = .ok (before ++ after) := by
  have hsort : sort (left ++ right.map (move front.length)) =
      sort left ++ sort (right.map (move front.length)) := by
    refine sort_append fun a hla b hrb => ?_
    obtain ⟨-, h₁, h₂⟩ := hl a hla
    obtain ⟨f, hf, rfl⟩ := List.mem_map.1 hrb
    have := (hr f hf).1
    have h₁ : a.start ≤ a.stop := h₁
    rw [move_start]
    omega
  rw [apply, hsort, sort_map_move]
  refine applyFrom_append front (fun e he => (hl e (mem_sort_iff.1 he)).2)
    (fun e he => ?_) ha le_rfl (by omega) hb
  obtain ⟨h₁, h₂⟩ := hr e (mem_sort_iff.1 he)
  exact ⟨le_of_lt h₁, h₂⟩

theorem move_move (m n : Int) (e : Edit) : (e.move m).move n = e.move (m + n) := by
  simp [move, add_assoc]

theorem map_move_cancel {m n : Int} (h : m + n = 0) (edits : List Edit) :
    (edits.map (move m)).map (move n) = edits := by
  rw [List.map_map]
  refine (List.map_congr_left fun e _ => ?_).trans (List.map_id edits)
  rw [Function.comp_apply, move_move, h]
  simp [move]

theorem clears_move_iff (n : Int) (a b : Edit) : (a.move n).Clears (b.move n) ↔ a.Clears b := by
  rw [Clears, Clears, move_le_move]
  split <;> simp

/-- Whether an edit ends at or before an offset. -/
def endsBy (offset : Nat) (e : Edit) : Bool :=
  decide (e.stop ≤ offset)

/-- A piece of the text that no edit touches stands as it is in the outcome, between what the edits
before it make of the text before it and what those after it make of the text after it. -/
theorem apply_around {front middle back out : List Char} {edits : List Edit}
    (hm : 0 < middle.length) (ho : ∀ e ∈ edits, 0 ≤ e.start ∧ e.Ordered)
    (hc : ∀ e ∈ edits, e.stop ≤ front.length ∨ (front.length + middle.length : Int) ≤ e.start)
    (h : apply (front ++ middle ++ back) edits = .ok out) :
    ∃ before after, out = before ++ middle ++ after ∧
      apply front (edits.filter (endsBy front.length)) = .ok before ∧
      apply back ((edits.filter fun e => !e.endsBy front.length).map
        (move (-(front.length + middle.length)))) = .ok after := by
  have hpair : edits.Pairwise Clears := (apply_isOk_iff ho).1 ⟨out, h⟩
  have hright : ∀ e ∈ edits.filter fun e => !e.endsBy front.length,
      (front.length + middle.length : Int) ≤ e.start ∧ e.Ordered := by
    intro e he
    obtain ⟨he, hn⟩ := List.mem_filter.1 he
    refine ⟨(hc e he).resolve_left ?_, (ho e he).2⟩
    simpa [endsBy] using hn
  have hmoved : ∀ e ∈ (edits.filter fun e => !e.endsBy front.length).map
      (move (-(front.length + middle.length))), 0 ≤ e.start ∧ e.Ordered := by
    intro e he
    obtain ⟨f, hf, rfl⟩ := List.mem_map.1 he
    obtain ⟨h₁, h₂⟩ := hright f hf
    refine ⟨?_, ?_⟩
    · rw [move_start]
      omega
    · rw [Ordered, move_start, move_stop]
      have : f.start ≤ f.stop := h₂
      omega
  obtain ⟨before, hbefore⟩ : ∃ before,
      apply front (edits.filter (endsBy front.length)) = .ok before :=
    (apply_isOk_iff fun e he => ho e (List.mem_of_mem_filter he)).2 (hpair.filter _)
  obtain ⟨after, hafter⟩ : ∃ after, apply back ((edits.filter fun e =>
      !e.endsBy front.length).map (move (-(front.length + middle.length)))) = .ok after := by
    refine (apply_isOk_iff hmoved).2 (List.pairwise_map.2 ?_)
    exact (hpair.filter _).imp fun {a b} hab => (clears_move_iff _ a b).2 hab
  refine ⟨before, after, ?_, hbefore, hafter⟩
  have hsort : sort edits = sort (edits.filter (endsBy front.length)) ++
      sort (edits.filter fun e => !e.endsBy front.length) := by
    refine sort_eq_append_filter _ fun a ha b hb hpa hpb => ?_
    simp only [endsBy, decide_eq_true_eq, decide_eq_false_iff_not] at hpa hpb
    have h₁ : a.start ≤ a.stop := (ho a ha).2
    have h₂ := (hc b hb).resolve_left hpb
    omega
  -- The edits after the piece are moved to the text after it in two steps, over the piece and over
  -- the text before it.
  rw [apply, sort_map_move] at hafter
  have hsorted : ∀ e ∈ (sort (edits.filter fun e => !e.endsBy front.length)).map
      (move (-(front.length + middle.length))), 0 ≤ e.start ∧ e.Ordered := by
    rw [← sort_map_move]
    exact fun e he => hmoved e (mem_sort_iff.1 he)
  have hpiece := applyFrom_append middle
    (fun e he => absurd he List.not_mem_nil) hsorted hafter le_rfl (by omega)
    (show applyFrom middle 0 [] = .ok middle by rw [applyFrom, sliceFrom_eq _ le_rfl]; rfl)
  have hwhole := applyFrom_append front
    (fun e he => by
      obtain ⟨he, hp⟩ := List.mem_filter.1 (mem_sort_iff.1 he)
      exact ⟨(ho e he).2, by simpa [endsBy] using hp⟩)
    (fun e he => by
      rw [List.nil_append] at he
      obtain ⟨f, hf, rfl⟩ := List.mem_map.1 he
      obtain ⟨h₁, h₂⟩ := hsorted f hf
      refine ⟨?_, ?_⟩
      · rw [move_start]
        omega
      · rw [Ordered, move_start, move_stop]
        have : f.start ≤ f.stop := h₂
        omega)
    hpiece le_rfl (by omega) hbefore
  rw [List.nil_append, List.map_map, show move front.length ∘ move middle.length =
      move (middle.length + front.length) from funext fun e => move_move _ _ e,
    map_move_cancel (by omega), ← hsort, ← List.append_assoc] at hwhole
  rw [apply] at h
  rw [hwhole] at h
  simpa using h.symm

end CallTrace.Edit
