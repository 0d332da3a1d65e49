import Mathlib
import CallTrace.Proofs.Edit

/-!
# What is made between two insertions

`apply_between` is about two edits that only insert, one made before the other, with no other edits beside
them in the order.  In the outcome the two inserted texts stand around what the edits made between them
come to on the piece of text between them.  The piece is edited by itself: it is a text of its own, and
the edits are moved to it.

At one offset edits are told apart by their orders alone, so the edits between the two are those that come
strictly after the one and strictly before the other in the order (`isBetween`); the offsets do not say
which they are.
-/

namespace CallTrace.Edit

variable {e f opens closes : Edit} {edits left right : List Edit} {text out : List Char}

/-! ## Edits before, beside and after an edit -/

/-- The edit is made after the first one and before the second one. -/
def isBetween (opens closes e : Edit) : Bool :=
  !e.le opens && !closes.le e

/-- The order does not tell the edits apart. -/
def isBeside (e f : Edit) : Bool :=
  e.le f && f.le e

theorem isBetween_iff : isBetween opens closes e = true ↔ ¬ e.le opens = true ∧ ¬ closes.le e = true := by
  simp [isBetween]

theorem le_refl (e : Edit) : e.le e = true :=
  le_iff.2 (Or.inr ⟨rfl, orderLe_refl _⟩)

theorem not_le_trans {a b c : Edit} (hab : ¬ b.le a = true) (hbc : ¬ c.le b = true) : ¬ c.le a = true :=
  fun hca => hbc (le_of_le_of_le hca (le_of_not_le hab))

theorem sort_eq_self (h : edits.Pairwise fun a b => a.le b = true) : sort edits = edits := by
  induction edits with
  | nil => rfl
  | cons e rest ih =>
    obtain ⟨he, hrest⟩ := List.pairwise_cons.1 h
    rw [sort, ih hrest]
    cases rest with
    | nil => rfl
    | cons f rest => rw [insert, if_pos (he f List.mem_cons_self)]

/-- The edits beside a place in the order stand together, in the order in which they were given. -/
theorem sort_eq_beside (e : Edit) (edits : List Edit) :
    sort edits = sort (edits.filter fun f => !e.le f) ++
      (edits.filter (isBeside e) ++ sort (edits.filter fun f => !f.le e)) := by
  have hfirst : sort edits = sort (edits.filter fun f => !e.le f) ++ sort (edits.filter fun f => e.le f) := by
    have hsplit := @sort_eq_append_filter_of_not_le (fun f => !e.le f) edits
      fun a _ b _ ha hb hba => by
        simp only [Bool.not_eq_true', Bool.not_eq_false'] at ha hb
        rw [le_of_le_of_le hb hba] at ha
        cases ha
    simpa using hsplit
  have hbeside : (edits.filter (isBeside e)).Pairwise fun a b => a.le b = true := by
    refine List.pairwise_of_forall_mem_list fun a ha b hb => ?_
    have ha := (List.mem_filter.1 ha).2
    have hb := (List.mem_filter.1 hb).2
    rw [isBeside, Bool.and_eq_true] at ha hb
    exact le_of_le_of_le ha.2 hb.1
  have hrest : sort (edits.filter fun f => e.le f) =
      sort (edits.filter (isBeside e)) ++ sort (edits.filter fun f => !f.le e) := by
    have hsplit := @sort_eq_append_filter_of_not_le (fun f => f.le e)
      (edits.filter fun f => e.le f) fun a _ b _ ha hb hba => by
        rw [le_of_le_of_le hba ha] at hb
        cases hb
    rw [List.filter_filter, List.filter_filter] at hsplit
    rw [hsplit]
    congr 3
    · funext f
      rw [isBeside, Bool.and_comm]
    · funext f
      by_cases hf : f.le e = true
      · simp [hf]
      · simp [hf, le_of_not_le hf]
  rw [hfirst, hrest, sort_eq_self hbeside]

/-- Sorting leaves the edits beside a place in the order as they were. -/
theorem filter_sort_isBeside (e : Edit) (edits : List Edit) :
    (sort edits).filter (isBeside e) = edits.filter (isBeside e) := by
  have hbefore : (sort (edits.filter fun f => !e.le f)).filter (isBeside e) = [] := by
    refine List.filter_eq_nil_iff.2 fun f hf => ?_
    have hf := (List.mem_filter.1 (mem_sort_iff.1 hf)).2
    simp_all [isBeside]
  have hafter : (sort (edits.filter fun f => !f.le e)).filter (isBeside e) = [] := by
    refine List.filter_eq_nil_iff.2 fun f hf => ?_
    have hf := (List.mem_filter.1 (mem_sort_iff.1 hf)).2
    simp_all [isBeside]
  rw [sort_eq_beside e, List.filter_append, List.filter_append, hbefore, hafter, List.filter_filter]
  simp

/-- An edit with none beside it splits the others into those made before it and those made after it. -/
theorem sort_eq_of_alone (h : edits.filter (isBeside e) = [e]) :
    sort edits = sort (edits.filter fun f => !e.le f) ++ e :: sort (edits.filter fun f => !f.le e) := by
  rw [sort_eq_beside e, h]
  rfl

/-! ## Before and after one edit -/

/-- What is made before an edit is made on the text before it. -/
theorem exists_of_applyFrom (hl : ∀ f ∈ left, f.Ordered ∧ f.start ≤ e.start) :
    ∀ {position : Int} {out : List Char}, 0 ≤ position →
      applyFrom text position (left ++ e :: right) = .ok out →
      ∃ before after, out = before ++ e.text ++ after ∧
        applyFrom (text.take e.start.toNat) position left = .ok before ∧
        applyFrom text e.stop right = .ok after := by
  induction left with
  | nil =>
    intro position out hp h
    rw [List.nil_append, applyFrom] at h
    split at h
    · cases h
    · rename_i hpe
      cases hr : applyFrom text e.stop right with
      | error overlap => simp [hr] at h
      | ok after =>
        rw [hr, Except.ok.injEq] at h
        refine ⟨_, after, h.symm, ?_, rfl⟩
        rw [applyFrom, sliceFrom_eq _ hp, slice_eq _ hp (by omega)]
  | cons f rest ih =>
    intro position out hp h
    obtain ⟨hfo, hfe⟩ := hl f List.mem_cons_self
    have hfo : f.start ≤ f.stop := hfo
    rw [List.cons_append, applyFrom] at h
    split at h
    · cases h
    · rename_i hpf
      cases hr : applyFrom text f.stop (rest ++ e :: right) with
      | error overlap => simp [hr] at h
      | ok made =>
        rw [hr, Except.ok.injEq] at h
        obtain ⟨before, after, rfl, hbefore, hafter⟩ :=
          ih (fun g hg => hl g (List.mem_cons_of_mem f hg)) (by omega) hr
        refine ⟨Text.slice text position f.start ++ f.text ++ before, after, ?_, ?_, hafter⟩
        · rw [← h]
          simp only [List.append_assoc]
        · rw [applyFrom, if_neg hpf, hbefore, slice_eq _ hp (by omega), slice_eq _ hp (by omega),
            List.take_take, Nat.min_eq_left (by omega)]

/-- What is made from an offset on is made on the rest of the text. -/
theorem applyFrom_drop {n : Nat} (hn : n ≤ text.length) (ho : ∀ e ∈ edits, e.Ordered)
    (h : applyFrom text n edits = .ok out) :
    applyFrom (text.drop n) 0 (edits.map (move (-n))) = .ok out := by
  have hordered : ∀ e ∈ edits.map (move (-n)), e.Ordered := by
    intro e he
    obtain ⟨f, hf, rfl⟩ := List.mem_map.1 he
    have hf : f.start ≤ f.stop := ho f hf
    rw [Ordered, move_start, move_stop]
    omega
  obtain ⟨hstarts, hpairs⟩ := (applyFrom_isOk_iff ho _).1 ⟨out, h⟩
  obtain ⟨made, hmade⟩ : ∃ made, applyFrom (text.drop n) 0 (edits.map (move (-n))) = .ok made := by
    refine (applyFrom_isOk_iff hordered _).2 ⟨fun e he => ?_, List.pairwise_map.2 (hpairs.imp fun h => ?_)⟩
    · obtain ⟨f, hf, rfl⟩ := List.mem_map.1 he
      have := hstarts f hf
      rw [move_start]
      omega
    · simpa [Apart] using h
  have hback := applyFrom_append_right (text.take n) hordered le_rfl hmade
  rw [List.take_append_drop, List.length_take, Nat.min_eq_left hn, map_move_cancel (by omega), zero_add,
    h, Except.ok.injEq] at hback
  rw [hmade, hback]

/-- The texts of insertions at one place stand one after the other. -/
theorem exists_of_insertions {position : Int} (hp : 0 ≤ position)
    (hl : ∀ f ∈ left, f.start = position ∧ f.stop = position) : ∀ {out : List Char},
      applyFrom text position (left ++ right) = .ok out →
      ∃ after, out = left.flatMap Edit.text ++ after ∧ applyFrom text position right = .ok after := by
  induction left with
  | nil => exact fun h => ⟨_, rfl, h⟩
  | cons f rest ih =>
    intro out h
    obtain ⟨hstart, hstop⟩ := hl f List.mem_cons_self
    rw [List.cons_append, applyFrom, if_neg (by omega), hstart, hstop] at h
    cases hr : applyFrom text position (rest ++ right) with
    | error overlap => simp [hr] at h
    | ok made =>
      rw [hr, Except.ok.injEq, slice_eq _ hp hp] at h
      obtain ⟨after, rfl, hafter⟩ := ih (fun g hg => hl g (List.mem_cons_of_mem f hg)) hr
      refine ⟨after, ?_, hafter⟩
      rw [← h, List.drop_of_length_le (by rw [List.length_take]; omega)]
      simp

/-- The insertions beside a place in the order stand together in the outcome, between what the edits before
them come to on the text before the place and what those after them come to on the rest. -/
theorem apply_at {i : Nat} (hi : i ≤ text.length) (ho : ∀ f ∈ edits, 0 ≤ f.start ∧ f.Ordered)
    (he : e.start = i) (hbeside : ∀ f ∈ edits.filter (isBeside e), f.start = i ∧ f.stop = i)
    (hne : edits.filter (isBeside e) ≠ []) (h : apply text edits = .ok out) :
    ∃ before after, out = before ++ (edits.filter (isBeside e)).flatMap Edit.text ++ after ∧
      apply (text.take i) (edits.filter fun f => !e.le f) = .ok before ∧
      apply (text.drop i) ((edits.filter fun f => !f.le e).map (move (-i))) = .ok after := by
  have hsort := sort_eq_beside e edits
  obtain ⟨f, rest, hfirst⟩ := List.exists_cons_of_ne_nil hne
  rw [hfirst] at hsort hbeside ⊢
  obtain ⟨hf, hrest⟩ := List.forall_mem_cons.1 hbeside
  rw [apply, hsort, List.cons_append] at h
  obtain ⟨before, made, rfl, hbefore, hmade⟩ := exists_of_applyFrom (fun g hg => by
    obtain ⟨hg, hle⟩ := List.mem_filter.1 (mem_sort_iff.1 hg)
    have hle := start_le_of_le (le_of_not_le (by simpa using hle : ¬ e.le g = true))
    exact ⟨(ho g hg).2, by omega⟩) le_rfl h
  rw [hf.2] at hmade
  obtain ⟨after, rfl, hafter⟩ := exists_of_insertions (Int.natCast_nonneg i) hrest hmade
  rw [hf.1, Int.toNat_natCast] at hbefore
  refine ⟨before, after, by simp only [List.flatMap_cons, List.append_assoc], hbefore, ?_⟩
  rw [apply, sort_map_move]
  refine applyFrom_drop hi (fun g hg => ?_) hafter
  exact (ho g (List.mem_of_mem_filter (mem_sort_iff.1 hg))).2

/-! ## Between two edits -/

/-- The texts of two insertions stand around what the edits made between them come to on the text between
them; before the first there is what the edits made before it come to on the text before it, and after the
second what those made after it come to on the rest. -/
theorem apply_between {i j : Nat} (hj : j ≤ text.length)
    (ho : ∀ e ∈ edits, 0 ≤ e.start ∧ e.Ordered)
    (hopens : opens.start = i ∧ opens.stop = i) (hcloses : closes.start = j ∧ closes.stop = j)
    (hlt : ¬ closes.le opens = true) (hfirst : edits.filter (isBeside opens) = [opens])
    (hlast : edits.filter (isBeside closes) = [closes]) (h : apply text edits = .ok out) :
    ∃ before inner after, out = before ++ opens.text ++ inner ++ closes.text ++ after ∧
      apply (text.take i) (edits.filter fun e => !opens.le e) = .ok before ∧
      apply ((text.take j).drop i) ((edits.filter (isBetween opens closes)).map (move (-i))) = .ok inner ∧
      apply (text.drop j) ((edits.filter fun e => !e.le closes).map (move (-j))) = .ok after := by
  have hmem {e : Edit} (he : e ∈ sort edits) : 0 ≤ e.start ∧ e.Ordered := ho e (mem_sort_iff.1 he)
  have hij : i ≤ j := by
    have := start_le_of_le (le_of_not_le hlt)
    omega
  -- The edits after the first one are again split by the second one.
  have hlater : (edits.filter fun e => !e.le opens).filter (isBeside closes) = [closes] := by
    rw [List.filter_filter, ← hlast]
    refine List.filter_congr fun e _ => ?_
    by_cases he : isBeside closes e = true
    · have hle : ¬ e.le opens = true := fun heo => by
        rw [isBeside, Bool.and_eq_true] at he
        exact hlt (le_of_le_of_le he.1 heo)
      simp [he, hle]
    · simp [he]
  have hbetween : ((edits.filter fun e => !e.le opens).filter fun e => !closes.le e) =
      edits.filter (isBetween opens closes) := by
    rw [List.filter_filter]
    exact List.filter_congr fun e _ => Bool.and_comm _ _
  have hafter : ((edits.filter fun e => !e.le opens).filter fun e => !e.le closes) =
      edits.filter fun e => !e.le closes := by
    rw [List.filter_filter]
    refine List.filter_congr fun e _ => ?_
    by_cases he : e.le closes = true
    · simp [he]
    · have hle : ¬ e.le opens = true := fun heo =>
        he (le_of_le_of_le heo (le_of_not_le hlt))
      simp [he, hle]
  have hsort := sort_eq_of_alone hfirst
  rw [sort_eq_of_alone hlater, hbetween, hafter] at hsort
  rw [apply, hsort] at h
  have hbefore : ∀ e ∈ sort (edits.filter fun e => !opens.le e), e.Ordered ∧ e.start ≤ opens.start := by
    intro e he
    obtain ⟨he, hle⟩ := List.mem_filter.1 (mem_sort_iff.1 he)
    exact ⟨(ho e he).2, start_le_of_le (le_of_not_le (by simpa using hle))⟩
  obtain ⟨before, rest, rfl, hbefore, hrest⟩ := exists_of_applyFrom hbefore le_rfl h
  have hinner : ∀ e ∈ sort (edits.filter (isBetween opens closes)), e.Ordered ∧ e.start ≤ closes.start := by
    intro e he
    obtain ⟨he, hle⟩ := List.mem_filter.1 (mem_sort_iff.1 he)
    exact ⟨(ho e he).2, start_le_of_le (le_of_not_le (isBetween_iff.1 hle).2)⟩
  rw [hopens.2] at hrest
  obtain ⟨inner, after, rfl, hinner', hrest⟩ := exists_of_applyFrom hinner (by omega) hrest
  rw [hopens.1, Int.toNat_natCast] at hbefore
  rw [hcloses.1, Int.toNat_natCast] at hinner'
  rw [hcloses.2] at hrest
  refine ⟨before, inner, after, by simp only [List.append_assoc], hbefore, ?_, ?_⟩
  · rw [apply, sort_map_move]
    exact applyFrom_drop (by rw [List.length_take]; omega) (fun e he => (hinner e he).1) hinner'
  · rw [apply, sort_map_move]
    refine applyFrom_drop hj (fun e he => ?_) hrest
    exact (ho e (List.mem_of_mem_filter (mem_sort_iff.1 he))).2

end CallTrace.Edit
