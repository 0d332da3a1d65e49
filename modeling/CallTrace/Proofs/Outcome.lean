import Mathlib
import CallTrace.Proofs.Indentation
import CallTrace.Proofs.LogicalLines

/-!
# Lines of an outcome

Around the indentation of a line on which a logical line begins edits keep to places of their own
(`clear_of_mem`): whole lines are put above the line, units where it is indented, and everything else comes
behind the indentation.  So the line is found again in the outcome, with the units in its indentation
(`exists_line`).
-/

namespace CallTrace

open Syntax Instrument Text

/-! ## Outcomes of edits on one side -/

namespace Edit

variable {front back out : List Char} {edits : List Edit}

/-- Of two edits that do not overlap the one that is made before ends before the other begins. -/
theorem stop_le_start (h : edits.Pairwise Clears) {e f : Edit} (he : e ∈ edits) (hf : f ∈ edits)
    (hlt : ¬ f.le e = true) : e.stop ≤ f.start := by
  induction edits with
  | nil => cases he
  | cons g edits ih =>
    obtain ⟨hg, hrest⟩ := List.pairwise_cons.1 h
    rcases List.mem_cons.1 he with rfl | he' <;> rcases List.mem_cons.1 hf with rfl | hf'
    · exact absurd (le_refl _) hlt
    · have hclears := hg f hf'
      rwa [Clears, if_pos (le_of_not_le hlt)] at hclears
    · have hclears := hg e he'
      rwa [Clears, if_neg hlt] at hclears
    · exact ih hrest he' hf'

theorem applyFrom_nil (text : List Char) : applyFrom text 0 [] = .ok text := by
  rw [applyFrom, sliceFrom_eq _ le_rfl]
  rfl

/-- Edits on the first part of a text leave the rest alone. -/
theorem exists_of_apply_front (hle : ∀ e ∈ edits, 0 ≤ e.start ∧ e.Ordered ∧ e.stop ≤ front.length)
    (h : apply (front ++ back) edits = .ok out) :
    ∃ before, apply front edits = .ok before ∧ out = before ++ back := by
  have hclears := (apply_isOk_iff fun e he => ⟨(hle e he).1, (hle e he).2.1⟩).1 ⟨out, h⟩
  obtain ⟨before, hbefore⟩ : ∃ before, apply front edits = .ok before :=
    (apply_isOk_iff fun e he => ⟨(hle e he).1, (hle e he).2.1⟩).2 hclears
  have happend : apply (front ++ back) (edits ++ [].map (move front.length)) = .ok (before ++ back) :=
    apply_append hle (by simp) hbefore (applyFrom_nil back)
  rw [List.map_nil, List.append_nil, h, Except.ok.injEq] at happend
  exact ⟨before, hbefore, happend⟩

/-- Edits on the last part of a text leave the rest alone. -/
theorem exists_of_apply_back (hle : ∀ e ∈ edits, (front.length : Int) ≤ e.start ∧ e.Ordered)
    (h : apply (front ++ back) edits = .ok out) :
    ∃ after, apply back (edits.map (move (-front.length))) = .ok after ∧ out = front ++ after := by
  have hclears := (apply_isOk_iff fun e he => ⟨(Int.natCast_nonneg _).trans (hle e he).1, (hle e he).2⟩).1 ⟨out, h⟩
  have hmoved : ∀ e ∈ sort (edits.map (move (-front.length))), 0 ≤ e.start ∧ e.Ordered := by
    intro e he
    obtain ⟨f, hf, rfl⟩ := List.mem_map.1 (mem_sort_iff.1 he)
    obtain ⟨hstart, hordered⟩ := hle f hf
    have hordered : f.start ≤ f.stop := hordered
    exact ⟨by rw [move_start]; omega, by rw [Ordered, move_start, move_stop]; omega⟩
  obtain ⟨after, hafter⟩ : ∃ after, apply back (edits.map (move (-front.length))) = .ok after :=
    (apply_isOk_iff fun e he => hmoved e (mem_sort_iff.2 he)).2
    (List.pairwise_map.2 (hclears.imp fun hab => (clears_move_iff _ _ _).2 hab))
  have happend : applyFrom (front ++ back) 0
      ([] ++ (sort (edits.map (move (-front.length)))).map (move front.length)) = .ok (front ++ after) :=
    applyFrom_append front (by simp) hmoved hafter le_rfl (Int.natCast_nonneg _) (applyFrom_nil front)
  rw [List.nil_append, sort_map_move, map_move_cancel (by omega), ← apply, h, Except.ok.injEq] at happend
  exact ⟨after, hafter, happend⟩

/-- An outcome ends a line where the text does, if what is put at its end does. -/
theorem isTerminated_of_apply (ht : IsTerminated front)
    (hle : ∀ e ∈ edits, e.Ordered ∧ e.stop ≤ front.length ∧
      (e.stop = front.length → e.text.getLast? = some '\n'))
    (h : apply front edits = .ok out) : IsTerminated out := by
  obtain ⟨patches, rest, hfront, rfl, hpatch⟩ :=
    exists_patches (fun e he => ⟨(hle e he).1, (hle e he).2.1⟩) h
  rw [isTerminated_iff] at ht ⊢
  by_cases hrest : rest = []
  · subst hrest
    rw [List.append_nil] at hfront ⊢
    rcases List.eq_nil_or_concat patches with rfl | ⟨init, p, rfl⟩
    · simp [Patch.after]
    · rw [List.concat_eq_append] at hfront hpatch ⊢
      obtain ⟨e, he, hstart, hstop, htext⟩ := hpatch init p [] rfl
      have hlength : (Patch.before (init ++ [p])).length =
          (Patch.before init).length + p.kept.length + p.removed.length := by
        simp [Patch.before, Nat.add_assoc]
      have hlast := (hle e he).2.2 (by rw [hstop, hstart, hfront, hlength]; omega)
      rw [htext] at hlast
      intro c hc
      rw [Patch.after, List.flatMap_append, List.flatMap_singleton, ← List.append_assoc,
        List.getLast?_append, hlast, Option.some_or, Option.some.injEq] at hc
      exact Or.inl hc.symm
  · intro c hc
    refine ht c ?_
    rwa [hfront, List.getLast?_append_of_ne_nil _ hrest, ← List.getLast?_append_of_ne_nil _ hrest]

/-- An outcome begins with no blank if neither the text does nor what is put before it. -/
theorem takeWhile_of_apply {p : Char → Bool} (hhead : ∃ c ∈ back.head?, p c = false)
    (hle : ∀ e ∈ edits, 0 ≤ e.start ∧ e.Ordered ∧ e.stop ≤ back.length ∧
      (e.start = 0 → ∃ c ∈ e.text.head?, p c = false))
    (h : apply back edits = .ok out) : out.takeWhile p = [] := by
  obtain ⟨patches, rest, hback, rfl, hpatch⟩ :=
    exists_patches (fun e he => ⟨(hle e he).2.1, (hle e he).2.2.1⟩) h
  suffices hout : ∃ c ∈ (Patch.after patches ++ rest).head?, p c = false by
    obtain ⟨c, hc, hpc⟩ := hout
    obtain ⟨more, hmore⟩ := List.head?_eq_some_iff.1 hc
    rw [hmore, List.takeWhile_cons_of_neg (by simp [hpc])]
  cases patches with
  | nil => rwa [hback] at hhead
  | cons q patches =>
    obtain ⟨e, he, hstart, -, htext⟩ := hpatch [] q patches rfl
    cases hkept : q.kept with
    | nil =>
      obtain ⟨c, hc, hpc⟩ := (hle e he).2.2.2 (by rw [hstart, hkept]; rfl)
      refine ⟨c, ?_, hpc⟩
      rw [htext] at hc
      obtain ⟨more, hmore⟩ := List.head?_eq_some_iff.1 hc
      simp [Patch.after, hkept, hmore]
    | cons c kept =>
      obtain ⟨d, hd, hpd⟩ := hhead
      rw [hback, Patch.before, List.flatMap_cons, hkept] at hd
      refine ⟨d, ?_, hpd⟩
      rw [Patch.after, List.flatMap_cons, hkept]
      exact hd

/-- The text of an edit stands in the outcome. -/
theorem exists_of_mem {text : List Char} {e : Edit} (hle : ∀ e ∈ edits, 0 ≤ e.start ∧ e.Ordered)
    (he : e ∈ edits) (h : apply text edits = .ok out) :
    ∃ front back, out = front ++ e.text ++ back := by
  obtain ⟨left, right, hsplit⟩ := List.append_of_mem (mem_sort_iff.2 he)
  have hsorted := pairwise_sort edits
  rw [hsplit, List.pairwise_append] at hsorted
  rw [apply, hsplit] at h
  obtain ⟨front, back, hout, -⟩ := exists_of_applyFrom (fun f hf => ⟨(hle f (mem_sort_iff.1
    (hsplit ▸ List.mem_append_left _ hf))).2, start_le_of_le (hsorted.2.2 f hf e List.mem_cons_self)⟩)
    le_rfl h
  exact ⟨front, back, hout⟩

end Edit

/-! ## Edits around the indentation of a line -/

/-- Where an edit is, seen from a line on which a logical line begins: where the line begins or above, in the
indentation, to indent the line further, or behind the indentation, where the first token is. -/
inductive Edit.Clear (s : Source) (n token : Nat) : Edit → Prop
  | above {e : Edit} : e.stop ≤ s.table.lineStart n →
      ¬ (insertion (s.table.shiftPoint n) [] shifting).le e = true →
      (e.stop = s.table.lineStart n → e.text.getLast? = some '\n') → Edit.Clear s n token e
  | here {unit : List Char} : Edit.Clear s n token (insertion (s.table.shiftPoint n) unit shifting)
  | behind {e : Edit} : (token : Int) ≤ e.start →
      (e.start = token → (token : Int) < e.stop ∧ ∃ rest, e.text = runtime ++ rest) →
      Edit.Clear s n token e

section Clear

variable {s : Source} {n token : Nat} {e : Edit}

theorem Edit.clear_of_lt (ho : e.Ordered) (h : e.stop < s.table.lineStart n) : e.Clear s n token := by
  have hshift : s.table.lineStart n ≤ s.table.shiftPoint n := Nat.le_add_right _ _
  refine .above h.le (Edit.not_le_of_start_lt ?_) fun heq => absurd heq h.ne
  calc e.start ≤ e.stop := ho
    _ < s.table.lineStart n := h
    _ ≤ s.table.shiftPoint n := Int.ofNat_le.2 hshift

theorem Edit.clear_of_gt (h : (token : Int) < e.start) : e.Clear s n token :=
  .behind h.le fun heq => absurd heq h.ne'

/-- What is made before a line is indented is made where the line begins or above. -/
theorem Edit.Clear.stop_le (h : e.Clear s n token) (htoken : s.table.shiftPoint n ≤ token) {edits : List Edit}
    (hclears : edits.Pairwise Edit.Clears) (he : e ∈ edits) {unit : List Char}
    (hunit : insertion (s.table.shiftPoint n) unit shifting ∈ edits)
    (hbefore : ¬ (insertion (s.table.shiftPoint n) [] shifting).le e = true) :
    e.stop ≤ s.table.lineStart n ∧ (e.stop = s.table.lineStart n → e.text.getLast? = some '\n') := by
  cases h with
  | above hstop _ htext => exact ⟨hstop, htext⟩
  | here => exact absurd (Edit.le_refl (insertion (s.table.shiftPoint n) [] shifting)) hbefore
  | behind hstart hreplaces =>
    have hle : e.start ≤ s.table.shiftPoint n := not_lt.1 fun hlt => hbefore (Edit.le_of_start_lt hlt)
    have heq : e.start = token := le_antisymm (hle.trans (Int.ofNat_le.2 htoken)) hstart
    have hstop : e.stop ≤ s.table.shiftPoint n := Edit.stop_le_start hclears he hunit hbefore
    exact absurd ((hreplaces heq).1.trans_le hstop) (not_lt.2 (Int.ofNat_le.2 htoken))

/-- What is made after a line is indented is made behind its indentation. -/
theorem Edit.Clear.le_start (h : e.Clear s n token)
    (hafter : ¬ e.le (insertion (s.table.shiftPoint n) [] shifting) = true) :
    (token : Int) ≤ e.start ∧ (e.start = token → ∃ rest, e.text = runtime ++ rest) := by
  cases h with
  | above _ hnot _ => exact absurd (Edit.le_of_not_le hnot) hafter
  | here => exact absurd (Edit.le_refl (insertion (s.table.shiftPoint n) [] shifting)) hafter
  | behind hstart hreplaces => exact ⟨hstart, fun heq => (hreplaces heq).2⟩

end Clear

namespace Parsed

variable {text : List Char} {s : Source} {tokens : Array Token} {a b : Nat → Nat}
  (P : Parsed text s tokens a b) {k : Nat} (hk : FirstOfLine tokens k)

include P hk

theorem offset_lt_of_first {q : Nat} (hq : StartsAt tokens q) (hqk : q < k) :
    offsetOf text (b q) < s.table.lineStart (placeOf text (a k)).line := by
  by_contra hge
  have := (P.lineStart_line_le_iff hk.starts (P.b_le hq)).1 (Nat.not_lt.1 hge)
  have := P.line_lt_of_first hk hq hqk
  omega

theorem line_le_count_of_first : (placeOf text (a k)).line ≤ s.table.count := by
  have hlt := P.a_lt_b hk.starts
  have hle := P.b_le hk.starts
  rw [P.table]
  exact Text.line_le_count P.terminated (by omega)

theorem offset_lt_lineStart_succ :
    offsetOf text (a k) < s.table.lineStart ((placeOf text (a k)).line + 1) := by
  have hlt := P.a_lt_b hk.starts
  have hle := P.b_le hk.starts
  by_contra hge
  have := (P.lineStart_le_iff (Nat.succ_pos _) (Nat.succ_le_succ (P.line_le_count_of_first hk)) (by omega)).1 (Nat.not_lt.1 hge)
  omega

/-- What is put in front of another token is not in the indentation. -/
theorem clear_before {q : Nat} (hq : StartsAt tokens q) (hne : q ≠ k) {inserted : List Char} {order : List Int} :
    (insertion (offsetOf text (a q)) inserted order).Clear s (placeOf text (a k)).line (offsetOf text (a k)) := by
  rcases Nat.lt_or_gt_of_ne hne with hqk | hkq
  · exact Edit.clear_of_lt le_rfl (Int.ofNat_lt.2
      ((offsetOf_le P.terminated (P.a_lt_b hq).le (P.b_le hq)).trans_lt (P.offset_lt_of_first hk hq hqk)))
  · exact Edit.clear_of_gt (Int.ofNat_lt.2 (offsetOf_lt P.terminated (P.a_lt_a hk.starts hkq hq)
      (P.a_le_length hq)))

/-- What is put behind a token is not in the indentation. -/
theorem clear_after {q : Nat} (hq : StartsAt tokens q) {inserted : List Char} {order : List Int} :
    (insertion (offsetOf text (b q)) inserted order).Clear s (placeOf text (a k)).line (offsetOf text (a k)) := by
  rcases Nat.lt_or_ge q k with hqk | hkq
  · exact Edit.clear_of_lt le_rfl (Int.ofNat_lt.2 (P.offset_lt_of_first hk hq hqk))
  · exact Edit.clear_of_gt (Int.ofNat_lt.2
      (offsetOf_lt P.terminated ((P.a_lt_b hk.starts).trans_le (P.b_le_b hkq hq)) (P.b_le hq)))

/-- Lines that are put between lines are not in the indentation. -/
theorem clear_between (line : Nat) {inserted : List Char} {order : List Int}
    (horder : Edit.orderLe shifting order = false) :
    (insertion (s.table.lineStart line) (inserted ++ ['\n']) order).Clear s (placeOf text (a k)).line
      (offsetOf text (a k)) := by
  rcases Nat.lt_or_ge (placeOf text (a k)).line line with hgt | hge
  · exact Edit.clear_of_gt (Int.ofNat_lt.2 ((P.offset_lt_lineStart_succ hk).trans_le (P.lineStart_mono hgt)))
  · have hmono := P.lineStart_mono hge
    refine .above (Int.ofNat_le.2 hmono) (fun hle => ?_) fun _ => List.getLast?_concat
    rcases Edit.le_iff.1 hle with hlt | ⟨-, horder'⟩
    · exact absurd (Int.ofNat_lt.1 hlt) (Nat.not_lt.2 (hmono.trans (Nat.le_add_right _ _)))
    · rw [insertion, insertion, horder] at horder'
      cases horder'

variable {stack : Nat → List Indent} (hL : Levels text tokens stack)

include hL

/-- No edit is made within the indentation of a line, but for those that indent it further. -/
theorem clear_of_mem {o : Options} {e : Edit} (he : e ∈ (pass o s).edits) :
    e.Clear s (placeOf text (a k)).line (offsetOf text (a k)) := by
  obtain ⟨x, depth, hu, hw⟩ := exists_wraps he
  cases hw with
  | @definition d _ hd hw =>
    obtain ⟨m, i, j, body, hstands⟩ := P.exists_stands hu hd
    cases hw with
    | beforeDocstring hdoc hinline =>
      obtain ⟨c, -, rfl, p, q, hends⟩ := P.exists_ends_of_mem hstands (hstands.mem_of_docstring hdoc)
      rw [P.offset_start hends]
      refine P.clear_before hk hends.first ?_
      rintro rfl
      rw [hstands.parts, hdoc] at hinline
      exact absurd (P.atLineStart_of_first hk hL hends) (by simpa using hinline)
    | afterDocstring hdoc _ =>
      obtain ⟨c, -, rfl, p, q, hends⟩ := P.exists_ends_of_mem hstands (hstands.mem_of_docstring hdoc)
      rw [P.offset_stop hends]
      exact P.clear_after hk hends.last
    | forPass ht hrest =>
      obtain ⟨hone, hpass⟩ := Definition.lonePass?_eq_some_iff.1 ht
      obtain ⟨c, hc, rfl, p, q, hends⟩ :=
        P.exists_ends_of_mem hstands (hstands.mem_of_statements (hone ▸ List.mem_singleton_self _))
      obtain ⟨rfl, rfl, -⟩ := hends.of_pass (hstands.laid c hc) hpass
      rw [P.offset_start hends, P.offset_stop hends]
      have hown := offsetOf_lt P.terminated (P.a_lt_b hends.first) (P.b_le hends.first)
      rcases Nat.lt_trichotomy c.lo k with hlt | rfl | hgt
      · exact Edit.clear_of_lt (Int.ofNat_le.2 hown.le) (Int.ofNat_lt.2 (P.offset_lt_of_first hk hends.first hlt))
      · exact .behind le_rfl fun _ =>
          ⟨Int.ofNat_lt.2 hown, hrest (P.atLineStart_of_first hk hL hends)⟩
      · exact Edit.clear_of_gt (Int.ofNat_lt.2 (offsetOf_lt P.terminated (P.a_lt_a hk.starts hgt hends.first)
          (P.a_le_length hends.first)))
    | beforeHead hhead _ hinline =>
      obtain ⟨c, -, rfl, p, q, hends⟩ :=
        P.exists_ends_of_mem hstands (hstands.mem_of_statements (List.mem_of_mem_head? hhead))
      rw [P.offset_start hends]
      refine P.clear_before hk hends.first ?_
      rintro rfl
      rw [P.atLineStart_of_first hk hL hends] at hinline
      cases hinline
    | afterLast hlast =>
      obtain ⟨c, -, rfl, p, q, hends⟩ :=
        P.exists_ends_of_mem hstands (hstands.mem_of_statements (List.mem_of_mem_getLast? hlast))
      rw [P.offset_stop hends]
      exact P.clear_after hk hends.last
    | aboveHead _ _ _ => exact P.clear_between hk _ rfl
    | @shift line _ hn =>
      obtain ⟨h₁, h₂⟩ := P.bounds_of_mem_shiftedLines hstands hn
      rcases Nat.lt_trichotomy line (placeOf text (a k)).line with hlt | rfl | hgt
      · refine Edit.clear_of_lt le_rfl (Int.ofNat_lt.2 (lt_of_lt_of_le ?_ (P.lineStart_mono hlt)))
        rw [P.table] at h₂ ⊢
        exact shiftPoint_lt P.terminated h₁ h₂
      · exact .here
      · exact Edit.clear_of_gt (Int.ofNat_lt.2 ((P.offset_lt_lineStart_succ hk).trans_le
          ((P.lineStart_mono hgt).trans (Nat.le_add_right _ _))))
    | belowLast _ => exact P.clear_between hk _ rfl
  | beforeBody hl =>
    obtain ⟨m, c, -, -, hstands⟩ := P.laid.exists_lambda hu hl
    obtain ⟨p, q, hends⟩ := P.exists_ends hstands.laid hstands.placed
    rw [← hstands.tree, P.offset_start hends]
    refine P.clear_before hk hends.first ?_
    rintro rfl
    have hm := hstands.lt
    have hp := hends.adorned.le
    have hpq := hends.le
    have hq := hends.lt
    obtain ⟨l, hl, hplain⟩ := hstands.plain (p - 1) (by omega) (by omega)
    rw [Lexeme.isPlain, Bool.and_eq_true, Bool.not_eq_true'] at hplain
    exact hk.before (p - 1) (by omega) ⟨l, hl, hplain.1⟩
  | afterBody hl =>
    obtain ⟨m, c, -, -, hstands⟩ := P.laid.exists_lambda hu hl
    obtain ⟨p, q, hends⟩ := P.exists_ends hstands.laid hstands.placed
    rw [← hstands.tree, P.offset_stop hends]
    exact P.clear_after hk hends.last

end Parsed

/-! ## Indented lines in the outcome -/

/-- The indentation of a line in the outcome: behind form feeds, the units of the bodies that it is in and
then the other blanks that it had. -/
def outcomeIndentation (s : Source) (met : List (Site × Int)) (n : Nat) : List Char :=
  s.table.feeds n ++ ((lineUnits s met n).flatten ++ s.table.blanks n)

theorem isPad_placedUnit (s : Source) (p : Tree.Placed) : IsPad (p.unit s) := by
  have hnil : IsPad [] := nofun
  rw [Tree.Placed.unit]
  cases Function.classify s p.above p.tree 0 with
  | definition d =>
    simp only [Definition.unit]
    split
    · cases d.body.head? with
      | none => exact hnil
      | some first => exact (isPad_bodyIndentation s d.node first).2.1
    · exact hnil
  | _ => exact hnil

theorem Instrument.IsPad.isSpace {pad : List Char} (h : IsPad pad) : ∀ c ∈ pad, isSpace c = true := by
  intro c hc
  rcases h c hc with rfl | rfl <;> rfl

theorem isPad_lineUnits (s : Source) (met : List (Site × Int)) (n : Nat) :
    IsPad (lineUnits s met n).flatten := by
  intro c hc
  obtain ⟨unit, hunit, hc⟩ := List.mem_flatten.1 hc
  rw [lineUnits] at hunit
  split at hunit
  · cases hunit
  · obtain ⟨m, -, rfl⟩ := List.mem_map.1 hunit
    exact isPad_placedUnit s m.1.placed c hc

namespace Parsed

variable {text : List Char} {s : Source} {tokens : Array Token} {a b : Nat → Nat}
  (P : Parsed text s tokens a b) {k : Nat} (hk : FirstOfLine tokens k)

include P hk

variable {stack : Nat → List Indent} (hL : Levels text tokens stack)

include hL

/-- The first token of a logical line comes behind the place where its line is indented and the blanks there. -/
theorem offset_of_first : offsetOf text (a k) = s.table.shiftPoint (placeOf text (a k)).line +
    (s.table.blanks (placeOf text (a k)).line).length := by
  rw [(P.indentation_of_first hL hk).1, LineTable.indentation_eq, List.length_append, ← Nat.add_assoc]
  rfl

variable {o : Options}

/-- What is made of the text before the place where a line is indented is what is made of the lines above. -/
theorem exists_above {unit before : List Char} (hclears : (pass o s).edits.Pairwise Edit.Clears)
    (hunit : insertion (s.table.shiftPoint (placeOf text (a k)).line) unit shifting ∈ (pass o s).edits)
    (h : Edit.apply (text.take (s.table.shiftPoint (placeOf text (a k)).line)) ((pass o s).edits.filter fun e =>
      !(insertion (s.table.shiftPoint (placeOf text (a k)).line) [] shifting).le e) = .ok before) :
    ∃ front, before = front ++ s.table.feeds (placeOf text (a k)).line ∧ IsTerminated front ∧
      Edit.apply (text.take (s.table.lineStart (placeOf text (a k)).line)) ((pass o s).edits.filter fun e =>
        !(insertion (s.table.shiftPoint (placeOf text (a k)).line) [] shifting).le e) = .ok front := by
  have htoken : s.table.shiftPoint (placeOf text (a k)).line ≤ offsetOf text (a k) :=
    (Nat.le_add_right _ _).trans_eq (P.offset_of_first hk hL).symm
  have htake := (eq_at_shiftPoint text (P.one_le_line hk.starts)).1
  rw [← P.table] at htake
  have hline : (text.take (s.table.lineStart (placeOf text (a k)).line)).length =
      s.table.lineStart (placeOf text (a k)).line := List.length_take_of_le (P.lineStart_le _)
  have habove : ∀ e ∈ (pass o s).edits.filter fun e =>
      !(insertion (s.table.shiftPoint (placeOf text (a k)).line) [] shifting).le e,
        e.stop ≤ s.table.lineStart (placeOf text (a k)).line ∧
        (e.stop = s.table.lineStart (placeOf text (a k)).line → e.text.getLast? = some '\n') := by
    intro e he
    obtain ⟨he, hnot⟩ := List.mem_filter.1 he
    exact (P.clear_of_mem hk hL he).stop_le htoken hclears he hunit (by simpa using hnot)
  rw [htake] at h
  rw [← hline] at habove
  obtain ⟨front, hfront, rfl⟩ := Edit.exists_of_apply_front (fun e he =>
    ⟨start_nonneg (List.mem_of_mem_filter he), P.ordered_of_mem (List.mem_of_mem_filter he),
      (habove e he).1⟩) h
  refine ⟨front, rfl, Edit.isTerminated_of_apply ?_ (fun e he =>
    ⟨P.ordered_of_mem (List.mem_of_mem_filter he), habove e he⟩) hfront, hfront⟩
  rw [P.table]
  exact isTerminated_take_lineStart P.terminated _

/-- What is made of the text behind the place where a line is indented begins with the blanks there. -/
theorem exists_behind {after : List Char}
    (h : Edit.apply (text.drop (s.table.shiftPoint (placeOf text (a k)).line)) (((pass o s).edits.filter fun e =>
      !e.le (insertion (s.table.shiftPoint (placeOf text (a k)).line) [] shifting)).map
        (Edit.move (-(s.table.shiftPoint (placeOf text (a k)).line)))) = .ok after) :
    ∃ rest, after = s.table.blanks (placeOf text (a k)).line ++ rest ∧ rest.takeWhile isSpace = [] := by
  obtain ⟨c, hc, hblank⟩ := P.exists_first_char hk.starts
  obtain ⟨hchar, -⟩ := getElem?_offsetOf P.terminated (ne_of_not_isBlank hblank).1 hc
  have htoken := P.offset_of_first hk hL
  have hdrop := (eq_at_shiftPoint text (P.one_le_line hk.starts)).2
  rw [← P.table, ← (P.indentation_of_first hL hk).1] at hdrop
  have hbehind : ∀ e ∈ (pass o s).edits.filter fun e =>
      !e.le (insertion (s.table.shiftPoint (placeOf text (a k)).line) [] shifting),
        (offsetOf text (a k) : Int) ≤ e.start ∧
        (e.start = offsetOf text (a k) → ∃ rest, e.text = runtime ++ rest) ∧
        e.start ≤ e.stop ∧ e.stop ≤ text.length := by
    intro e he
    obtain ⟨he, hnot⟩ := List.mem_filter.1 he
    obtain ⟨hstart, htext⟩ := (P.clear_of_mem hk hL he).le_start (by simpa using hnot)
    exact ⟨hstart, htext, P.ordered_of_mem he, P.stop_le he⟩
  rw [hdrop] at h
  obtain ⟨rest, hrest, rfl⟩ := Edit.exists_of_apply_back (fun e he => by
    obtain ⟨f, hf, rfl⟩ := List.mem_map.1 he
    obtain ⟨hstart, -, hordered, -⟩ := hbehind f hf
    rw [Edit.Ordered, Edit.move_start, Edit.move_stop]
    omega) h
  refine ⟨rest, rfl, Edit.takeWhile_of_apply ⟨c, ?_, isSpace_eq_false hblank⟩ (fun e he => ?_) hrest⟩
  · rw [Option.mem_def, List.head?_drop, hchar]
  · obtain ⟨g, hg, rfl⟩ := List.mem_map.1 he
    obtain ⟨f, hf, rfl⟩ := List.mem_map.1 hg
    obtain ⟨hstart, htext, hordered, hstop⟩ := hbehind f hf
    rw [List.length_drop, Edit.Ordered, Edit.move_start, Edit.move_stop, Edit.move_text, Edit.move_start,
      Edit.move_stop, Edit.move_text]
    refine ⟨by omega, by omega, by omega, fun hzero => ?_⟩
    obtain ⟨more, hmore⟩ := htext (by omega)
    exact ⟨'_', by rw [hmore]; rfl, rfl⟩

/-- A line on which a logical line begins is a line of the outcome, and it has the units of the bodies that it
is in in its indentation. -/
theorem exists_line {met : List (Site × Int)} (hmet : met.map Prod.fst = sites o s [] [] s.tree)
    (hedits : (pass o s).edits = editsOf o s met)
    (hne : lineUnits s met (placeOf text (a k)).line ≠ []) {out : List Char}
    (h : Edit.apply text (pass o s).edits = .ok out) : ∃ front line, out = front ++ line ∧
      IsTerminated front ∧ line.takeWhile isSpace = outcomeIndentation s met (placeOf text (a k)).line ∧
      Edit.apply (text.take (s.table.lineStart (placeOf text (a k)).line)) ((pass o s).edits.filter fun e =>
        !(insertion (s.table.shiftPoint (placeOf text (a k)).line) [] shifting).le e) = .ok front := by
  have hone := P.one_le_line hk.starts
  have hcount := P.line_le_count_of_first hk
  have hclears := (Edit.apply_isOk_iff fun e he => ⟨start_nonneg he, P.ordered_of_mem he⟩).1 ⟨out, h⟩
  -- One of the edits indents the line, so that none replaces anything there.
  obtain ⟨unit, hmem⟩ := List.exists_mem_of_ne_nil _ hne
  have hunit : insertion (s.table.shiftPoint (placeOf text (a k)).line) unit shifting ∈ (pass o s).edits := by
    refine hedits ▸ List.mem_of_mem_filter (p := isShiftAt (s.table.shiftPoint (placeOf text (a k)).line)) ?_
    rw [P.filter_editsOf hmet hone hcount]
    exact List.mem_map_of_mem hmem
  obtain ⟨before, after, rfl, hbefore, hafter⟩ := P.exists_around hmet hedits hone hcount hne h
  obtain ⟨front, rfl, hfront, happly⟩ := P.exists_above hk hL hclears hunit hbefore
  obtain ⟨rest, rfl, hrest⟩ := P.exists_behind hk hL hafter
  refine ⟨front, outcomeIndentation s met (placeOf text (a k)).line ++ rest, by simp [outcomeIndentation],
    hfront, ?_, happly⟩
  rw [List.takeWhile_append_of_pos fun c hc => ?_, hrest, List.append_nil]
  rcases List.mem_append.1 hc with hc | hc
  · rw [s.table.eq_of_mem_feeds _ c hc]
    rfl
  · rcases List.mem_append.1 hc with hc | hc
    · exact IsPad.isSpace (isPad_lineUnits s met _) c hc
    · exact List.mem_takeWhile_imp hc

end Parsed

end CallTrace
