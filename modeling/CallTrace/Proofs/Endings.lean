import Mathlib
import CallTrace.Proofs.Fitting
import CallTrace.Proofs.Newlines
import CallTrace.Proofs.Texts

/-!
# The same program with other line endings

How its lines end has no part in how a program is instrumented: `rewrite_normalizeNewlines` says that
what is made of the text as it is read is what is made of the text, as that is read.

The two texts have one tree (`Source.parse_normalizeNewlines`), and all that a pass asks of the one is
answered alike by the other (`Parsed.carries`), so their edits are the same at the offsets of the same
places (`Parsed.pass_asRead`).  No edit cuts a line ending, or makes one of two halves: what
begins with a line break is never put right after one (`Parsed.isSeam_of_mem`).
-/

namespace CallTrace

open Syntax Instrument Text

/-! ## Parsing -/

/-- The source with its text as it is read. -/
def Source.asRead (s : Source) : Source :=
  { s with table := .ofText (normalizeNewlines s.table.text) }

theorem Source.parse_normalizeNewlines (text : List Char) :
    Source.parse (normalizeNewlines text) = (Source.parse text).map Source.asRead := by
  have hnull : (normalizeNewlines text).contains '\x00' = text.contains '\x00' := by
    rw [Bool.eq_iff_iff, List.contains_iff_mem, List.contains_iff_mem]
    exact mem_normalizeNewlines_iff (by decide) (by decide)
  rw [Source.parse, Source.parse, hnull, normalizeNewlines_normalizeNewlines]
  split
  · rfl
  · split <;> rfl

/-! ## Headers -/

namespace Function

theorem afterWord_normalizeNewlines {word : List Char} (hn : '\n' ∉ word) (hr : '\r' ∉ word)
    (text : List Char) :
    afterWord word (normalizeNewlines text) = (afterWord word text).map normalizeNewlines := by
  rw [afterWord, afterWord, isPrefixOf_normalizeNewlines hn hr]
  cases hp : word.isPrefixOf text with
  | false => rfl
  | true =>
    obtain ⟨rest, rfl⟩ := List.isPrefixOf_iff_prefix.1 hp
    rw [normalizeNewlines_append (isSeam_of_not_mem hr), normalizeNewlines_of_not_mem hr,
      List.drop_left, List.drop_left, any_head?_normalizeNewlines (by decide), dropWhile_normalizeNewlines]
    split <;> rfl

/-- The name in a header does not depend on how its lines end. -/
theorem writtenName_normalizeNewlines (header : List Char) :
    writtenName (normalizeNewlines header) = writtenName header := by
  have hrest : (afterWord ['a', 's', 'y', 'n', 'c'] (normalizeNewlines header)).getD
        (normalizeNewlines header) =
      normalizeNewlines ((afterWord ['a', 's', 'y', 'n', 'c'] header).getD header) := by
    rw [afterWord_normalizeNewlines (by decide) (by decide)]
    cases afterWord ['a', 's', 'y', 'n', 'c'] header <;> rfl
  rw [writtenName, writtenName, hrest, afterWord_normalizeNewlines (by decide) (by decide)]
  simp only [Option.bind_map]
  congr 1
  funext name
  simp only [Function.comp_apply, takeWhile_normalizeNewlines (p := Unicode.isWord) (by decide) (by decide)]

end Function

/-! ## Passes -/

theorem Edit.carry_le_carry {f : Nat → Nat} {n : Nat} (hf : ∀ {j k : Nat}, j < k → k ≤ n → f j < f k)
    {x y : Edit} (hx : 0 ≤ x.start ∧ x.start ≤ n) (hy : 0 ≤ y.start ∧ y.start ≤ n) :
    (x.carry f).le (y.carry f) = x.le y := by
  have hlt {x y : Edit} (hx : 0 ≤ x.start ∧ x.start ≤ n) (hy : 0 ≤ y.start ∧ y.start ≤ n)
      (h : x.start < y.start) : f x.start.toNat < f y.start.toNat :=
    hf (by omega) (by omega)
  rw [Bool.eq_iff_iff, le_iff, le_iff]
  show (f x.start.toNat : Int) < f y.start.toNat ∨ (f x.start.toNat : Int) = f y.start.toNat ∧ _ ↔ _
  rcases lt_trichotomy x.start y.start with h | h | h
  · have := hlt hx hy h
    simp [h, this]
  · simp [h, carry]
  · have := hlt hy hx h
    simp [h.not_gt, h.ne', this.not_gt, this.ne']

namespace Parsed

variable {text : List Char} {s : Source} {tokens : Array Token} {a b : Nat → Nat}
  (P : Parsed text s tokens a b)

include P

theorem asRead_table : s.asRead.table = .ofText (normalizeNewlines text) := by
  rw [Source.asRead, P.table]
  rfl

theorem asRead_count : s.asRead.table.count = s.table.count := by
  obtain ⟨rows, hs, hw, hp⟩ := exists_rows text P.terminated
  rw [P.asRead_table, P.table, count_ofText, count_ofText, hp, splitLines_plain hs, hw, List.length_map,
    List.length_map]

theorem asRead_line (m : Nat) : s.asRead.table.line m = normalizeNewlines (s.table.line m) := by
  rw [P.asRead_table, P.table, line_normalizeNewlines P.terminated]

/-- Lines begin where lines begin, and what they begin with leads to the same places. -/
theorem offsetOf_asRead {p : Char → Bool} (hn : p '\n' = false) (hr : p '\r' = false) {m : Nat}
    (h₁ : 1 ≤ m) (h₂ : m ≤ s.asRead.table.count + 1) :
    offsetOf text (s.asRead.table.lineStart m + ((s.asRead.table.line m).takeWhile p).length) =
      s.table.lineStart m + ((s.table.line m).takeWhile p).length := by
  rw [P.asRead_count, P.table] at h₂
  rw [P.asRead_table, P.table, offsetOf_line P.terminated hn hr h₁ h₂]

theorem lineStart_asRead {m : Nat} (h₁ : 1 ≤ m) (h₂ : m ≤ s.asRead.table.count + 1) :
    offsetOf text (s.asRead.table.lineStart m) = s.table.lineStart m := by
  have hzero (line : List Char) : line.takeWhile (fun _ => false) = [] := by
    cases line <;> rfl
  have hplace := P.offsetOf_asRead (p := fun _ => false) rfl rfl h₁ h₂
  rwa [hzero, hzero, List.length_nil, Nat.add_zero, Nat.add_zero] at hplace

/-- A place of the text as it is read is one of the text. -/
theorem exists_place {p : Position} (h : s.asRead.Has p) : ∃ k ≤ (normalizeNewlines text).length,
    s.asRead.table.offset p = k ∧ s.table.offset p = offsetOf text k := by
  obtain ⟨k, hk, rfl⟩ := h.exists_placeOf
  rw [P.asRead_table] at hk ⊢
  have hk : k ≤ (normalizeNewlines text).length := by
    rwa [← normalizeNewlines_normalizeNewlines text]
  have hsame : placeOf (normalizeNewlines text) k = placeOf text k := by
    rw [placeOf, placeOf, normalizeNewlines_normalizeNewlines]
  refine ⟨k, hk, offsetOf_normalizeNewlines P.terminated hk, ?_⟩
  rw [P.table]
  exact congrArg (LineTable.ofText text).offset hsame

/-- What stands between two places is read as what stands between them in the text as it is read. -/
theorem asRead_between {j k : Nat} (hj : j ≤ (normalizeNewlines text).length)
    (hk : k ≤ (normalizeNewlines text).length) : s.asRead.table.between j k =
      normalizeNewlines (s.table.between (offsetOf text j) (offsetOf text k)) := by
  rw [P.asRead_table, P.table]
  show ((normalizeNewlines text).take k).drop j = normalizeNewlines ((text.take _).drop _)
  rcases Nat.le_total j k with hjk | hkj
  · exact (normalizeNewlines_slice P.terminated hjk hk).symm
  · rw [List.drop_of_length_le, List.drop_of_length_le]
    · rfl
    · exact (List.length_take_le _ _).trans (offsetOf_le P.terminated hkj hj)
    · exact (List.length_take_le _ _).trans hkj

/-- All that is asked of the text as it is read is answered alike by the text. -/
theorem carries : Carries s.asRead s 0 (offsetOf text) where
  isBlank {m} _ _ := by
    rw [LineTable.isBlank, LineTable.isBlank, P.asRead_line, allBlank_normalizeNewlines, Nat.add_zero]
  indentOf {m} _ _ := by
    rw [LineTable.indentOf, LineTable.indentOf, P.asRead_line,
      takeWhile_normalizeNewlines (by decide) (by decide), Nat.add_zero]
  lineStart h₁ h₂ := (P.lineStart_asRead h₁ h₂).symm
  shiftPoint h₁ h₂ := (P.offsetOf_asRead (by decide) (by decide) h₁ (by omega)).symm
  beginsInLiteral _ _ := rfl
  offset hp := by
    obtain ⟨k, -, hk, hk'⟩ := P.exists_place hp
    rw [hk]
    exact hk'
  atPosition {p} hp := by
    obtain ⟨k, hle, hk, hk'⟩ := P.exists_place hp
    have hline : s.asRead.table.lineStart p.line ≤ (normalizeNewlines text).length := by
      rw [P.asRead_table]
      exact lineStart_le_length _ _
    show Unicode.allBlank (s.table.between (s.table.lineStart p.line) (s.table.offset p)) = _
    rw [LineTable.atLineStart, hk, hk', P.asRead_between hline hle, allBlank_normalizeNewlines,
      P.lineStart_asRead hp.one_le (hp.le_count.trans (Nat.le_succ _))]
  writtenName hp hq := by
    obtain ⟨j, hle, hj, -⟩ := P.exists_place hp
    obtain ⟨k, hle', hk, -⟩ := P.exists_place hq
    rw [hj, hk, P.asRead_between hle hle', Function.writtenName_normalizeNewlines]

/-- The edits of the text are those of the text as it is read, at the offsets of the same places. -/
theorem pass_asRead {o : Options} {tokens' : Array Token} {a' b' : Nat → Nat}
    (R : Parsed (normalizeNewlines text) s.asRead tokens' a' b') :
    (pass o s).edits = (pass o s.asRead).edits.map (Edit.carry (offsetOf text)) := by
  have halike : Alike 0 [] [] := ⟨rfl, fun _ => rfl⟩
  have hfollows : (pass o s.asRead).Follows (offsetOf text) []
      (visit o s [] [] (s.asRead.tree.down 0) (.start o)) :=
    visit_down P.carries s.asRead.tree [] halike R.fitsBelow ⟨rfl, rfl⟩
  rw [Tree.down_zero] at hfollows
  show (pass o s).recorded.reverse = ((pass o s.asRead).recorded.reverse).map _
  rw [List.map_reverse]
  exact congrArg List.reverse (hfollows.recorded.trans (List.append_nil _))

end Parsed

/-! ## Line breaks -/

namespace Instrument

variable {o : Options} {s : Source} {d : Definition} {units : List (List Char)}

theorem IsPad.head?_ne {pad : List Char} (h : IsPad pad) : pad.head? ≠ some '\n' := by
  intro hc
  rcases h '\n' (List.mem_of_mem_head? hc) with h | h <;> cases h

theorem IsPad.head?_append_ne {pad text : List Char} (h : IsPad pad) (ht : text.head? ≠ some '\n') :
    (pad ++ text).head? ≠ some '\n' := by
  cases pad with
  | nil => exact ht
  | cons c pad => exact h.head?_ne

theorem head?_runtime_ne (text : List Char) : (runtime ++ text).head? ≠ some '\n' := by
  have hhead : runtime.head? = some '_' := by decide
  rw [List.head?_append, hhead]
  exact fun h => absurd (Option.some.inj h) (by decide)

theorem head?_emission_ne (line text : List Char) : (emission line ++ text).head? ≠ some '\n' := by
  rw [emission, List.append_assoc, List.append_assoc, List.append_assoc]
  exact head?_runtime_ne _

/-- What begins with a line break is put before a statement that does not begin its line, or after a
statement. -/
theorem exists_of_lineBreak (hu : ∀ u ∈ units, IsPad u) (hd : d.Fits s) {e : Edit}
    (h : e ∈ (wrapDefinition o s units d).edits) (hbreak : e.text.head? = some '\n') :
    ∃ t ∈ d.body, e.start = s.start t ∧ s.atLineStart t = false ∨ e.start = s.stop t := by
  have hpad {first : Tree} : IsPad (padding s units d first) := isPad_padding hu d first
  have hunit {first : Tree} := (isPad_bodyIndentation s d.node first).2.1
  have hmem {t : Tree} (ht : t ∈ d.statements) : t ∈ d.body := by
    rw [hd.parts]
    exact List.mem_append_right _ ht
  have hdocs {first : Tree} (hfirst : d.body.head? = some first)
      (h : e ∈ docstringEdits s units d first) :
      ∃ t ∈ d.body, e.start = s.start t ∧ s.atLineStart t = false ∨ e.start = s.stop t := by
    obtain ⟨doc, hdoc, hinline, rfl⟩ := mem_docstringEdits h
    obtain rfl : doc = first := by
      rw [hd.parts, hdoc] at hfirst
      exact Option.some.inj hfirst
    exact ⟨doc, List.mem_of_mem_head? hfirst, Or.inl ⟨rfl, hinline⟩⟩
  have hform := form_wrapDefinition o s units d
  generalize wrapDefinition o s units d = w at h hform
  cases hform with
  | nothing _ => cases h
  | @forPass first t hfirst ht =>
    rcases List.mem_append.1 h with h | h
    · exact hdocs hfirst h
    obtain rfl := List.mem_singleton.1 h
    refine ⟨t, hmem ?_, Or.inl ⟨rfl, ?_⟩⟩
    · rw [(Definition.lonePass?_eq_some_iff.1 ht).1]
      exact List.mem_singleton_self t
    · by_contra hstart
      rw [if_pos (by simpa using hstart), List.nil_append, enterStatement, List.append_assoc] at hbreak
      exact head?_emission_ne _ _ hbreak
  | @afterDocstring first doc hfirst _ hdoc =>
    rcases List.mem_append.1 h with h | h
    · exact hdocs hfirst h
    obtain rfl := List.mem_singleton.1 h
    refine ⟨doc, ?_, Or.inr rfl⟩
    rw [hd.parts, hdoc]
    exact List.mem_cons_self
  | @sameLine first head last hfirst _ hhead hlast hinline =>
    rcases List.mem_append.1 h with h | h
    · exact hdocs hfirst h
    rcases List.mem_pair.1 h with rfl | rfl
    · exact ⟨head, hmem (List.mem_of_mem_head? hhead), Or.inl ⟨rfl, hinline⟩⟩
    · exact ⟨last, hmem (List.mem_of_mem_getLast? hlast), Or.inr rfl⟩
  | ownLines hfirst _ _ _ _ =>
    rcases List.mem_append.1 h with h | h
    · exact hdocs hfirst h
    exfalso
    rcases List.mem_cons.1 h with rfl | h
    · simp only [insertion, List.append_assoc] at hbreak
      exact hpad.head?_append_ne (head?_emission_ne _ _) hbreak
    rcases List.mem_append.1 h with h | h
    · obtain ⟨n, -, rfl⟩ := List.mem_map.1 h
      exact hunit.head?_ne hbreak
    · obtain rfl := List.mem_singleton.1 h
      simp only [insertion, List.append_assoc] at hbreak
      exact hpad.head?_append_ne (by simp) hbreak

theorem head?_ne_of_mem_wrapLambda {l : BoundLambda} {e : Edit} (h : e ∈ wrapLambda o s units l) :
    e.text.head? ≠ some '\n' := by
  rcases List.mem_pair.1 h with rfl | rfl
  · simp only [insertion, List.append_assoc]
    exact head?_runtime_ne _
  · exact fun h => absurd (Option.some.inj h) (by decide)

end Instrument

namespace Parsed

variable {text : List Char} {s : Source} {tokens : Array Token} {a b : Nat → Nat}
  (P : Parsed text s tokens a b)

include P

/-- A statement that does not begin its line does not stand right after a line ending. -/
theorem getElem?_ne_of_first {c : Cell} {m n k : Nat} (h : c.Ends text tokens a b m n)
    (hstart : s.atLineStart c.tree = false) (hk : a m = k + 1) :
    (normalizeNewlines text)[k]? ≠ some '\n' := by
  intro hbreak
  have hle := P.a_le_length h.first
  have hlt : (placeOf text k).line < (placeOf text (a m)).line :=
    line_lt_of_newline hbreak (by omega)
  -- The line of the statement begins after that ending, so what comes in between is part of the ending.
  have hline : offsetOf text k ≤ s.table.lineStart (placeOf text (a m)).line := by
    by_contra hge
    have hcount := (line_mono (P.a_lt_b h.first).le).trans (P.line_le_count h.first)
    exact absurd ((P.lineStart_le_iff (Text.one_le_line P.terminated hle) (hcount.trans (Nat.le_succ _))
      (by omega)).1 (Nat.le_of_not_le hge)) (Nat.not_le.2 hlt)
  have hread : normalizeNewlines ((text.take (offsetOf text (a m))).drop (offsetOf text k)) =
      ['\n'] := by
    rw [normalizeNewlines_slice P.terminated (by omega) hle, hk, List.take_add_one, hbreak]
    exact List.drop_left' (by rw [List.length_take]; omega)
  have hblank := allBlank_normalizeNewlines ((text.take (offsetOf text (a m))).drop (offsetOf text k))
  rw [hread, Unicode.allBlank, Unicode.allBlank] at hblank
  have hall := List.all_eq_true.1 (hblank.symm.trans (by decide))
  have hblank : s.atLineStart c.tree = true := by
    rw [Source.atLineStart, LineTable.atLineStart, start_eq h, P.offset_eq, Unicode.allBlank,
      List.all_eq_true]
    intro x hx
    refine hall x ?_
    rw [P.table] at hx hline
    rw [← Nat.add_sub_cancel' hline, LineTable.between, ← List.drop_drop] at hx
    exact List.mem_of_mem_drop hx
  rw [hstart] at hblank
  cases hblank

/-- No edit of a pass cuts a line ending or makes one of two. -/
theorem isSeam_of_mem {o : Options} {e : Edit} (he : e ∈ (pass o s).edits) :
    IsSeam (text.take e.start.toNat) e.text := by
  intro hlast hbreak
  obtain ⟨x, hx, depth, he⟩ := exists_site he
  have hunder := under_of_mem_sites hx
  rw [Site.edits] at he
  cases hc : Function.classify s x.above x.tree depth with
  | definition d =>
    rw [hc] at he
    obtain ⟨_, _, _, body, hstands⟩ := P.exists_stands hunder hc
    obtain ⟨t, ht, hstart⟩ := exists_of_lineBreak (isPad_units s.tree (by simp) x hx)
      (P.fits_of_definition hunder hc) he hbreak
    obtain ⟨c, -, rfl, m, n, hends⟩ := P.exists_ends_of_mem hstands ht
    rcases hstart with ⟨hstart, hinline⟩ | hstop
    · rw [hstart, P.offset_start hends, Int.toNat_natCast] at hlast
      exact getLast?_take_offsetOf P.terminated (P.a_le_length hends.first)
        (fun k hk => P.getElem?_ne_of_first hends hinline hk) hlast
    · rw [hstop, P.offset_stop hends, Int.toNat_natCast] at hlast
      exact getLast?_take_offsetOf P.terminated (P.b_le hends.last)
        (fun k hk => P.getElem?_ne_of_last hends.last hk) hlast
  | lambda l =>
    rw [hc] at he
    exact head?_ne_of_mem_wrapLambda he hbreak
  | unmatched =>
    rw [hc] at he
    cases he

end Parsed

/-! ## Edits -/

/-- An edit of a text as it is read, by which no line ending of the text is cut and none is made of
two. -/
structure Edit.IsClean (text : List Char) (e : Edit) : Prop where
  start_nonneg : 0 ≤ e.start
  ordered : e.Ordered
  stop_le : e.stop ≤ (normalizeNewlines text).length
  ne_nil : e.text ≠ []
  not_mem : '\r' ∉ e.text
  seam : IsSeam (text.take (offsetOf text e.start.toNat)) e.text

namespace Edit

variable {text : List Char} {edits : List Edit}

/-- What edits make of a text is read as what they make of the text as it is read. -/
theorem applyFrom_normalizeNewlines (h : IsTerminated text) (hedits : ∀ e ∈ edits, e.IsClean text) :
    ∀ {p : Nat}, p ≤ (normalizeNewlines text).length →
      (applyFrom text (offsetOf text p) (edits.map (carry (offsetOf text)))).toOption.map
          normalizeNewlines =
        (applyFrom (normalizeNewlines text) p edits).toOption := by
  induction edits with
  | nil =>
    intro p hp
    rw [List.map_nil, applyFrom, applyFrom, sliceFrom_eq _ (Int.natCast_nonneg _),
      sliceFrom_eq _ (Int.natCast_nonneg _)]
    exact congrArg some (normalizeNewlines_drop h hp)
  | cons e rest ih =>
    intro p hp
    have he := hedits e List.mem_cons_self
    have hordered : e.start ≤ e.stop := he.ordered
    have hstart := he.start_nonneg
    have hstop := he.stop_le
    have hrest := ih (fun e' he' => hedits e' (List.mem_cons_of_mem e he')) (p := e.stop.toNat) (by omega)
    rw [Int.toNat_of_nonneg (hstart.trans hordered)] at hrest
    have hbegin : (e.carry (offsetOf text)).start = offsetOf text e.start.toNat := rfl
    have hend : (e.carry (offsetOf text)).stop = offsetOf text e.stop.toNat := rfl
    have hput : (e.carry (offsetOf text)).text = e.text := rfl
    rw [List.map_cons, applyFrom, applyFrom, hbegin, hend, hput]
    by_cases hlt : e.start < p
    · have := offsetOf_lt h (show e.start.toNat < p by omega) hp
      rw [if_pos (by omega), if_pos hlt]
      rfl
    have hle := offsetOf_le h (show p ≤ e.start.toNat by omega) (by omega)
    rw [if_neg (by omega), if_neg hlt]
    cases hafter : applyFrom text (offsetOf text e.stop.toNat) (rest.map (carry (offsetOf text))) with
    | error overlap =>
      rw [hafter] at hrest
      cases hread : applyFrom (normalizeNewlines text) e.stop rest with
      | error overlap' => rfl
      | ok read =>
        rw [hread] at hrest
        cases hrest
    | ok after =>
      rw [hafter] at hrest
      cases hread : applyFrom (normalizeNewlines text) e.stop rest with
      | error overlap' =>
        rw [hread] at hrest
        cases hrest
      | ok read =>
        rw [hread] at hrest
        have hafter : normalizeNewlines after = read := Option.some.inj hrest
        have hseam : IsSeam ((text.take (offsetOf text e.start.toNat)).drop (offsetOf text p))
            (e.text ++ after) := by
          intro hlast
          rw [List.getLast?_drop] at hlast
          split at hlast
          · cases hlast
          · rw [List.head?_append_of_ne_nil _ he.ne_nil]
            exact he.seam hlast
        rw [slice_eq _ (by omega) (by omega), slice_eq _ (by omega) hstart]
        simp only [Int.toNat_natCast]
        show some (normalizeNewlines _) = some _
        rw [List.append_assoc, normalizeNewlines_append hseam,
          normalizeNewlines_append (isSeam_of_not_mem he.not_mem), normalizeNewlines_of_not_mem he.not_mem,
          hafter, normalizeNewlines_slice h (by omega) (by omega), List.append_assoc]

theorem apply_normalizeNewlines (h : IsTerminated text) (hedits : ∀ e ∈ edits, e.IsClean text) :
    (apply text (edits.map (carry (offsetOf text)))).toOption.map normalizeNewlines =
      (apply (normalizeNewlines text) edits).toOption := by
  have hbounds {e : Edit} (he : e ∈ edits) :
      0 ≤ e.start ∧ e.start ≤ (normalizeNewlines text).length :=
    ⟨(hedits e he).start_nonneg, (hedits e he).ordered.trans (hedits e he).stop_le⟩
  have hsort := sort_map fun x hx y hy =>
    carry_le_carry (offsetOf_lt h) (hbounds hx) (hbounds hy)
  have happly := applyFrom_normalizeNewlines h
    (fun e he => hedits e (mem_sort_iff.1 he)) (Nat.zero_le _)
  rw [apply, apply, hsort]
  rw [offsetOf_zero h] at happly
  exact happly

end Edit

/-! ## Instrumented texts -/

end CallTrace
