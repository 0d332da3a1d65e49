import Mathlib
import CallTrace.Instrument.Pass
import CallTrace.Proofs.Edit
import CallTrace.Proofs.Lines
import CallTrace.Proofs.Moved
import CallTrace.Proofs.Sites

/-!
# Sources that answer alike

`Carries s s' n f` says that all that a pass asks of the source `s` is answered in the same way by the
source `s'`, for places `n` lines further down; `f` leads from the offsets of the one to those of the
other.  The edits of a pass are then the same, at other offsets: `wrapDefinition_down` and
`wrapLambda_down` say so of one function, and `visit_down` of all below a tree.

So it is when the lines of one source stand within another (`Within.carries`).
-/

namespace CallTrace

open Syntax Instrument Text

/-- A place in the text of a source. -/
structure Source.Has (s : Source) (p : Position) : Prop where
  one_le : 1 ≤ p.line
  le_count : p.line ≤ s.table.count
  offset_le : s.table.offset p ≤ s.table.text.length
  exists_placeOf : ∃ k ≤ (normalizeNewlines s.table.text).length, p = placeOf s.table.text k

/-- A tree with a place in the text of a source. -/
structure Source.Contains (s : Source) (t : Tree) : Prop where
  placed : t.span?.isSome = true
  start : s.Has t.start
  stop : s.Has t.stop

/-- A statement with a place in the text of a source, and its decorators. -/
structure Source.ContainsStatement (s : Source) (t : Tree) : Prop extends s.Contains t where
  decorators : ∀ d ∈ t.field .decorators, d.span?.isSome = true
  one_le_first : 1 ≤ Source.firstLine t
  first_le : Source.firstLine t ≤ s.table.count

/-- All that a pass asks of `s` is answered alike by `s'`, for places so many lines further down. -/
structure Carries (s s' : Source) (n : Nat) (f : Nat → Nat) : Prop where
  isBlank : ∀ {m}, 1 ≤ m → m ≤ s.table.count → s'.table.isBlank (m + n) = s.table.isBlank m
  indentOf : ∀ {m}, 1 ≤ m → m ≤ s.table.count → s'.table.indentOf (m + n) = s.table.indentOf m
  lineStart : ∀ {m}, 1 ≤ m → m ≤ s.table.count + 1 →
    s'.table.lineStart (m + n) = f (s.table.lineStart m)
  shiftPoint : ∀ {m}, 1 ≤ m → m ≤ s.table.count →
    s'.table.shiftPoint (m + n) = f (s.table.shiftPoint m)
  beginsInLiteral : ∀ {m}, 1 ≤ m → m ≤ s.table.count →
    s'.beginsInLiteral (m + n) = s.beginsInLiteral m
  offset : ∀ {p}, s.Has p → s'.table.offset (p.down n) = f (s.table.offset p)
  atPosition : ∀ {p}, s.Has p → s'.table.atLineStart (p.down n) = s.table.atLineStart p
  writtenName : ∀ {p q}, s.Has p → s.Has q →
    Function.writtenName (s'.table.between (f (s.table.offset p)) (f (s.table.offset q))) =
      Function.writtenName (s.table.between (s.table.offset p) (s.table.offset q))

namespace Carries

variable {s s' : Source} {n : Nat} {f : Nat → Nat} (C : Carries s s' n f) {t : Tree}

include C

theorem start (h : s.Contains t) : s'.start (t.down n) = f (s.start t) := by
  rw [Source.start, Source.start, Tree.start_down h.placed, C.offset h.start]

theorem stop (h : s.Contains t) : s'.stop (t.down n) = f (s.stop t) := by
  rw [Source.stop, Source.stop, Tree.stop_down h.placed, C.offset h.stop]

theorem atLineStart (h : s.Contains t) : s'.atLineStart (t.down n) = s.atLineStart t := by
  rw [Source.atLineStart, Source.atLineStart, Tree.start_down h.placed, C.atPosition h.start]

end Carries

/-- The lines of `s` stand in `s'`, so many lines and characters further down. -/
structure Within (s s' : Source) (n k : Nat) : Prop where
  line : ∀ m, 1 ≤ m → m ≤ s.table.count → s'.table.line (m + n) = s.table.line m
  lineStart : ∀ m, 1 ≤ m → m ≤ s.table.count + 1 →
    s'.table.lineStart (m + n) = s.table.lineStart m + k
  between : ∀ x y, y ≤ s.table.text.length → s'.table.between (x + k) (y + k) = s.table.between x y
  beginsInLiteral : ∀ m, 1 ≤ m → m ≤ s.table.count →
    s'.beginsInLiteral (m + n) = s.beginsInLiteral m

namespace Within

variable {s s' : Source} {n k : Nat} (W : Within s s' n k)

include W

theorem offset {p : Position} (h : s.Has p) : s'.table.offset (p.down n) = s.table.offset p + k := by
  rw [LineTable.offset, LineTable.offset]
  show s'.table.lineStart (p.line + n) + wholeCharsWithin (s'.table.line (p.line + n)) p.column = _
  rw [W.line p.line h.one_le h.le_count, W.lineStart p.line h.one_le (h.le_count.trans (Nat.le_succ _))]
  omega

/-- What stands further down answers alike. -/
theorem carries : Carries s s' n (· + k) where
  isBlank h₁ h₂ := by rw [LineTable.isBlank, LineTable.isBlank, W.line _ h₁ h₂]
  indentOf h₁ h₂ := by rw [LineTable.indentOf, LineTable.indentOf, W.line _ h₁ h₂]
  lineStart h₁ h₂ := W.lineStart _ h₁ h₂
  shiftPoint h₁ h₂ := by
    rw [LineTable.shiftPoint, LineTable.shiftPoint, W.line _ h₁ h₂, W.lineStart _ h₁ (by omega)]
    omega
  beginsInLiteral h₁ h₂ := W.beginsInLiteral _ h₁ h₂
  offset h := W.offset h
  atPosition {p} h := by
    rw [LineTable.atLineStart, LineTable.atLineStart, W.offset h]
    show Unicode.allBlank (s'.table.between (s'.table.lineStart (p.line + n)) _) = _
    rw [W.lineStart _ h.one_le (h.le_count.trans (Nat.le_succ _)), W.between _ _ h.offset_le]
  writtenName _ hq := congrArg Function.writtenName (W.between _ _ hq.offset_le)

end Within

/-! ## Functions -/

namespace Definition

/-- The definition so many lines further down. -/
def down (n : Nat) (d : Definition) : Definition :=
  { d with
    node := d.node.down n
    docstring := d.docstring.map (Tree.down n)
    statements := d.statements.map (Tree.down n) }

/-- The definition without its texts, which have no part in its edits. -/
def bare (d : Definition) : Definition :=
  { d with header := [], bodyText := [] }

/-- A definition with its places in the text of a source. -/
structure Fits (s : Source) (d : Definition) : Prop where
  node : s.Contains d.node
  body : ∀ t ∈ d.body, s.ContainsStatement t
  ne_nil : d.body ≠ []
  parts : d.body = d.docstring.toList ++ d.statements

variable {s : Source} {d : Definition} {n : Nat}

@[simp] theorem node_down : (d.down n).node = d.node.down n := rfl

@[simp] theorem name_down : (d.down n).name = d.name := rfl

@[simp] theorem depth_down : (d.down n).depth = d.depth := rfl

@[simp] theorem docstring_down : (d.down n).docstring = d.docstring.map (Tree.down n) := rfl

@[simp] theorem statements_down : (d.down n).statements = d.statements.map (Tree.down n) := rfl

@[simp] theorem body_down : (d.down n).body = d.body.map (Tree.down n) :=
  Tree.field_down .body

@[simp] theorem isEmpty_down : (d.down n).isEmpty = d.isEmpty := by
  rw [isEmpty, isEmpty, statements_down]
  cases d.statements with
  | nil => rfl
  | cons t ts =>
    cases ts with
    | nil => exact Tree.is_down .passStmt
    | cons u us => rfl

theorem Fits.docstring (h : d.Fits s) {t : Tree} (ht : d.docstring = some t) : s.Contains t :=
  (h.body t (by rw [h.parts, ht]; exact List.mem_cons_self)).toContains

theorem Fits.statement (h : d.Fits s) {t : Tree} (ht : t ∈ d.statements) : s.ContainsStatement t :=
  h.body t (by rw [h.parts]; exact List.mem_append_right _ ht)

end Definition

/-- The lambda so many lines further down. -/
def BoundLambda.down (n : Nat) (l : BoundLambda) : BoundLambda :=
  { l with node := l.node.down n, body := l.body.down n }

/-- The function so many lines further down. -/
def Function.Shape.down (n : Nat) : Shape → Shape
  | .definition d => .definition (d.down n)
  | .lambda l => .lambda (l.down n)
  | .unmatched => .unmatched

/-- The function without the texts that have no part in its edits. -/
def Function.Shape.bare : Shape → Shape
  | .definition d => .definition d.bare
  | .lambda l => .lambda l
  | .unmatched => .unmatched

namespace Function.Shape

variable {x : Shape}

theorem exists_definition {d : Definition} (h : x.bare = (definition d).bare) :
    ∃ d', x = .definition d' ∧ d'.bare = d.bare := by
  cases x with
  | definition d' => exact ⟨d', rfl, definition.inj h⟩
  | lambda l => cases h
  | unmatched => cases h

theorem eq_lambda {l : BoundLambda} (h : x.bare = (lambda l).bare) : x = .lambda l := by
  cases x with
  | definition d => cases h
  | lambda l' => exact h
  | unmatched => cases h

theorem eq_unmatched (h : x.bare = unmatched.bare) : x = .unmatched := by
  cases x with
  | definition d => cases h
  | lambda l => cases h
  | unmatched => rfl

end Function.Shape

/-- A function with its places in the text of a source. -/
def Function.Shape.Fits (s : Source) : Shape → Prop
  | .definition d => d.Fits s
  | .lambda l => s.Contains l.body
  | .unmatched => True

/-- Two lists of nodes that say the same of what stands below them, where all below the second has been
moved down. -/
structure Alike (n : Nat) (above above' : List Tree) : Prop where
  kinds : above'.map Tree.kind? = above.map Tree.kind?
  bindingName : ∀ t, Function.bindingName above' (t.down n) = Function.bindingName above t

namespace Alike

variable {n : Nat} {above above' : List Tree} (A : Alike n above above')

include A

theorem any_is (k : Kind) : above'.any (·.is k) = above.any (·.is k) := by
  have h (ts : List Tree) : ts.any (·.is k) = (ts.map Tree.kind?).any fun kind => kind = some k := by
    rw [List.any_map]
    rfl
  rw [h, h, A.kinds]

theorem isMethod : Function.isMethod above' = Function.isMethod above := by
  have h (ts : List Tree) : Function.isMethod ts =
      ((ts.map Tree.kind?).find? fun kind => kind.any Kind.isScope).any fun kind =>
        kind = some .classDef := by
    rw [List.find?_map, Option.any_map]
    rfl
  rw [h, h, A.kinds]

/-- A node and the same node moved down can be put on top. -/
theorem cons (t : Tree) : Alike n (t :: above) (t.down n :: above') where
  kinds := by rw [List.map_cons, List.map_cons, A.kinds, Tree.kind?_down]
  bindingName u := by
    simp only [Function.bindingName, Tree.role_down, Tree.is_down, Tree.field_down, Tree.item?_down]
    split
    · rfl
    · split
      · cases h : t.field .targets with
        | nil => rfl
        | cons target rest => cases rest <;> simp
      · split
        · cases t.item? .target <;> simp
        · rfl

end Alike

namespace Function

variable {s s' : Source} {n : Nat} {f : Nat → Nat}

/-- The pieces of a definition move with it. -/
theorem definitionOf_down (C : Carries s s' n f) {t : Tree} {depth : Int}
    (h : (definitionOf s t depth).Fits s) :
    (definitionOf s' (t.down n) depth).bare = ((definitionOf s t depth).down n).bare := by
  have hnode : s.Contains t := h.node
  obtain ⟨first, hfirst⟩ : ∃ first, (t.field .body).head? = some first :=
    Option.isSome_iff_exists.1 (List.isSome_head?.2 h.ne_nil)
  have hcontains : s.Contains first := (h.body first (List.mem_of_mem_head? hfirst)).toContains
  have hheader : writtenName (s'.table.between (f (s.start t)) (f (s.start first))) =
      writtenName (s.table.between (s.start t) (s.start first)) :=
    C.writtenName hnode.start hcontains.start
  have hdoc : ((t.field .body).head?.map (Tree.down n)).filter isDocstring =
      ((t.field .body).head?.filter isDocstring).map (Tree.down n) := by
    rw [Option.filter_map]
    congr 2
    funext u
    exact isDocstring_down
  simp only [definitionOf, Definition.bare, Definition.down, Tree.field_down, List.head?_map,
    Tree.word?_down, C.start hnode, hdoc, Option.isSome_map]
  simp only [hfirst, Option.map_some, Option.getD_some, C.start hcontains, hheader]
  congr 1
  split
  · exact List.map_drop.symm
  · rfl

/-- A node that is moved down is the same to the tracer. -/
theorem classify_down (C : Carries s s' n f) {above above' : List Tree} (A : Alike n above above')
    {t : Tree} {depth : Int} (h : (classify s above t depth).Fits s) :
    (classify s' above' (t.down n) depth).bare = ((classify s above t depth).down n).bare := by
  cases t with
  | leaf r v => rfl
  | node r kind span items =>
    have hdown := Tree.down_node n r kind span items
    have hname := A.bindingName (.node r kind span items)
    rw [hdown] at hname ⊢
    rw [classify] at h ⊢
    rw [classify, A.isMethod, A.any_is, hname, List.find?_map]
    split
    · rename_i hk
      rw [if_pos hk] at h
      split
      · rfl
      · rename_i hm
        rw [if_neg hm] at h
        rw [← hdown]
        exact congrArg Shape.definition (definitionOf_down C h)
    · split
      · split
        · rfl
        · have hrole : ((fun u : Tree => decide (u.role = .body)) ∘ Tree.down n) =
              fun u => decide (u.role = .body) := by
            funext u
            simp
          rw [hrole]
          cases items.find? fun u => decide (u.role = .body) with
          | none => rfl
          | some body =>
            rw [← hdown]
            rfl
      · rfl

end Function

/-! ## Edits -/

/-- The same edit at other offsets. -/
def Edit.carry (f : Nat → Nat) (e : Edit) : Edit :=
  { e with start := f e.start.toNat, stop := f e.stop.toNat }

theorem Edit.carry_add {e : Edit} (h₁ : 0 ≤ e.start) (h₂ : e.start ≤ e.stop) (k : Nat) :
    e.carry (· + k) = e.move k := by
  simp only [carry, move, Nat.cast_add, Int.toNat_of_nonneg h₁, Int.toNat_of_nonneg (h₁.trans h₂)]

namespace Instrument

variable {o : Options} {s s' : Source} {n : Nat} {f : Nat → Nat} {units : List (List Char)}

theorem insertion_carry (x : Nat) (text : List Char) (order : List Int) :
    insertion (f x) text order = (insertion x text order).carry f := by
  simp [insertion, Edit.carry]

theorem shifts_down (C : Carries s s' n f) (unit : List Char) {start stop : Nat} (h₁ : 1 ≤ start)
    (h₂ : stop ≤ s.table.count) :
    shifts s' unit (start + n) (stop + n) = (shifts s unit start stop).map (Edit.carry f) := by
  have hrange : List.range' (start + n) (stop + n + 1 - (start + n)) =
      (List.range' start (stop + 1 - start)).map (· + n) := by
    rw [show stop + n + 1 - (start + n) = stop + 1 - start by omega, Nat.add_comm start n]
    rw [← List.map_add_range']
    exact List.map_congr_left fun m _ => Nat.add_comm n m
  have hbounds : ∀ m ∈ List.range' start (stop + 1 - start), 1 ≤ m ∧ m ≤ s.table.count := by
    intro m hm
    rw [List.mem_range'_1] at hm
    omega
  rw [shifts, shifts, hrange, List.filter_map, List.map_map, List.map_map]
  have hfilter : (List.range' start (stop + 1 - start)).filter
        ((fun m => !s'.beginsInLiteral m && !s'.table.isBlank m) ∘ (· + n)) =
      (List.range' start (stop + 1 - start)).filter
        (fun m => !s.beginsInLiteral m && !s.table.isBlank m) := by
    refine List.filter_congr fun m hm => ?_
    obtain ⟨h₁, h₂⟩ := hbounds m hm
    rw [Function.comp_apply, C.beginsInLiteral h₁ h₂, C.isBlank h₁ h₂]
  rw [hfilter]
  refine List.map_congr_left fun m hm => ?_
  obtain ⟨h₁, h₂⟩ := hbounds m (List.mem_of_mem_filter hm)
  rw [Function.comp_apply, Function.comp_apply, C.shiftPoint h₁ h₂, insertion_carry]

theorem bodyIndentation_down (C : Carries s s' n f) {node first : Tree} (hn : s.Contains node)
    (hf : s.ContainsStatement first) :
    bodyIndentation s' (node.down n) (first.down n) = bodyIndentation s node first := by
  have hheader : s'.table.indentOf (node.down n).start.line = s.table.indentOf node.start.line := by
    rw [Tree.start_down hn.placed]
    exact C.indentOf hn.start.one_le hn.start.le_count
  have hfirst : s'.table.indentOf (Source.firstLine (first.down n)) =
      s.table.indentOf (Source.firstLine first) := by
    rw [Source.firstLine_down hf.placed hf.decorators]
    exact C.indentOf hf.one_le_first hf.first_le
  rw [bodyIndentation, bodyIndentation, C.atLineStart hf.toContains, hheader, hfirst]

theorem wrapLambda_down (C : Carries s s' n f) {l : BoundLambda} (h : s.Contains l.body) :
    wrapLambda o s' units (l.down n) = (wrapLambda o s units l).map (Edit.carry f) := by
  rw [wrapLambda, wrapLambda]
  show [insertion (s'.start (l.body.down n)) _ _, insertion (s'.stop (l.body.down n)) _ _] = _
  rw [C.start h, C.stop h, insertion_carry, insertion_carry]
  rfl

theorem wrapDefinition_bare (d : Definition) :
    wrapDefinition o s units d.bare = wrapDefinition o s units d :=
  rfl

/-- The edits of a definition move with it. -/
theorem wrapDefinition_down (C : Carries s s' n f) {d : Definition} (h : d.Fits s) :
    wrapDefinition o s' units (d.down n) =
      ⟨(wrapDefinition o s units d).edits.map (Edit.carry f), (wrapDefinition o s units d).unit⟩ := by
  rw [wrapDefinition, wrapDefinition, Definition.body_down, List.head?_map, Definition.isEmpty_down]
  cases hfirst : d.body.head? with
  | none => rfl
  | some first =>
    have hf := h.body first (List.mem_of_mem_head? hfirst)
    simp only [Option.map_some]
    rw [Definition.node_down, bodyIndentation_down C h.node hf, C.atLineStart hf.toContains,
      Definition.name_down, Definition.depth_down, Definition.docstring_down,
      Definition.statements_down]
    generalize bodyIndentation s d.node first = indentation
    generalize emission (o.entering d.name d.depth) = enter
    generalize emission (o.leaving d.name d.depth) = leave
    generalize s.atLineStart first = fresh
    have hdoc : ∀ t, d.docstring = some t → s.Contains t := fun t => h.docstring
    have hstmt : ∀ t ∈ d.statements, s.ContainsStatement t := fun t => h.statement
    -- the telling statements of an empty body, then the wrapped statements of another
    by_cases hempty : d.isEmpty = true
    · simp only [hempty, if_true]
      cases hd : d.docstring with
      | none =>
        cases hs : d.statements with
        | nil => rfl
        | cons stmt rest =>
          have hstmt := (hstmt stmt (hs ▸ List.mem_cons_self)).toContains
          simp [C.start hstmt, C.stop hstmt, C.atLineStart hstmt, Edit.carry]
      | some doc =>
        have hdoc := hdoc doc hd
        cases hs : d.statements with
        | nil => cases fresh <;> simp [C.start hdoc, C.stop hdoc, insertion_carry]
        | cons stmt rest =>
          have hstmt := (hstmt stmt (hs ▸ List.mem_cons_self)).toContains
          cases fresh <;>
            simp [C.start hdoc, C.start hstmt, C.stop hstmt, C.atLineStart hstmt, Edit.carry,
              insertion]
    · rw [if_neg hempty, if_neg hempty, List.head?_map, List.getLast?_map]
      cases hh : d.statements.head? with
      | none => cases hd : d.docstring with
        | none => rfl
        | some doc => cases fresh <;> simp [C.start (hdoc doc hd), insertion_carry]
      | some head =>
        cases hl : d.statements.getLast? with
        | none => simp_all
        | some last =>
          have hhead := hstmt head (List.mem_of_mem_head? hh)
          have hlast := hstmt last (List.mem_of_mem_getLast? hl)
          simp only [Option.map_some, C.atLineStart hhead.toContains]
          by_cases hfresh : s.atLineStart head = true
          · have hline : (last.stop.down n).line + 1 = last.stop.line + 1 + n := by
              show last.stop.line + n + 1 = _
              omega
            have hstart := C.lineStart hhead.one_le_first (hhead.first_le.trans (Nat.le_succ _))
            have hstop := C.lineStart (m := last.stop.line + 1) (by omega)
              (Nat.succ_le_succ hlast.stop.le_count)
            simp only [hfresh, Bool.not_true, Bool.false_eq_true, if_false]
            rw [Source.firstLine_down hhead.placed hhead.decorators, Tree.stop_down hlast.placed,
              hline, hstart, hstop]
            show Wrapping.mk (_ ++ _ :: (shifts s' indentation.unit (Source.firstLine head + n)
              (last.stop.line + n) ++ _)) _ = _
            rw [shifts_down C indentation.unit hhead.one_le_first hlast.stop.le_count]
            cases hd : d.docstring with
            | none => simp [insertion_carry]
            | some doc => cases fresh <;> simp [C.start (hdoc doc hd), insertion_carry]
          · simp only [hfresh, Bool.not_false, if_true, C.start hhead.toContains,
              C.stop hlast.toContains]
            cases hd : d.docstring with
            | none => simp [insertion_carry]
            | some doc => cases fresh <;> simp [C.start (hdoc doc hd), insertion_carry]

/-! ## Passes -/

/-- A pass as deep as another, which has recorded the edits of the other, moved, after earlier ones. -/
structure Progress.Follows (f : Nat → Nat) (earlier : List Edit) (p p' : Progress) : Prop where
  counter : p'.counter = p.counter
  recorded : p'.recorded = p.recorded.map (Edit.carry f) ++ earlier

namespace Progress.Follows

variable {earlier : List Edit} {p p' : Progress} (F : p.Follows f earlier p')

include F

theorem enter (edits : List Edit) :
    (p.enter edits).Follows f earlier (p'.enter (edits.map (Edit.carry f))) where
  counter := congrArg DepthCounter.increase F.counter
  recorded := by
    simp only [Progress.enter, F.recorded, List.map_append, List.map_reverse, List.append_assoc]

theorem leave : p.leave.Follows f earlier p'.leave where
  counter := congrArg DepthCounter.decrease F.counter
  recorded := F.recorded

end Progress.Follows

/-- All functions below a tree have their places in the text of a source. -/
def FitsBelow (s : Source) (above : List Tree) (t : Tree) : Prop :=
  ∀ nodes u depth, Under above t nodes u → (Function.classify s nodes u depth).Fits s

theorem FitsBelow.item {above : List Tree} {t u : Tree} (h : FitsBelow s above t) (hu : u ∈ t.items) :
    FitsBelow s (t :: above) u := by
  cases t with
  | leaf r v => cases hu
  | node r kind span ts => exact fun nodes v depth hv => h nodes v depth (.item hu hv)

mutual

/-- What is recorded below a tree moves with it. -/
theorem visit_down (C : Carries s s' n f) {earlier : List Edit} : ∀ (t : Tree)
    {above above' : List Tree} (units : List (List Char)) {p p' : Progress},
    Alike n above above' → FitsBelow s above t → p.Follows f earlier p' →
      (visit o s above units t p).Follows f earlier (visit o s' above' units (t.down n) p')
  | .leaf r v, above, above', units, p, p', _, _, F => F
  | .node r kind span ts, above, above', units, p, p', A, hfits, F => by
    have hshape := hfits above _ p.counter.depth .self
    have hdown := Function.classify_down C A hshape
    have hitems (units : List (List Char)) (part : Part) {p p' : Progress}
        (F : p.Follows f earlier p') :
        (visitItems o s (.node r kind span ts :: above) units part ts p).Follows f earlier
          (visitItems o s' (Tree.down n (.node r kind span ts) :: above') units part
            (ts.map (Tree.down n)) p') :=
      visitItems_down C ts units part (A.cons _) (fun t ht => hfits.item ht) F
    rw [Tree.down_node] at hdown hitems ⊢
    simp only [visit, F.counter]
    cases hc : Function.classify s above (.node r kind span ts) p.counter.depth with
    | definition d =>
      rw [hc] at hshape hdown
      obtain ⟨d', hd', hbare⟩ := Function.Shape.exists_definition hdown
      have hwrap : wrapDefinition o s' units d' = wrapDefinition o s' units (d.down n) := by
        rw [← wrapDefinition_bare, hbare, wrapDefinition_bare]
      simp only [hd', hwrap, wrapDefinition_down C hshape]
      exact (hitems _ _ ((hitems _ _ F).enter _)).leave
    | lambda l =>
      rw [hc] at hshape hdown
      simp only [Function.Shape.eq_lambda hdown, wrapLambda_down C hshape]
      split
      · exact (hitems _ _ ((hitems _ _ F).enter _)).leave
      · exact hitems _ _ F
    | unmatched =>
      rw [hc] at hdown
      simp only [Function.Shape.eq_unmatched hdown]
      exact hitems _ _ F

theorem visitItems_down (C : Carries s s' n f) {earlier : List Edit} : ∀ (ts : List Tree)
    {above above' : List Tree} (units : List (List Char)) (part : Part) {p p' : Progress},
    Alike n above above' → (∀ t ∈ ts, FitsBelow s above t) → p.Follows f earlier p' →
      (visitItems o s above units part ts p).Follows f earlier
        (visitItems o s' above' units part (ts.map (Tree.down n)) p')
  | [], above, above', units, part, p, p', _, _, F => F
  | t :: ts, above, above', units, part, p, p', A, hfits, F => by
    rw [List.map_cons, visitItems, visitItems, Tree.role_down]
    refine visitItems_down C ts units part A (fun u hu => hfits u (List.mem_cons_of_mem t hu)) ?_
    split
    · exact visit_down C t units A (hfits t List.mem_cons_self) F
    · exact F

end

end Instrument

end CallTrace
