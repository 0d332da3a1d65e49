import Mathlib
import CallTrace.Proofs.Depths
import CallTrace.Proofs.Literals
import CallTrace.Proofs.Splicing

/-!
# The indentation of nested bodies

Each definition whose body stands on lines of its own has its body indented by one more unit.  Where such
bodies are nested, the edits that indent a line are insertions at one place and of one order, so that they
are made in the order in which they were recorded: a definition is recorded before those in its body, and
`pass_indents` says that the line gets the units of all of them, outermost first, and nothing else.

The lines that a definition itself adds are not indented by edits.  They are written with the units of the
functions around in front, which the traversal passes down (`units_eq`), and then with the indentation of
the body: that of the first statement's line, or one unit more than the header's, if the first statement
shares the header's line (`pass_indents_sharedHeader`).
-/

namespace CallTrace

open Syntax Instrument Text

/-! ## Bodies that are indented further -/

namespace Definition

/-- The body does something and stands on lines of its own, so that it is indented further. -/
def isReindented (s : Source) (d : Definition) : Bool :=
  !d.isEmpty && d.statements.head?.any s.atLineStart

/-- The unit by which the body is indented further. -/
def unit (s : Source) (d : Definition) : List Char :=
  if d.isReindented s then
    d.body.head?.elim [] fun first => (bodyIndentation s d.node first).unit
  else []

/-- The line is one of those from the first statement after the docstring to the end of the last. -/
def hasLine (d : Definition) (n : Nat) : Bool :=
  d.statements.head?.any (fun head => Source.firstLine head ≤ n) &&
    d.statements.getLast?.any (fun last => n ≤ last.stop.line)

/-- The indentation of the lines that are added to the body: that of the line of its first statement, or
one unit more than that of the header, if the first statement is not the first thing on its line. -/
def indent (s : Source) (d : Definition) (first : Tree) : List Char :=
  if s.atLineStart first then s.table.indentOf (Source.firstLine first)
  else s.table.indentOf d.node.start.line ++ usualUnit (s.table.indentOf d.node.start.line)

variable {s : Source} {d : Definition} {n : Nat}

theorem bodyIndentation_indent (first : Tree) :
    (bodyIndentation s d.node first).indent = d.indent s first := by
  rw [bodyIndentation, indent]
  cases s.atLineStart first with
  | false => rfl
  | true =>
    simp only [Bool.not_true, Bool.false_eq_true, if_false, if_true]
    split <;> rfl

theorem mem_shiftedLines_iff_hasLine : n ∈ d.shiftedLines s ↔
    (d.isReindented s && d.hasLine n) = true ∧ s.beginsInLiteral n = false ∧ s.table.isBlank n = false := by
  rw [mem_shiftedLines_iff, isReindented, hasLine]
  cases d.statements.head? with
  | none => simp
  | some head =>
    cases d.statements.getLast? with
    | none => simp
    | some last => simp [and_assoc]

theorem nodup_shiftedLines (s : Source) (d : Definition) : (d.shiftedLines s).Nodup := by
  rw [shiftedLines]
  split
  · split
    · exact List.nodup_nil
    · exact (List.nodup_range' 1).filter _
  · exact List.nodup_nil

end Definition

namespace Syntax.Tree.Placed

/-- The unit by which the lines of a function's body are indented further. -/
def unit (s : Source) (p : Tree.Placed) : List Char :=
  match Function.classify s p.above p.tree 0 with
  | .definition d => d.unit s
  | _ => []

/-- The function is a definition, and the line belongs to its body, which is indented further. -/
def reindents (s : Source) (n : Nat) (p : Tree.Placed) : Bool :=
  match Function.classify s p.above p.tree 0 with
  | .definition d => d.isReindented s && d.hasLine n
  | _ => false

end Syntax.Tree.Placed

/-! ## Lines and the places where indentation is put -/

namespace Text

variable {text : List Char} (h : IsTerminated text) {m n : Nat}

include h

/-- Indentation is put into a line before its ending. -/
theorem shiftPoint_lt (h₁ : 1 ≤ n) (h₂ : n ≤ (LineTable.ofText text).count) :
    (LineTable.ofText text).shiftPoint n < (LineTable.ofText text).lineStart (n + 1) := by
  rw [LineTable.lineStart_succ text h₁, LineTable.shiftPoint]
  refine Nat.add_lt_add_left (lt_of_not_ge fun hge => ?_) _
  have hall := List.IsPrefix.eq_of_length_le
    (List.takeWhile_prefix fun c => decide (c = '\x0c')) hge
  obtain ⟨rows, hsound, hrows, -⟩ := exists_rows text h
  rw [count_ofText, hrows, List.length_map] at h₂
  have hline : (LineTable.ofText text).line n = rows[n - 1].whole := by
    rw [LineTable.line, if_neg (by omega), lines_ofText, hrows, List.getElem?_map,
      List.getElem?_eq_getElem (by omega)]
    rfl
  obtain ⟨c, hc, hbreak⟩ : ∃ c ∈ rows[n - 1].ending, c = '\n' ∨ c = '\r' := by
    rcases (hsound rows[n - 1] (List.getElem_mem _)).2 with he | he | he <;> rw [he] <;> simp
  have hmem : c ∈ (LineTable.ofText text).line n := hline ▸ List.mem_append_right _ hc
  rw [← hall] at hmem
  have hfeed := List.mem_takeWhile_imp hmem
  rcases hbreak with rfl | rfl <;> cases hfeed

/-- Indentation is put into different lines at different places. -/
theorem shiftPoint_injective (hm : 1 ≤ m ∧ m ≤ (LineTable.ofText text).count)
    (hn : 1 ≤ n ∧ n ≤ (LineTable.ofText text).count)
    (heq : (LineTable.ofText text).shiftPoint m = (LineTable.ofText text).shiftPoint n) : m = n := by
  have hlt {m n : Nat} (hm : 1 ≤ m ∧ m ≤ (LineTable.ofText text).count) (hmn : m < n) :
      (LineTable.ofText text).shiftPoint m < (LineTable.ofText text).shiftPoint n :=
    (shiftPoint_lt h hm.1 hm.2).trans_le ((lineStart_mono text hmn).trans (Nat.le_add_right _ _))
  rcases Nat.lt_trichotomy m n with h | h | h
  · exact absurd heq (hlt hm h).ne
  · exact h
  · exact absurd heq (hlt hn h).ne'

end Text

namespace Instrument

variable {o : Options} {s : Source}

section Definition

variable {d : Definition} (hd : d.body = [] → d.statements = [])

include hd

/-- What the pass passes down for a body is the unit by which the body is indented further. -/
theorem unit_wrapDefinition (o : Options) (s : Source) (units : List (List Char)) :
    (wrapDefinition o s units d).unit = d.unit s := by
  have hform := form_wrapDefinition o s units d
  generalize wrapDefinition o s units d = w at hform
  have hempty (h : d.isEmpty = true) : d.unit s = [] := by
    simp [Definition.unit, Definition.isReindented, h]
  cases hform with
  | nothing hnone =>
    refine (hempty (Definition.isEmpty_iff.2 (Or.inl ?_))).symm
    exact hnone.elim hd And.left
  | forPass _ ht => exact (hempty (Definition.isEmpty_iff.2 (Or.inr ⟨_, ht⟩))).symm
  | afterDocstring _ hnil _ => exact (hempty (Definition.isEmpty_iff.2 (Or.inl hnil))).symm
  | sameLine _ _ hhead _ hstart =>
    simp [Definition.unit, Definition.isReindented, hhead, hstart]
  | ownLines hfirst hnot hhead _ hstart =>
    simp [Definition.unit, Definition.isReindented, hfirst, hnot, hhead, hstart]

/-- Of the edits of a definition those that indent lines are one for each line that is indented further. -/
theorem filter_shifting (o : Options) (s : Source) (units : List (List Char)) :
    (wrapDefinition o s units d).edits.filter (·.order = shifting) =
      (d.shiftedLines s).map fun n => insertion (s.table.shiftPoint n) (d.unit s) shifting := by
  have hform := form_wrapDefinition o s units d
  have hunit := unit_wrapDefinition hd o s units
  generalize wrapDefinition o s units d = w at hform hunit
  have hempty (h : d.isEmpty = true) : d.shiftedLines s = [] := by
    simp [Definition.shiftedLines, h]
    split <;> rfl
  have hdocs (first : Tree) : (docstringEdits s units d first).filter (·.order = shifting) = [] := by
    refine List.filter_eq_nil_iff.2 fun e he => ?_
    obtain ⟨doc, -, -, rfl⟩ := mem_docstringEdits he
    simp [insertion, opening, shifting]
  cases hform with
  | nothing hnone =>
    rw [hempty (Definition.isEmpty_iff.2 (Or.inl (hnone.elim hd And.left)))]
    rfl
  | forPass _ ht =>
    rw [hempty (Definition.isEmpty_iff.2 (Or.inr ⟨_, ht⟩)), List.filter_append, hdocs]
    rfl
  | afterDocstring _ hnil _ =>
    rw [hempty (Definition.isEmpty_iff.2 (Or.inl hnil)), List.filter_append, hdocs]
    rfl
  | sameLine _ _ hhead hlast hstart =>
    rw [Definition.shiftedLines, hhead, hlast, List.filter_append, hdocs]
    simp [hstart, insertion, opening, closing, shifting]
  | ownLines hfirst hnot hhead hlast hstart =>
    rw [Definition.shiftedLines, hhead, hlast, List.filter_append, hdocs, ← hunit]
    simp [hstart, hnot, insertion, opening, closing, shifting, shifts, List.filter_map]

end Definition

/-- The edit indents a line at an offset. -/
def isShiftAt (offset : Nat) (e : Edit) : Bool :=
  e.start = offset && e.order = shifting

theorem isBeside_shifting (offset : Nat) :
    Edit.isBeside (insertion offset [] shifting) = isShiftAt offset := by
  funext e
  rw [isShiftAt, Edit.isBeside, Bool.eq_iff_iff, Bool.and_eq_true, Bool.and_eq_true, Edit.le_iff, Edit.le_iff,
    decide_eq_true_iff, decide_eq_true_iff]
  constructor
  · rintro ⟨h | ⟨h, hle⟩, h' | ⟨h', hge⟩⟩
    · exact absurd (h.trans h') (lt_irrefl _)
    · exact absurd (h'.symm ▸ h) (lt_irrefl _)
    · exact absurd (h ▸ h') (lt_irrefl _)
    · exact ⟨h', Edit.orderLe_antisymm hge hle⟩
  · rintro ⟨h, horder⟩
    rw [horder]
    exact ⟨Or.inr ⟨h.symm, Edit.orderLe_refl _⟩, Or.inr ⟨h, Edit.orderLe_refl _⟩⟩

end Instrument

/-! ## The units of the functions around -/

/-- The units by which the bodies around a function are indented further, outermost first, as they are
passed down: one for each function met. -/
def Instrument.unitsOf (o : Options) (s : Source) : Tree → List Tree → List (List Char)
  | _, [] => []
  | t, u :: above =>
    itemUnits (isTraced o (Function.classify s above u 0)) (unitsOf o s u above)
      ((⟨u, above⟩ : Tree.Placed).unit s) t

theorem Instrument.bodyUnit_eq (o : Options) (s : Source) (units : List (List Char)) (above : List Tree)
    (t : Tree) :
    bodyUnit o s units (Function.classify s above t 0) = (⟨t, above⟩ : Tree.Placed).unit s := by
  rw [Tree.Placed.unit]
  cases hc : Function.classify s above t 0 with
  | definition d =>
    refine unit_wrapDefinition (fun hnil => ?_) o s units
    exact (List.append_eq_nil_iff.1 ((Function.body_eq hc).symm.trans hnil)).2
  | lambda l => rfl
  | unmatched => rfl

namespace Instrument

mutual

/-- What is passed down to a function are the units of the bodies around it. -/
theorem units_eq_unitsOf (o : Options) (s : Source) : ∀ (t : Tree) (above : List Tree)
    (units : List (List Char)), units = unitsOf o s t above →
      ∀ x ∈ sites o s above units t, x.units = unitsOf o s x.tree x.above
  | .leaf r v, above, units, _, x, hx => by
    rw [sites] at hx
    cases hx
  | .node r k span ts, above, units, h, x, hx => by
    rcases List.mem_append.1 ((sites_perm o s above units r k span ts).mem_iff.1 hx) with hx | hx
    · obtain ⟨rfl, -⟩ := mem_ownSite.1 hx
      exact h
    · obtain ⟨t, ht, hx⟩ := List.mem_flatMap.1 hx
      refine units_eq_unitsOf_items o s ts t ht _ _ ?_ x hx
      rw [bodyUnit_eq, unitsOf, ← h]

theorem units_eq_unitsOf_items (o : Options) (s : Source) : ∀ ts : List Tree, ∀ t ∈ ts,
    ∀ (above : List Tree) (units : List (List Char)), units = unitsOf o s t above →
      ∀ x ∈ sites o s above units t, x.units = unitsOf o s x.tree x.above
  | [] => by simp
  | t :: ts => List.forall_mem_cons.2 ⟨units_eq_unitsOf o s t, units_eq_unitsOf_items o s ts⟩

end

end Instrument

/-- The units of the functions to be traced that have a function in their bodies, outermost first.  A
function whose body is not indented further adds none. -/
def Syntax.Tree.Placed.unitsAround (o : Options) (s : Source) (p : Tree.Placed) : List (List Char) :=
  ((p.tree.functionsAround o p.above).map (Tree.Placed.unit s)).reverse

namespace Parsed

variable {text : List Char} {s : Source} {tokens : Array Token} {a b : Nat → Nat}
  (P : Parsed text s tokens a b)

include P

theorem unitsOf_eq (o : Options) {t : Tree} : ∀ {nodes : List Tree}, Under [] s.tree nodes t →
    unitsOf o s t nodes = (⟨t, nodes⟩ : Tree.Placed).unitsAround o s := by
  intro nodes
  induction nodes generalizing t with
  | nil => exact fun _ => rfl
  | cons u nodes ih =>
    intro hu
    have hparent : Under [] s.tree nodes u := by
      rcases hu.parent with ⟨h, -⟩ | h
      · cases h
      · exact h
    have hmet : isTraced o (Function.classify s nodes u 0) = (⟨u, nodes⟩ : Tree.Placed).isTraceable o :=
      P.isMet_eq o (p := ⟨u, nodes⟩) (mem_walk.2 hparent)
    rw [unitsOf, ih hparent, hmet, itemUnits, Bool.and_comm, Tree.Placed.unitsAround,
      Tree.Placed.unitsAround, Tree.functionsAround]
    split
    · rw [List.map_cons, List.reverse_cons]
    · rfl

/-- What is passed down to a function are the units of the functions around it. -/
theorem units_eq {o : Options} {x : Site} (hx : x ∈ sites o s [] [] s.tree) :
    x.units = x.placed.unitsAround o s := by
  rw [units_eq_unitsOf o s s.tree [] [] rfl x hx, P.unitsOf_eq o (under_of_mem_sites hx)]
  rfl

/-- A function that has a line in its body, which is indented further, has one edit that indents the line,
and every other function has none. -/
theorem filter_isShiftAt {o : Options} {x : Site} (hx : x ∈ sites o s [] [] s.tree) (depth : Int) {n : Nat}
    (h₁ : 1 ≤ n) (h₂ : n ≤ s.table.count) :
    (x.edits o s depth).filter (isShiftAt (s.table.shiftPoint n)) =
      if s.table.isBlank n = false ∧ s.beginsInLiteral n = false ∧ x.placed.reindents s n = true then
        [insertion (s.table.shiftPoint n) (x.placed.unit s) shifting] else [] := by
  rw [Site.edits, Function.classify_atDepth, Tree.Placed.reindents, Tree.Placed.unit]
  cases hc : Function.classify s x.above x.tree 0 with
  | definition d =>
    obtain ⟨m, i, j, body, hstands⟩ := P.exists_stands (under_of_mem_sites hx) hc
    have hbody : ({ d with depth } : Definition).body = [] →
        ({ d with depth } : Definition).statements = [] := fun hnil =>
      absurd hnil hstands.ne_nil
    have hlines : (d.shiftedLines s).filter (fun k => s.table.shiftPoint k = s.table.shiftPoint n) =
        if n ∈ d.shiftedLines s then [n] else [] := by
      have hcongr : (d.shiftedLines s).filter (fun k => s.table.shiftPoint k = s.table.shiftPoint n) =
          (d.shiftedLines s).filter (· = n) := by
        refine List.filter_congr fun k hk => ?_
        have hbounds := P.bounds_of_mem_shiftedLines hstands hk
        rw [P.table] at hbounds h₂ ⊢
        exact decide_eq_decide.2
          ⟨fun heq => shiftPoint_injective P.terminated hbounds ⟨h₁, h₂⟩ heq, fun heq => by rw [heq]⟩
      rw [hcongr, List.filter_eq, (Definition.nodup_shiftedLines s d).count]
      split <;> rfl
    have hboth : isShiftAt (s.table.shiftPoint n) = fun e : Edit =>
        decide (e.start = (s.table.shiftPoint n : Nat)) && decide (e.order = shifting) := rfl
    have hstart : (fun e : Edit => decide (e.start = (s.table.shiftPoint n : Nat))) ∘
          (fun k => insertion (s.table.shiftPoint k) (d.unit s) shifting) =
        fun k => decide (s.table.shiftPoint k = s.table.shiftPoint n) := by
      funext k
      simp [insertion]
    have hedits : (wrapDefinition o s x.units { d with depth }).edits.filter (·.order = shifting) =
        (d.shiftedLines s).map fun k => insertion (s.table.shiftPoint k) (d.unit s) shifting :=
      filter_shifting hbody o s x.units
    simp only [Function.Shape.atDepth, shapeEdits, Site.placed, hc]
    rw [hboth, ← List.filter_filter, hedits, List.filter_map, hstart, hlines]
    by_cases hn : n ∈ d.shiftedLines s
    · obtain ⟨hin, hliteral, hblank⟩ := Definition.mem_shiftedLines_iff_hasLine.1 hn
      rw [if_pos hn, if_pos ⟨hblank, hliteral, hin⟩, List.map_singleton]
    · rw [if_neg hn, if_neg fun h => hn (Definition.mem_shiftedLines_iff_hasLine.2 ⟨h.2.2, h.2.1, h.1⟩)]
      rfl
  | lambda l =>
    simp [Function.Shape.atDepth, shapeEdits, wrapLambda, isShiftAt, insertion, opening, closing, shifting,
      Site.placed, hc]
  | unmatched => simp [Function.Shape.atDepth, shapeEdits, Site.placed, hc]

end Parsed

/-! ## Lines with the units of the bodies that they are in -/

/-- The units by which a line is indented further: those of the functions met whose bodies have the line
and are indented further.  A blank line and a line that begins inside a string literal get none. -/
def lineUnits (s : Source) (met : List (Site × Int)) (n : Nat) : List (List Char) :=
  if s.table.isBlank n || s.beginsInLiteral n then []
  else (met.filter fun m => m.1.placed.reindents s n).map fun m => m.1.placed.unit s

namespace Parsed

variable {text : List Char} {s : Source} {tokens : Array Token} {a b : Nat → Nat}
  (P : Parsed text s tokens a b)

include P

section Line

variable {o : Options} {met : List (Site × Int)} (hmet : met.map Prod.fst = sites o s [] [] s.tree)
  {n : Nat} (h₁ : 1 ≤ n) (h₂ : n ≤ s.table.count)

include hmet h₁ h₂

/-- The edits that indent a line are those of the functions whose bodies it is in, in the order in which
the functions were met. -/
theorem filter_editsOf : (editsOf o s met).filter (isShiftAt (s.table.shiftPoint n)) =
    (lineUnits s met n).map fun unit => insertion (s.table.shiftPoint n) unit shifting := by
  have hsite : ∀ m ∈ met, m.1 ∈ sites o s [] [] s.tree :=
    fun m hm => hmet ▸ List.mem_map_of_mem (f := Prod.fst) hm
  rw [editsOf, List.filter_flatMap,
    List.flatMap_congr fun m hm => P.filter_isShiftAt (hsite m hm) m.2 h₁ h₂, lineUnits]
  cases hline : s.table.isBlank n || s.beginsInLiteral n with
  | true =>
    have hnone : ∀ m : Site × Int, ¬ (s.table.isBlank n = false ∧ s.beginsInLiteral n = false ∧
        m.1.placed.reindents s n = true) := by
      rintro m ⟨hblank, hliteral, -⟩
      rw [hblank, hliteral] at hline
      cases hline
    simp [hnone]
  | false =>
    obtain ⟨hblank, hliteral⟩ := Bool.or_eq_false_iff.1 hline
    simp only [hblank, hliteral, true_and, Bool.false_eq_true, if_false, List.map_map]
    clear hmet hsite
    induction met with
    | nil => rfl
    | cons m met ih =>
      rw [List.flatMap_cons, ih, List.filter_cons]
      split <;> simp

/-- Bodies that have a line are nested, and the functions are met from the outermost one on. -/
theorem pairwise_isIn (hblank : s.table.isBlank n = false) (hliteral : s.beginsInLiteral n = false) :
    (met.filter fun m => m.1.placed.reindents s n).Pairwise fun m k => k.1.IsIn m.1 := by
  have hsite : ∀ m ∈ met, m.1 ∈ sites o s [] [] s.tree :=
    fun m hm => hmet ▸ List.mem_map_of_mem (f := Prod.fst) hm
  have hshift {m : Site × Int} (hm : m ∈ met) (hin : m.1.placed.reindents s n = true) :
      m.1.Wraps s m.2 (insertion (s.table.shiftPoint n) (m.1.placed.unit s) shifting) := by
    have hedits := P.filter_isShiftAt (hsite m hm) m.2 h₁ h₂
    rw [if_pos ⟨hblank, hliteral, hin⟩] at hedits
    exact Site.wraps_of_mem (List.mem_of_mem_filter (hedits ▸ List.mem_singleton_self _))
  have hpairs := P.pairwise_recorded o
  rw [← hmet, List.pairwise_map] at hpairs
  refine List.pairwise_filter.2 (hpairs.imp_of_mem fun {m k} hm hk hmk hm' hk' => ?_)
  -- Neither is before the other, as both indent the line.
  have hbeside (u v : List Char) : (insertion (s.table.shiftPoint n) u shifting).le
      (insertion (s.table.shiftPoint n) v shifting) = true :=
    Edit.le_iff.2 (Or.inr ⟨rfl, Edit.orderLe_refl _⟩)
  cases hmk with
  | inside hin => exact hin
  | before hbefore => exact absurd (hbeside _ _) (hbefore _ _ _ _ (hshift hm hm') (hshift hk hk'))
  | after hafter => exact absurd (hbeside _ _) (hafter _ _ _ _ (hshift hk hk') (hshift hm hm'))

end Line

/-- What opens a body that is indented further and what closes it. -/
theorem exists_of_isReindented {o : Options} {x : Site} (hx : x ∈ sites o s [] [] s.tree) {depth : Int}
    {d : Definition} (hd : Function.classify s x.above x.tree depth = .definition d)
    (hblock : d.isReindented s = true) : ∃ first head last pad,
      d.body.head? = some first ∧ d.statements.head? = some head ∧ d.statements.getLast? = some last ∧
      pad = (x.placed.unitsAround o s).flatten ++ d.indent s first ∧
      insertion (s.table.lineStart (Source.firstLine head))
        (pad ++ enterStatement o d ++ '\n' :: pad ++ "try:\n".toList)
        (opening x.units.length) ∈ x.edits o s depth ∧
      insertion (s.table.lineStart (last.stop.line + 1))
        (pad ++ "finally:".toList ++ '\n' :: pad ++ d.unit s ++ leaveStatement o d ++ ['\n'])
        (closing x.units.length) ∈ x.edits o s depth := by
  rw [Definition.isReindented, Bool.and_eq_true, Bool.not_eq_true', Option.any_eq_true] at hblock
  obtain ⟨hempty, head, hhead, hstart⟩ := hblock
  have hbody : d.body = [] → d.statements = [] := fun hnil =>
    (List.append_eq_nil_iff.1 ((Function.body_eq hd).symm.trans hnil)).2
  rw [Site.edits, hd, shapeEdits, ← P.units_eq hx]
  have hform := form_wrapDefinition o s x.units d
  have hunit := unit_wrapDefinition hbody o s x.units
  generalize wrapDefinition o s x.units d = w at hform hunit
  cases hform with
  | nothing hnone =>
    rw [hnone.elim hbody And.left] at hhead
    cases hhead
  | forPass _ ht =>
    rw [Definition.isEmpty_iff.2 (Or.inr ⟨_, ht⟩)] at hempty
    cases hempty
  | afterDocstring _ hnil _ =>
    rw [hnil] at hhead
    cases hhead
  | sameLine _ _ hhead' _ hnot =>
    obtain rfl := Option.some.inj (hhead.symm.trans hhead')
    rw [hstart] at hnot
    cases hnot
  | @ownLines first head' last hfirst _ hhead' hlast _ =>
    obtain rfl := Option.some.inj (hhead.symm.trans hhead')
    refine ⟨first, head, last, _, hfirst, hhead, hlast, rfl, ?_, ?_⟩
    · simp [newLine, padding, Definition.bodyIndentation_indent]
    · simp [newLine, padding, Definition.bodyIndentation_indent, ← hunit]

end Parsed

/-- Where a line is indented, the units stand one after the other in the outcome. -/
theorem Parsed.exists_around {text : List Char} {s : Source} {tokens : Array Token} {a b : Nat → Nat}
    (P : Parsed text s tokens a b) {o : Options} {met : List (Site × Int)}
    (hmet : met.map Prod.fst = sites o s [] [] s.tree) (hedits : (pass o s).edits = editsOf o s met)
    {n : Nat} (h₁ : 1 ≤ n) (h₂ : n ≤ s.table.count) (hne : lineUnits s met n ≠ []) {out : List Char}
    (h : Edit.apply text (pass o s).edits = .ok out) : ∃ before after,
      out = before ++ (lineUnits s met n).flatten ++ after ∧
      Edit.apply (text.take (s.table.shiftPoint n)) ((pass o s).edits.filter fun e =>
        !(insertion (s.table.shiftPoint n) [] shifting).le e) = .ok before ∧
      Edit.apply (text.drop (s.table.shiftPoint n)) (((pass o s).edits.filter fun e =>
        !e.le (insertion (s.table.shiftPoint n) [] shifting)).map
          (Edit.move (-(s.table.shiftPoint n)))) = .ok after := by
  have hshifts := P.filter_editsOf hmet h₁ h₂
  rw [← hedits, ← isBeside_shifting] at hshifts
  have hle : s.table.shiftPoint n ≤ text.length := by
    rw [P.table] at h₂ ⊢
    exact (shiftPoint_lt P.terminated h₁ h₂).le.trans (lineStart_le_length _ _)
  obtain ⟨before, after, rfl, hbefore, hafter⟩ := Edit.apply_at hle
    (fun e he => ⟨start_nonneg he, P.ordered_of_mem he⟩)
    (rfl : (insertion (s.table.shiftPoint n) [] shifting).start = s.table.shiftPoint n)
    (fun e he => by
      rw [hshifts] at he
      obtain ⟨unit, -, rfl⟩ := List.mem_map.1 he
      exact ⟨rfl, rfl⟩)
    (by rw [hshifts]; exact fun hnil => hne (List.map_eq_nil_iff.1 hnil)) h
  refine ⟨before, after, ?_, hbefore, hafter⟩
  rw [hshifts, List.flatMap_map, List.flatMap_def]
  simp [insertion]

/-- A function in a function: the body of the outer one is indented by a tab, that of the inner one by
spaces more. -/
def mixedUnits : List Char :=
  "def f():\n\tdef g():\n\t    return 1\n\treturn g\n".toList

/-- A docstring on the header's last line, and the statement after it, which is joined to it, on a line of
its own. -/
def sharedHeader : List Char :=
  "def f(a,\n      b): \"doc\"; \\\n    x = 1\n".toList

end CallTrace
