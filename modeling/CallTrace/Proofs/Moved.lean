import Mathlib
import CallTrace.Function

/-!
# Trees moved down

`Tree.down n` moves all places of a tree down by `n` lines.  Nothing else in the tree changes: kinds,
roles, names and constants stay, and the fields of the moved node are its fields moved.
-/

namespace CallTrace

namespace Syntax

/-- The place so many lines further down. -/
def Position.down (n : Nat) (p : Position) : Position :=
  { p with line := p.line + n }

/-- The piece of source so many lines further down. -/
def Span.down (n : Nat) (s : Span) : Span :=
  ⟨s.start.down n, s.stop.down n⟩

namespace Tree

mutual
/-- The tree so many lines further down. -/
def down (n : Nat) : Tree → Tree
  | node r k s ts => node r k (s.map (Span.down n)) (downAll n ts)
  | leaf r v => leaf r v
/-- The trees so many lines further down. -/
def downAll (n : Nat) : List Tree → List Tree
  | [] => []
  | t :: ts => down n t :: downAll n ts
end

variable {n : Nat} {t : Tree}

theorem downAll_eq (n : Nat) (ts : List Tree) : downAll n ts = ts.map (down n) := by
  induction ts with
  | nil => rfl
  | cons t ts ih => rw [downAll, ih, List.map_cons]

theorem down_node (n : Nat) (r : Role) (k : Kind) (s : Option Span) (ts : List Tree) :
    (node r k s ts).down n = node r k (s.map (Span.down n)) (ts.map (down n)) := by
  rw [down, downAll_eq]

@[simp] theorem role_down : (t.down n).role = t.role := by cases t <;> rfl

@[simp] theorem kind?_down : (t.down n).kind? = t.kind? := by cases t <;> rfl

@[simp] theorem span?_down : (t.down n).span? = t.span?.map (Span.down n) := by cases t <;> rfl

@[simp] theorem items_down : (t.down n).items = t.items.map (down n) := by
  cases t with
  | node r k s ts => rw [down_node]; rfl
  | leaf r v => rfl

@[simp] theorem is_down (k : Kind) : (t.down n).is k = t.is k := by
  rw [is, is, kind?_down]

@[simp] theorem field_down (r : Role) : (t.down n).field r = (t.field r).map (down n) := by
  rw [field, field, items_down, List.filter_map]
  congr 2
  funext u
  simp

@[simp] theorem item?_down (r : Role) : (t.down n).item? r = (t.item? r).map (down n) := by
  rw [item?, item?, items_down, List.find?_map]
  congr 2
  funext u
  simp

@[simp] theorem word?_down (r : Role) : (t.down n).word? r = t.word? r := by
  rw [word?, word?, item?_down]
  cases t.item? r with
  | none => rfl
  | some u => cases u <;> rfl

theorem start_down (h : t.span?.isSome = true) : (t.down n).start = t.start.down n := by
  obtain ⟨s, hs⟩ := Option.isSome_iff_exists.1 h
  rw [start, start, span?_down, hs]
  rfl

theorem stop_down (h : t.span?.isSome = true) : (t.down n).stop = t.stop.down n := by
  obtain ⟨s, hs⟩ := Option.isSome_iff_exists.1 h
  rw [stop, stop, span?_down, hs]
  rfl

mutual
theorem down_zero : ∀ t : Tree, t.down 0 = t
  | node r k s ts => by
    have hs : s.map (Span.down 0) = s := by cases s <;> rfl
    rw [down, hs, downAll_zero ts]
  | leaf r v => rfl
theorem downAll_zero : ∀ ts : List Tree, downAll 0 ts = ts
  | [] => rfl
  | t :: ts => by rw [downAll, down_zero t, downAll_zero ts]
end

end Tree

end Syntax

open Syntax

variable {n : Nat} {t : Tree}

namespace Function

@[simp] theorem isDocstring_down : isDocstring (t.down n) = isDocstring t := by
  rw [isDocstring, isDocstring, Tree.is_down, Tree.item?_down]
  cases t.item? .value with
  | none => rfl
  | some u =>
    simp only [Option.map_some, Option.any_some, Tree.is_down, Tree.items_down, List.any_map]
    congr 3
    funext v
    cases v <;> rfl

@[simp] theorem targetName_down : targetName (t.down n) = targetName t := by
  rw [targetName, targetName, Tree.is_down, Tree.word?_down]

end Function

/-- The first line of a statement moves with it. -/
theorem Source.firstLine_down (h : t.span?.isSome = true)
    (hd : ∀ d ∈ t.field .decorators, d.span?.isSome = true) :
    Source.firstLine (t.down n) = Source.firstLine t + n := by
  rw [Source.firstLine, Source.firstLine, Tree.field_down, Tree.start_down h]
  generalize t.start = p
  show (_ : List Tree).foldl _ (p.line + n) = _
  generalize p.line = line
  generalize t.field .decorators = ds at hd
  induction ds generalizing line with
  | nil => rfl
  | cons d ds ih =>
    rw [List.forall_mem_cons] at hd
    rw [List.map_cons, List.foldl_cons, List.foldl_cons, Tree.start_down hd.1, ← ih _ hd.2]
    congr 1
    exact Nat.add_min_add_right line d.start.line n

/-- A literal on several lines stays one. -/
theorem Source.literalSpan?_down :
    Source.literalSpan? (t.down n) = (Source.literalSpan? t).map (Span.down n) := by
  have hlines : ((fun s : Span => decide (s.start.line < s.stop.line)) ∘ Span.down n) =
      fun s => decide (s.start.line < s.stop.line) := by
    funext s
    simp [Span.down, Position.down]
  rw [literalSpan?, literalSpan?, Tree.is_down, Tree.is_down, Tree.span?_down]
  split
  · rw [Option.filter_map, hlines]
  · rfl

end CallTrace
