import Mathlib
import CallTrace.Syntax.Literal

/-!
# Trees and what is done with them

Trees can be compared.

`Tree.Every q` says that `q` holds of the kind and the place of every node of a tree.  Giving a tree a
role or arranging its items keeps this; `relocate` moves every placed node to one place.

`literal_of_toNode?` says what the node of adjacent string literals looks like: a constant without
nodes in it, or a formatted literal all of whose nodes take its own place.
-/

namespace CallTrace.Syntax

namespace Tree

mutual
/-- Whether two trees are the same. -/
def decEq : (t u : Tree) → Decidable (t = u)
  | node r k s ts, node r' k' s' us =>
    match decEqAll ts us with
    | isTrue h => decidable_of_iff (r = r' ∧ k = k' ∧ s = s') (by simp [h])
    | isFalse h => isFalse (by simp [h])
  | leaf r v, leaf r' v' => decidable_of_iff (r = r' ∧ v = v') (by simp)
  | node _ _ _ _, leaf _ _ => isFalse (by simp)
  | leaf _ _, node _ _ _ _ => isFalse (by simp)
/-- Whether two lists of trees are the same. -/
def decEqAll : (ts us : List Tree) → Decidable (ts = us)
  | [], [] => isTrue rfl
  | t :: ts, u :: us =>
    match decEq t u, decEqAll ts us with
    | isTrue h, isTrue h' => isTrue (by rw [h, h'])
    | isFalse h, _ => isFalse (by simp [h])
    | _, isFalse h => isFalse (by simp [h])
  | [], _ :: _ => isFalse (by simp)
  | _ :: _, [] => isFalse (by simp)
end

instance : DecidableEq Tree := decEq

variable {q : Kind → Option Span → Prop}

mutual
/-- The kind and the place of every node of the tree are as `q` says. -/
def Every (q : Kind → Option Span → Prop) : Tree → Prop
  | node _ k s ts => q k s ∧ EveryAll q ts
  | leaf _ _ => True
/-- The same for every tree of a list. -/
def EveryAll (q : Kind → Option Span → Prop) : List Tree → Prop
  | [] => True
  | t :: ts => Every q t ∧ EveryAll q ts
end

theorem everyAll_iff {ts : List Tree} : EveryAll q ts ↔ ∀ t ∈ ts, t.Every q := by
  induction ts with
  | nil => simp [EveryAll]
  | cons t ts ih => rw [EveryAll, ih, List.forall_mem_cons]

theorem every_node_iff {r : Role} {k : Kind} {s : Option Span} {ts : List Tree} :
    (node r k s ts).Every q ↔ q k s ∧ ∀ t ∈ ts, t.Every q := by
  rw [Every, everyAll_iff]

@[simp] theorem every_leaf (r : Role) (v : Leaf) : (leaf r v).Every q := trivial

@[simp] theorem every_assume {r : Role} {t : Tree} : (t.assume r).Every q ↔ t.Every q := by
  cases t with
  | node role k s ts => cases role <;> simp [assume, every_node_iff]
  | leaf role v => cases role <;> simp [assume]

theorem role_assume {r : Role} {t : Tree} (h : t.role = .unset) : (t.assume r).role = r := by
  cases t with
  | node role k s ts =>
    obtain rfl : role = .unset := h
    rfl
  | leaf role v =>
    obtain rfl : role = .unset := h
    rfl

mutual
theorem Every.imp {p q : Kind → Option Span → Prop} (hpq : ∀ k s, p k s → q k s) :
    ∀ {t : Tree}, t.Every p → t.Every q
  | node _ k s _, h => ⟨hpq k s h.1, EveryAll.imp hpq h.2⟩
  | leaf _ _, _ => trivial
theorem EveryAll.imp {p q : Kind → Option Span → Prop} (hpq : ∀ k s, p k s → q k s) :
    ∀ {ts : List Tree}, EveryAll p ts → EveryAll q ts
  | [], _ => trivial
  | _ :: _, h => ⟨Every.imp hpq h.1, EveryAll.imp hpq h.2⟩
end

/-! ## Arranged items -/

theorem insertByRank_perm (k : Kind) (t : Tree) (ts : List Tree) :
    (insertByRank k t ts).Perm (t :: ts) := by
  induction ts with
  | nil => rfl
  | cons u rest ih =>
    rw [insertByRank]
    split
    · rfl
    · exact (ih.cons u).trans (.swap t u rest)

theorem arrange_perm (k : Kind) (ts : List Tree) : (arrange k ts).Perm ts := by
  induction ts with
  | nil => rfl
  | cons t ts ih => exact (insertByRank_perm k t (arrange k ts)).trans (ih.cons t)

theorem mem_arrange {k : Kind} {t : Tree} {ts : List Tree} : t ∈ arrange k ts ↔ t ∈ ts :=
  (arrange_perm k ts).mem_iff

theorem filter_insertByRank (k : Kind) (r : Role) (t : Tree) (ts : List Tree) :
    (insertByRank k t ts).filter (·.role = r) = (t :: ts).filter (·.role = r) := by
  induction ts with
  | nil => rfl
  | cons u rest ih =>
    rw [insertByRank]
    split
    · rfl
    · rename_i hrank
      have hne : t.role ≠ u.role := by
        intro heq
        rw [heq] at hrank
        exact hrank le_rfl
      rw [List.filter_cons, ih, List.filter_cons, List.filter_cons, List.filter_cons]
      by_cases hu : u.role = r
      · have ht : t.role ≠ r := fun h => hne (h.trans hu.symm)
        simp [hu, ht]
      · simp [hu]

/-- The items of one role keep their order. -/
theorem filter_arrange (k : Kind) (r : Role) (ts : List Tree) :
    (arrange k ts).filter (·.role = r) = ts.filter (·.role = r) := by
  induction ts with
  | nil => rfl
  | cons t ts ih => rw [arrange, filter_insertByRank, List.filter_cons, ih, List.filter_cons]

theorem every_make {k : Kind} {s : Span} {ts : List Tree} :
    (make k s ts).Every q ↔ q k (if k.isPlaced then some s else none) ∧ ∀ t ∈ ts, t.Every q := by
  simp only [make, every_node_iff, mem_arrange]

theorem every_extend {extra : List Tree} {t : Tree} (ht : t.Every q) (he : ∀ u ∈ extra, u.Every q) :
    (t.extend extra).Every q := by
  cases t with
  | node r k s ts =>
    rw [every_node_iff] at ht
    simp only [extend, every_node_iff, mem_arrange, List.mem_append]
    exact ⟨ht.1, fun u hu => hu.elim (he u) (ht.2 u)⟩
  | leaf r v => trivial

/-! ## One place for all nodes -/

/-- The node has no place of its own, or the given one. -/
def At (place : Span) (s : Option Span) : Prop :=
  ∀ own ∈ s, own = place

mutual
theorem every_relocate (place : Span) {ok : Kind → Prop} : ∀ {t : Tree}, t.Every (fun k _ => ok k) →
    (relocate place t).Every fun k s => ok k ∧ At place s
  | node r k s ts, h => by
    rw [every_node_iff] at h
    rw [relocate, every_node_iff]
    refine ⟨⟨h.1, ?_⟩, every_relocateAll place h.2⟩
    intro own hown
    cases s <;> simp_all
  | leaf r v, _ => trivial
theorem every_relocateAll (place : Span) {ok : Kind → Prop} : ∀ {ts : List Tree},
    (∀ t ∈ ts, t.Every fun k _ => ok k) →
      ∀ t ∈ relocateAll place ts, t.Every fun k s => ok k ∧ At place s
  | [], _ => by simp [relocateAll]
  | t :: ts, h => by
    rw [List.forall_mem_cons] at h
    rw [relocateAll, List.forall_mem_cons]
    exact ⟨every_relocate place h.1, every_relocateAll place h.2⟩
end

end Tree

/-! ## String literals -/

namespace Literal

variable {ok : Kind → Prop} {place : Span}

/-- What a field of a formatted literal yields is as `q` says, and has no role yet. -/
def Piece.Every (q : Kind → Option Span → Prop) : Piece → Prop
  | .text _ => True
  | .field value => value.role = .unset ∧ value.Every q

theorem at_placed (k : Kind) (place : Span) : Tree.At place (if k.isPlaced then some place else none) := by
  intro own hown
  split at hown
  · exact (Option.some.inj hown).symm
  · cases hown

theorem every_joinPieces {q : Kind → Option Span → Prop} {pieces : List Piece}
    (h : ∀ p ∈ pieces, p.Every q) : ∀ p ∈ joinPieces pieces, p.Every q := by
  induction pieces with
  | nil => simp [joinPieces]
  | cons p pieces ih =>
    rw [List.forall_mem_cons] at h
    have ih := ih h.2
    cases p with
    | field t =>
      rw [joinPieces, List.forall_mem_cons]
      exact ⟨h.1, ih⟩
    | text codes =>
      rw [joinPieces]
      split
      · rename_i more others hj
        rw [hj, List.forall_mem_cons] at ih
        rw [List.forall_mem_cons]
        exact ⟨trivial, ih.2⟩
      · split
        · exact ih
        · rw [List.forall_mem_cons]
          exact ⟨trivial, ih⟩

theorem every_textNode (hc : ok .constant) (isUnicode : Bool) (codes : List Nat) :
    (textNode place isUnicode codes).Every fun k s => ok k ∧ Tree.At place s := by
  rw [textNode, Tree.every_make]
  exact ⟨⟨hc, at_placed _ place⟩, by simp⟩

/-- The items of a formatted literal. -/
theorem every_joined_items (hc : ok .constant) {isUnicode : Bool} {pieces : List Piece}
    (h : ∀ p ∈ pieces, p.Every fun k s => ok k ∧ Tree.At place s) :
    ∀ t ∈ (joinPieces pieces).map (fun
      | .text codes => (textNode place isUnicode codes).assume .values
      | .field value => value.assume .values),
      t.role = .values ∧ t.Every fun k s => ok k ∧ Tree.At place s := by
  intro t ht
  obtain ⟨p, hp, rfl⟩ := List.mem_map.1 ht
  have := every_joinPieces h p hp
  cases p with
  | text codes => exact ⟨rfl, Tree.every_assume.2 (every_textNode hc isUnicode codes)⟩
  | field value => exact ⟨Tree.role_assume this.1, Tree.every_assume.2 this.2⟩

theorem every_joined (hc : ok .constant) (hj : ok .joinedStr) {isUnicode : Bool} {pieces : List Piece}
    (h : ∀ p ∈ pieces, p.Every fun k s => ok k ∧ Tree.At place s) :
    (joined place isUnicode pieces).Every fun k s => ok k ∧ Tree.At place s := by
  rw [joined, Tree.every_make]
  exact ⟨⟨hj, at_placed _ place⟩, fun t ht => (every_joined_items hc h t ht).2⟩

theorem every_fieldNode (hf : ok .formattedValue) {value : Tree} {conversion : Option Char}
    {format : Option Tree} (hv : value.Every fun k s => ok k ∧ Tree.At place s)
    (hformat : ∀ t ∈ format, t.Every fun k s => ok k ∧ Tree.At place s) :
    (fieldNode place value conversion format).Every fun k s => ok k ∧ Tree.At place s := by
  simp only [fieldNode, Tree.every_make]
  refine ⟨⟨hf, at_placed _ place⟩, fun t ht => ?_⟩
  rcases List.mem_cons.1 ht with rfl | ht
  · exact Tree.every_assume.2 hv
  rcases List.mem_cons.1 ht with rfl | ht
  · cases conversion <;> trivial
  · cases format with
    | none => simp at ht
    | some f =>
      simp only [Option.map_some, Option.toList_some, List.mem_singleton] at ht
      subst ht
      exact Tree.every_assume.2 (hformat f rfl)

theorem every_takePieces {expression : List Char → Option Tree} (hc : ok .constant)
    (hj : ok .joinedStr) (hf : ok .formattedValue)
    (he : ∀ text t, expression text = some t → t.Every fun k _ => ok k) {isUnicode isRaw : Bool}
    {fuel : Nat} : ∀ {depth : Nat} {text left : List Char} {pieces : List Piece},
      takePieces expression place isUnicode isRaw fuel depth text = some (pieces, left) →
        ∀ p ∈ pieces, p.Every fun k s => ok k ∧ Tree.At place s := by
  induction fuel with
  | zero => intro depth text left pieces h; cases h
  | succ fuel ih =>
    intro depth text left pieces h
    rw [takePieces] at h
    obtain ⟨stretch, -, h⟩ := Option.bind_eq_some_iff.1 h
    obtain ⟨codes, -, h⟩ := Option.bind_eq_some_iff.1 h
    split at h
    · obtain ⟨⟨more, left'⟩, hmore, h⟩ := Option.bind_eq_some_iff.1 h
      cases h
      rw [List.forall_mem_cons]
      exact ⟨trivial, ih hmore⟩
    split at h
    · by_cases hdepth : fieldDepth ≤ depth
      · rw [if_pos hdepth] at h
        cases h
      rw [if_neg hdepth] at h
      obtain ⟨⟨source, rest⟩, -, h⟩ := Option.bind_eq_some_iff.1 h
      by_cases hvoid : isVoid source = true
      · simp only [if_pos hvoid] at h
        cases h
      simp only [if_neg hvoid] at h
      obtain ⟨value, hvalue, h⟩ := Option.bind_eq_some_iff.1 h
      obtain ⟨⟨conversion, rest'⟩, -, h⟩ := Option.bind_eq_some_iff.1 h
      have hv := Tree.every_relocate place (he _ _ hvalue)
      have hshown : ∀ (shown : Option (List Char)), ∀ p ∈
          (shown.map fun s => Piece.text (s.map Char.toNat)).toList,
          p.Every fun k s => ok k ∧ Tree.At place s := by
        intro shown p hp
        cases shown with
        | none => simp at hp
        | some s =>
          simp only [Option.map_some, Option.toList_some, List.mem_singleton] at hp
          subst hp
          trivial
      -- Whether there is a format or not, the pieces go on behind the field.
      have hrest : ∀ {format : Option Tree} {shown : List Piece} {conversion : Option Char}
          {rest : List Char}, (∀ t ∈ format, t.Every fun k s => ok k ∧ Tree.At place s) →
          (∀ p ∈ shown, p.Every fun k s => ok k ∧ Tree.At place s) →
          ((takePieces expression place isUnicode isRaw fuel depth rest).bind fun r =>
            some (Piece.text codes :: (shown ++ Piece.field
              (fieldNode place (value.relocate place) conversion format) :: r.1), r.2)) =
            some (pieces, left) →
          ∀ p ∈ pieces, p.Every fun k s => ok k ∧ Tree.At place s := by
        intro format shown conversion rest hformat hshown h
        obtain ⟨⟨more, left'⟩, hmore, h⟩ := Option.bind_eq_some_iff.1 h
        simp only [Option.some.injEq, Prod.mk.injEq] at h
        obtain ⟨rfl, rfl⟩ := h
        rw [List.forall_mem_cons]
        refine ⟨trivial, fun p hp => ?_⟩
        rcases List.mem_append.1 hp with hp | hp
        · exact hshown p hp
        rcases List.mem_cons.1 hp with rfl | hp
        · exact ⟨rfl, every_fieldNode hf hv hformat⟩
        · exact ih hmore p hp
      split at h
      · obtain ⟨⟨format, rest''⟩, hformat, h⟩ := Option.bind_eq_some_iff.1 h
        obtain ⟨⟨inner, left'⟩, hinner, heq⟩ := Option.map_eq_some_iff.1 hformat
        simp only [Prod.mk.injEq] at heq
        obtain ⟨rfl, rfl⟩ := heq
        split at h
        · refine hrest (fun t ht => ?_) (hshown _) h
          obtain rfl := Option.some.inj ht
          exact every_joined hc hj (ih hinner)
        · cases h
      · obtain ⟨⟨format, rest''⟩, hformat, h⟩ := Option.bind_eq_some_iff.1 h
        simp only [Option.some.injEq, Prod.mk.injEq] at hformat
        obtain ⟨rfl, rfl⟩ := hformat
        split at h
        · exact hrest (by simp) (hshown _) h
        · cases h
    · cases h
      simp [Piece.Every]

theorem every_piecesOf {expression : List Char → Option Tree} (hc : ok .constant)
    (hj : ok .joinedStr) (hf : ok .formattedValue)
    (he : ∀ text t, expression text = some t → t.Every fun k _ => ok k) {isUnicode : Bool}
    {literal : Mark × List Char} {pieces : List Piece}
    (h : piecesOf expression place isUnicode literal = some pieces) :
    ∀ p ∈ pieces, p.Every fun k s => ok k ∧ Tree.At place s := by
  simp only [piecesOf] at h
  split at h
  · split at h
    · rename_i hp
      obtain rfl := Option.some.inj h
      exact every_takePieces hc hj hf he hp
    · cases h
  · obtain ⟨codes, -, rfl⟩ := Option.map_eq_some_iff.1 h
    simp [Piece.Every]

theorem exists_of_mem_mapM {α β : Type} {f : α → Option β} {xs : List α} : ∀ {ys : List β},
    xs.mapM f = some ys → ∀ y ∈ ys, ∃ x ∈ xs, f x = some y := by
  induction xs with
  | nil =>
    intro ys h y hy
    simp only [List.mapM_nil, Option.pure_def, Option.some.injEq] at h
    simp [← h] at hy
  | cons x xs ih =>
    intro ys h y hy
    simp only [List.mapM_cons, Option.bind_eq_bind, Option.bind_eq_some_iff, Option.pure_def,
      Option.some.injEq] at h
    obtain ⟨z, hz, zs, hzs, rfl⟩ := h
    rcases List.mem_cons.1 hy with rfl | hy
    · exact ⟨x, List.mem_cons_self, hz⟩
    · obtain ⟨w, hw, hfw⟩ := ih hzs y hy
      exact ⟨w, List.mem_cons_of_mem x hw, hfw⟩

/-- Adjacent literals make a constant without nodes in it, or a formatted literal all of whose nodes
take its own place. -/
theorem literal_of_toNode? (ok : Kind → Prop) {expression : List Char → Option Tree} (hc : ok .constant)
    (hj : ok .joinedStr) (hf : ok .formattedValue)
    (he : ∀ text t, expression text = some t → t.Every fun k _ => ok k) {spellings : List (List Char)}
    {t : Tree} (h : toNode? expression place spellings = some t) :
    (∃ v, t = .make .constant place [.leaf .value v]) ∨
      ∃ ts, t = .make .joinedStr place ts ∧
        ∀ u ∈ ts, u.role = .values ∧ u.Every fun k s => ok k ∧ Tree.At place s := by
  simp only [toNode?] at h
  split at h
  · simp only [Option.bind_eq_bind, Option.bind_eq_some_iff, Option.pure_def, Option.some.injEq] at h
    obtain ⟨values, -, rfl⟩ := h
    exact Or.inl ⟨_, rfl⟩
  split at h
  · cases h
  simp only [Option.bind_eq_bind, Option.bind_eq_some_iff, Option.pure_def] at h
  obtain ⟨pieces, hpieces, h⟩ := h
  split at h
  · obtain rfl := Option.some.inj h
    refine Or.inr ⟨_, rfl, every_joined_items hc fun p hp => ?_⟩
    obtain ⟨own, hown, hp⟩ := List.mem_flatten.1 hp
    obtain ⟨literal, -, hl⟩ := exists_of_mem_mapM hpieces own hown
    exact every_piecesOf hc hj hf he hl p hp
  · obtain rfl := Option.some.inj h
    exact Or.inl ⟨_, rfl⟩

end Literal

end CallTrace.Syntax
