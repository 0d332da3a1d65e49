import Mathlib
import CallTrace.Proofs.Balance

/-!
# Trees laid on tokens

A `Cell` is a tree with the tokens that it was read from.  `Laid` says that every node of the tree has
tokens of its own in this way: the items of a node lie one beside the other on the node's tokens, in
the order of the text, and no string literal lies between them.  About definitions and lambdas it
says more: which tokens belong to the decorators, to the header and to the body, and whether the body
goes on in the header's line or has lines of its own (`Hung`).

Whatever the grammar reads is laid on the tokens that were read (`lay`).
-/

namespace CallTrace.Syntax

variable {tokens : Array Token}

/-- A tree on the tokens from the `lo`-th up to the `hi`-th. -/
structure Cell where
  tree : Tree
  lo : Nat
  hi : Nat

/-- No token from the `i`-th up to the `j`-th is a string literal. -/
def NoString (tokens : Array Token) (i j : Nat) : Prop :=
  ∀ k, i ≤ k → k < j → ∀ s, lexemeAt tokens k ≠ some (.string s)

/-- The cells stand one after the other on the tokens from the `i`-th up to the `j`-th, with no string
literal between them. -/
inductive Spread (tokens : Array Token) : Nat → Nat → List Cell → Prop
  | nil {i j : Nat} : i ≤ j → NoString tokens i j → Spread tokens i j []
  | cons {i j : Nat} {c : Cell} {cells : List Cell} : i ≤ c.lo → c.lo ≤ c.hi → NoString tokens i c.lo →
      Spread tokens c.hi j cells → Spread tokens i j (c :: cells)

/-- The decorators of a statement whose first token is the `lo`-th; without them it begins at the
`m`-th.  Only opening parentheses stand between the first sign and the first decorator. -/
inductive Adorned (tokens : Array Token) (lo : Nat) : Nat → List Tree → Prop
  | none : Adorned tokens lo lo []
  | some {first : Tree} {rest : List Tree} {x m : Nat} :
      lexemeAt tokens lo = some (.sign .atSign) → lo < x → x < m →
      (∀ k, lo < k → k < x → lexemeAt tokens k = some (.sign .leftParen)) →
      (∃ l, lexemeAt tokens x = some l ∧ l.isPlain = true) →
      first.span?.map Span.start = some (startAt tokens x) →
      (∀ d ∈ rest, ∃ y, x ≤ y ∧ y < m ∧ d.span?.map Span.start = some (startAt tokens y)) →
      EndedAt tokens m → Adorned tokens lo m (first :: rest)

/-- A node of the kind has one item. -/
def Kind.isSingle (k : Kind) : Bool :=
  k = .exprStmt || k = .constant

/-- A node of the kind may stand for a string literal. -/
def Kind.isText (k : Kind) : Bool :=
  k = .constant || k = .joinedStr

/-- Statements one after the other. -/
structure Series (tokens : Array Token) (i j : Nat) (body : List Cell) : Prop where
  ne : body ≠ []
  spread : Spread tokens i j body
  placed : ∀ c ∈ body, c.tree.span?.isSome = true
  /-- A statement with decorators begins a logical line. -/
  adorned : ∀ c ∈ body, c.tree.field .decorators ≠ [] → EndedAt tokens c.lo
  /-- The last statement ends a logical line, or its line ends after it and a semicolon at most, right
  behind its last token.  Nothing but layout follows. -/
  ends : ∀ c ∈ body.getLast?, ∃ e < j, lexemeAt tokens e = some .newline ∧
    (∀ k, e ≤ k → k < j → ∃ l, lexemeAt tokens k = some l ∧ l.isLayout = true) ∧
    (e ≤ c.hi ∨ e = c.hi + 1 ∧ lexemeAt tokens c.hi = some (.sign .semicolon) ∧
      StartsAt tokens (c.hi - 1))

/-- How a body hangs on its header: it goes on in the header's logical line, behind the colon, or it has
logical lines of its own, between a step of indentation in and the step out that belongs to it. -/
inductive Hung (tokens : Array Token) (i j : Nat) (body : List Cell) : Prop
  | line : (∀ c ∈ body.head?, c.lo = i) → Unlaid tokens (i - 1) (j - 1) → Hung tokens i j body
  | indented : lexemeAt tokens i = some .newline → lexemeAt tokens (i + 1) = some .indent →
      (∀ c ∈ body.head?, c.lo = i + 2) → i + 2 < j → Nested tokens (i + 2) (j - 1) →
      lexemeAt tokens (j - 1) = some .dedent → Hung tokens i j body

/-- Statements that make the body of a definition. -/
structure Block (tokens : Array Token) (i j : Nat) (body : List Cell) : Prop
    extends Series tokens i j body where
  colon : lexemeAt tokens (i - 1) = some (.sign .colon)
  hung : Hung tokens i j body

/-- Every node of the tree has tokens of its own. -/
inductive Laid (tokens : Array Token) : Cell → Prop
  | leaf {r : Role} {v : Leaf} {lo hi : Nat} : NoString tokens lo hi → Laid tokens ⟨.leaf r v, lo, hi⟩
  /-- String literals side by side. -/
  | literal {r : Role} {kind : Kind} {items : List Tree} {lo hi : Nat} :
      (kind = .constant ∧ ∃ v, items = [.leaf .value v]) ∨ kind = .joinedStr →
      lo < hi → (∀ k, lo ≤ k → k < hi → ∃ s, lexemeAt tokens k = some (.string s)) →
      (∀ t ∈ items, t.role ≠ .decorators ∧ t.Every fun k s =>
        (k.isDefinition = false ∧ k ≠ .classDef) ∧ Tree.At (spanBetween tokens lo hi) s) →
      Laid tokens ⟨.node r kind (some (spanBetween tokens lo hi)) items, lo, hi⟩
  | node {r : Role} {kind : Kind} {items : List Tree} {lo m hi : Nat} {cells : List Cell} :
      kind.isDefinition = false → kind ≠ .lambda →
      (kind = .passStmt → items = [] ∧ lexemeAt tokens lo = some (.keyword .passWord) ∧ hi = lo + 1) →
      (kind.isSingle = true → items.length = 1) →
      (kind.isText = true → ∀ k, lo ≤ k → k < hi → ∃ l, lexemeAt tokens k = some l ∧ l.isPlain = true) →
      (kind ≠ .classDef → items.filter (·.role = .decorators) = []) →
      (kind.isPlaced = true → m < hi ∧ StartsAt tokens m) →
      Adorned tokens lo m (items.filter (·.role = .decorators)) →
      (cells.map Cell.tree).Perm items → Spread tokens lo hi cells →
      (∀ c ∈ cells, c.hi ≤ m ∨ m ≤ c.lo) → (∀ c ∈ cells, Laid tokens c) →
      Laid tokens ⟨.node r kind (if kind.isPlaced then some (spanBetween tokens m hi) else none) items,
        lo, hi⟩
  | lambda {r : Role} {lo hi : Nat} {parameters body : Cell} :
      lo < hi → KeywordAt tokens lo →
      (∀ k, lo ≤ k → k < hi → ∃ l, lexemeAt tokens k = some l ∧ l.isPlain = true) →
      Spread tokens (lo + 1) hi [parameters, body] →
      parameters.tree.role = .arguments → body.tree.role = .body → body.tree.span?.isSome = true →
      body.tree.IsSimple →
      Laid tokens parameters → Laid tokens body →
      Laid tokens ⟨.node r .lambda (some (spanBetween tokens lo hi)) [parameters.tree, body.tree], lo, hi⟩
  | definition {r : Role} {kind : Kind} {items : List Tree} {lo m b hi : Nat}
      {decorators header body : List Cell} :
      kind.isDefinition = true →
      Adorned tokens lo m (items.filter (·.role = .decorators)) →
      m < b → KeywordAt tokens m →
      Spread tokens lo m decorators → Spread tokens m b header → Block tokens b hi body →
      ((decorators ++ header).map Cell.tree).Perm (items.filter (·.role ≠ .body)) →
      body.map Cell.tree = items.filter (·.role = .body) →
      (∀ c ∈ decorators, Laid tokens c) → (∀ c ∈ header, Laid tokens c) →
      (∀ c ∈ body, Laid tokens c) →
      Laid tokens ⟨.node r kind (some (spanBetween tokens m hi)) items, lo, hi⟩

/-- Some trees lie on the tokens from the `i`-th up to the `j`-th. -/
def Lays (tokens : Array Token) (i j : Nat) (ts : List Tree) : Prop :=
  ∃ cells : List Cell, cells.map Cell.tree = ts ∧ Spread tokens i j cells ∧ ∀ c ∈ cells, Laid tokens c

/-- Some trees are statements, of which the first begins at once. -/
def Serial (tokens : Array Token) (i j : Nat) (ts : List Tree) : Prop :=
  ∃ body : List Cell, body.map Cell.tree = ts ∧ Series tokens i j body ∧ (∀ c ∈ body.head?, c.lo = i) ∧
    ∀ c ∈ body, Laid tokens c

/-- Some trees are the statements of a body. -/
def Blocks (tokens : Array Token) (i j : Nat) (ts : List Tree) : Prop :=
  ∃ body : List Cell, body.map Cell.tree = ts ∧ Block tokens i j body ∧ ∀ c ∈ body, Laid tokens c

/-! ## Cells one after the other -/

section Cells

variable {i j k : Nat} {ts us : List Tree} {cells others : List Cell}

theorem NoString.append (h₁ : NoString tokens i j) (h₂ : NoString tokens j k) : NoString tokens i k := by
  intro n hin hnk
  rcases Nat.lt_or_ge n j with hnj | hnj
  · exact h₁ n hin hnj
  · exact h₂ n hnj hnk

theorem noString_self (i : Nat) : NoString tokens i i :=
  fun _ hik hki => absurd hki (Nat.not_lt.2 hik)

theorem noString_of_lexemeAt {l : Lexeme} (h : lexemeAt tokens i = some l)
    (hl : ∀ s, l ≠ .string s) : NoString tokens i (i + 1) := by
  intro n hin hni s hs
  obtain rfl : n = i := by omega
  rw [h, Option.some.injEq] at hs
  exact hl s hs

theorem KeywordAt.noString (h : KeywordAt tokens i) : NoString tokens i (i + 1) := by
  obtain ⟨k, hk⟩ := h
  exact noString_of_lexemeAt hk (by simp)

theorem Spread.le (h : Spread tokens i j cells) : i ≤ j := by
  induction h with
  | nil h _ => exact h
  | cons h₁ h₂ _ _ ih => omega

theorem Spread.extend {i' : Nat} (hi : i' ≤ i) (hn : NoString tokens i' i) (h : Spread tokens i j cells) :
    Spread tokens i' j cells := by
  cases h with
  | nil h₁ h₂ => exact .nil (by omega) (hn.append h₂)
  | cons h₁ h₂ h₃ h₄ => exact .cons (by omega) h₂ (hn.append h₃) h₄

theorem Spread.append (h₁ : Spread tokens i j cells) (h₂ : Spread tokens j k others) :
    Spread tokens i k (cells ++ others) := by
  induction h₁ with
  | nil hij hn => exact h₂.extend hij hn
  | cons ha hb hn _ ih => exact .cons ha hb hn (ih h₂)

theorem Spread.bounds (h : Spread tokens i j cells) : ∀ c ∈ cells, i ≤ c.lo ∧ c.lo ≤ c.hi ∧ c.hi ≤ j := by
  induction h with
  | nil _ _ => simp
  | cons h₁ h₂ _ hs ih =>
    intro c hc
    rcases List.mem_cons.1 hc with rfl | hc
    · exact ⟨h₁, h₂, hs.le⟩
    · have := ih c hc
      omega

/-- A string literal among the tokens of some cells is among those of one of them. -/
theorem Spread.exists_of_string (h : Spread tokens i j cells) {n : Nat} {s : List Char} (hin : i ≤ n)
    (hnj : n < j) (hs : lexemeAt tokens n = some (.string s)) : ∃ c ∈ cells, c.lo ≤ n ∧ n < c.hi := by
  induction h with
  | nil _ hn => exact absurd hs (hn n hin hnj s)
  | @cons i j c cells h₁ h₂ hn _ ih =>
    rcases Nat.lt_or_ge n c.lo with hc | hc
    · exact absurd hs (hn n hin hc s)
    rcases Nat.lt_or_ge n c.hi with hc' | hc'
    · exact ⟨c, List.mem_cons_self, hc, hc'⟩
    · obtain ⟨d, hd, hdn⟩ := ih hc' hnj
      exact ⟨d, List.mem_cons_of_mem c hd, hdn⟩

theorem Lays.le (h : Lays tokens i j ts) : i ≤ j := by
  obtain ⟨cells, -, hs, -⟩ := h
  exact hs.le

theorem Lays.append (h₁ : Lays tokens i j ts) (h₂ : Lays tokens j k us) :
    Lays tokens i k (ts ++ us) := by
  obtain ⟨cells, rfl, hs₁, hl₁⟩ := h₁
  obtain ⟨others, rfl, hs₂, hl₂⟩ := h₂
  exact ⟨cells ++ others, List.map_append, hs₁.append hs₂, List.forall_mem_append.2 ⟨hl₁, hl₂⟩⟩

theorem lays_nil (hij : i ≤ j) (hn : NoString tokens i j) : Lays tokens i j [] :=
  ⟨[], rfl, .nil hij hn, by simp⟩

theorem lays_singleton {t : Tree} (hij : i ≤ j) (h : Laid tokens ⟨t, i, j⟩) : Lays tokens i j [t] :=
  ⟨[⟨t, i, j⟩], rfl, .cons le_rfl hij (noString_self i) (.nil le_rfl (noString_self j)), by simpa using h⟩

theorem Tree.exists_assume_node (role r : Role) (k : Kind) (s : Option Span) (items : List Tree) :
    ∃ r', (Tree.node r k s items).assume role = .node r' k s items := by
  cases r <;> exact ⟨_, rfl⟩

theorem Laid.assume {c : Cell} (h : Laid tokens c) (role : Role) :
    Laid tokens ⟨c.tree.assume role, c.lo, c.hi⟩ := by
  cases h with
  | @leaf r v lo hi hn =>
    obtain ⟨r', hr'⟩ : ∃ r', (Tree.leaf r v).assume role = .leaf r' v := by cases r <;> exact ⟨_, rfl⟩
    rw [hr']
    exact .leaf hn
  | literal h₁ h₂ h₃ h₄ =>
    obtain ⟨r', hr'⟩ := Tree.exists_assume_node role _ _ _ _
    rw [hr']
    exact .literal h₁ h₂ h₃ h₄
  | node h₁ h₂ h₃ h₄ h₅ h₆ h₇ h₈ h₉ h₁₀ h₁₁ h₁₂ =>
    obtain ⟨r', hr'⟩ := Tree.exists_assume_node role _ _ _ _
    rw [hr']
    exact .node h₁ h₂ h₃ h₄ h₅ h₆ h₇ h₈ h₉ h₁₀ h₁₁ h₁₂
  | lambda h₁ h₂ h₃ h₄ h₅ h₆ h₇ h₈ h₉ h₁₀ =>
    obtain ⟨r', hr'⟩ := Tree.exists_assume_node role _ _ _ _
    rw [hr']
    exact .lambda h₁ h₂ h₃ h₄ h₅ h₆ h₇ h₈ h₉ h₁₀
  | definition h₁ h₂ h₃ h₄ h₅ h₆ h₇ h₈ h₉ h₁₀ h₁₁ h₁₂ =>
    obtain ⟨r', hr'⟩ := Tree.exists_assume_node role _ _ _ _
    rw [hr']
    exact .definition h₁ h₂ h₃ h₄ h₅ h₆ h₇ h₈ h₉ h₁₀ h₁₁ h₁₂

/-- The cell of the tree in a role. -/
def Cell.assume (role : Role) (c : Cell) : Cell := ⟨c.tree.assume role, c.lo, c.hi⟩

theorem Spread.assume (role : Role) (h : Spread tokens i j cells) :
    Spread tokens i j (cells.map (Cell.assume role)) := by
  induction h with
  | nil h₁ h₂ => exact .nil h₁ h₂
  | cons h₁ h₂ h₃ _ ih => exact .cons h₁ h₂ h₃ ih

theorem map_tree_assume (role : Role) (cells : List Cell) :
    (cells.map (Cell.assume role)).map Cell.tree = (cells.map Cell.tree).map (·.assume role) := by
  rw [List.map_map, List.map_map]
  rfl

theorem laid_map_assume (role : Role) (h : ∀ c ∈ cells, Laid tokens c) :
    ∀ c ∈ cells.map (Cell.assume role), Laid tokens c := by
  intro c hc
  obtain ⟨d, hd, rfl⟩ := List.mem_map.1 hc
  exact (h d hd).assume role

theorem Lays.assume (role : Role) (h : Lays tokens i j ts) :
    Lays tokens i j (ts.map (·.assume role)) := by
  obtain ⟨cells, rfl, hs, hl⟩ := h
  exact ⟨_, map_tree_assume role cells, hs.assume role, laid_map_assume role hl⟩

theorem Tree.field_assume (role r : Role) (t : Tree) : (t.assume role).field r = t.field r := by
  cases t with
  | node r' k s items => cases r' <;> rfl
  | leaf r' v => cases r' <;> rfl

theorem Series.assume (role : Role) (h : Series tokens i j cells) :
    Series tokens i j (cells.map (Cell.assume role)) where
  ne := by simpa using h.ne
  spread := h.spread.assume role
  placed := by
    intro c hc
    obtain ⟨d, hd, rfl⟩ := List.mem_map.1 hc
    rw [Cell.assume, Tree.span?_assume]
    exact h.placed d hd
  adorned := by
    intro c hc
    obtain ⟨d, hd, rfl⟩ := List.mem_map.1 hc
    rw [Cell.assume, Tree.field_assume]
    exact h.adorned d hd
  ends := by
    intro c hc
    rw [List.getLast?_map] at hc
    obtain ⟨d, hd, rfl⟩ := Option.map_eq_some_iff.1 hc
    exact h.ends d hd

theorem Hung.assume (role : Role) (h : Hung tokens i j cells) :
    Hung tokens i j (cells.map (Cell.assume role)) := by
  have hhead {lo : Nat} (hlo : ∀ c ∈ cells.head?, c.lo = lo) :
      ∀ c ∈ (cells.map (Cell.assume role)).head?, c.lo = lo := by
    intro c hc
    rw [List.head?_map] at hc
    obtain ⟨d, hd, rfl⟩ := Option.map_eq_some_iff.1 hc
    exact hlo d hd
  cases h with
  | line h₁ h₂ => exact .line (hhead h₁) h₂
  | indented h₁ h₂ h₃ h₄ h₅ h₆ => exact .indented h₁ h₂ (hhead h₃) h₄ h₅ h₆

theorem Series.append (h₁ : Series tokens i j cells) (h₂ : Series tokens j k others) :
    Series tokens i k (cells ++ others) where
  ne := by simp [h₁.ne]
  spread := h₁.spread.append h₂.spread
  placed := List.forall_mem_append.2 ⟨h₁.placed, h₂.placed⟩
  adorned := List.forall_mem_append.2 ⟨h₁.adorned, h₂.adorned⟩
  ends := by
    rw [List.getLast?_append_of_ne_nil _ h₂.ne]
    exact h₂.ends

/-- Statements with more tokens around them, and with layout alone behind them. -/
theorem Series.extend {i' j' : Nat} (hi : i' ≤ i) (hni : NoString tokens i' i) (hj : j ≤ j')
    (hlayout : ∀ k, j ≤ k → k < j' → ∃ l, lexemeAt tokens k = some l ∧ l.isLayout = true)
    (h : Series tokens i j cells) : Series tokens i' j' cells where
  ne := h.ne
  spread := by
    have hnone : NoString tokens j j' := fun k hjk hkj s hs => by
      obtain ⟨l, hl, hlay⟩ := hlayout k hjk hkj
      obtain rfl := Option.some.inj (hl.symm.trans hs)
      cases hlay
    have := (h.spread.extend hi hni).append (.nil hj hnone)
    rwa [List.append_nil] at this
  placed := h.placed
  adorned := h.adorned
  ends := by
    intro c hc
    obtain ⟨e, he, hn, hk, hsemicolon⟩ := h.ends c hc
    refine ⟨e, by omega, hn, fun k hek hkj => ?_, hsemicolon⟩
    rcases Nat.lt_or_ge k j with hlt | hge
    · exact hk k hek hlt
    · exact hlayout k hge hkj

theorem Serial.append (h₁ : Serial tokens i j ts) (h₂ : Serial tokens j k us) :
    Serial tokens i k (ts ++ us) := by
  obtain ⟨cells, rfl, hs₁, hlo, hl₁⟩ := h₁
  obtain ⟨others, rfl, hs₂, -, hl₂⟩ := h₂
  refine ⟨cells ++ others, List.map_append, hs₁.append hs₂, ?_, List.forall_mem_append.2 ⟨hl₁, hl₂⟩⟩
  rwa [List.head?_append_of_ne_nil _ hs₁.ne]

theorem Blocks.assume (role : Role) (h : Blocks tokens i j ts) :
    Blocks tokens i j (ts.map (·.assume role)) := by
  obtain ⟨cells, rfl, hb, hl⟩ := h
  exact ⟨_, map_tree_assume role cells, ⟨hb.toSeries.assume role, hb.colon, hb.hung.assume role⟩,
    laid_map_assume role hl⟩

/-- A node of an ordinary kind over the trees on its tokens. -/
theorem laid_make {kind : Kind} (hk : kind.isDefinition = false ∧ kind ≠ .lambda ∧ kind ≠ .passStmt)
    (hsingle : kind.isSingle = true → ts.length = 1)
    (htext : kind.isText = true → ∀ k, i ≤ k → k < j → ∃ l, lexemeAt tokens k = some l ∧ l.isPlain = true)
    (hp : kind.isPlaced = true → i < j ∧ StartsAt tokens i) (hd : ∀ t ∈ ts, t.role ≠ .decorators)
    (h : Lays tokens i j ts) : Laid tokens ⟨.make kind (spanBetween tokens i j) ts, i, j⟩ := by
  obtain ⟨cells, rfl, hs, hl⟩ := h
  have hnone : (Tree.arrange kind (cells.map Cell.tree)).filter (·.role = .decorators) = [] := by
    rw [Tree.filter_arrange, List.filter_eq_nil_iff]
    intro t ht
    simpa using hd t ht
  refine .node hk.1 hk.2.1 (fun he => absurd he hk.2.2)
    (fun hs => (Tree.arrange_perm _ _).length_eq.trans (hsingle hs)) htext (fun _ => hnone) hp ?_
    (Tree.arrange_perm _ _).symm hs (fun c hc => Or.inr (hs.bounds c hc).1) hl
  rw [hnone]
  exact .none

/-- A statement that is no definition has no decorators. -/
theorem Laid.field_decorators {c : Cell} (h : Laid tokens c) (hs : c.tree.IsSimple) :
    c.tree.field .decorators = [] := by
  cases h with
  | leaf _ => rfl
  | literal _ _ _ hi =>
    rw [Tree.field, Tree.items, List.filter_eq_nil_iff]
    intro t ht
    simpa using (hi t ht).1
  | node _ _ _ _ _ hd _ _ _ _ _ _ => exact hd hs.1.2
  | lambda _ _ _ _ hp hb _ _ _ _ =>
    rw [Tree.field, Tree.items, List.filter_eq_nil_iff]
    simp [hp, hb]
  | definition hk _ _ _ _ _ _ _ _ _ _ _ =>
    rw [hs.1.1] at hk
    cases hk

end Cells

end CallTrace.Syntax
