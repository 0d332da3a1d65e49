import Mathlib
import CallTrace.Proofs.Placement

/-!
# Titles of definitions

A definition begins with the word `def`, or with `async` and `def`, and its name is the next token; the
tree holds the normal form of that name, and the body comes after it (`Title`).

The grammar makes definitions in two places only, and decorators add no name to one, so every
definition in the trees of a reading has its title (`titled_of_run`).  The proof goes by the parts of a
phrase, as that of `lay` does, and uses the same list of phrases that need a word of their own.
-/

namespace CallTrace.Syntax

open Instrument

variable {tokens : Array Token}

/-- A definition begins at the `m`-th token, and its word `def` is the `n`-th. -/
structure Opens (tokens : Array Token) (m n : Nat) : Prop where
  keyword : lexemeAt tokens n = some (.keyword .defWord)
  first : n = m ∨ n = m + 1 ∧ lexemeAt tokens m = some (.keyword .asyncWord)

/-- The tokens that a definition with the given items begins with, up to its name. -/
structure Title (tokens : Array Token) (span : Option Span) (items : List Tree) (m n : Nat)
    (name : List Char) : Prop extends Opens tokens m n where
  named : lexemeAt tokens (n + 1) = some (.name name)
  start : span.map Span.start = some (startAt tokens m)
  item : items.find? (·.role = .name) = some (.leaf .name (.word (Unicode.normalize name)))
  body : ∀ t ∈ items, t.role = .body →
    ∃ x, n + 1 < x ∧ StartsAt tokens x ∧ t.span?.map Span.start = some (startAt tokens x)

/-- Every definition in the tree has its title. -/
inductive Titled (tokens : Array Token) : Tree → Prop
  | leaf {r : Role} {v : Leaf} : Titled tokens (.leaf r v)
  | node {r : Role} {k : Kind} {span : Option Span} {items : List Tree} :
      (k.isDefinition = true → ∃ m n name, Title tokens span items m n name) →
      (∀ t ∈ items, Titled tokens t) → Titled tokens (.node r k span items)

/-! ## Trees -/

theorem Titled.assume {t : Tree} (h : Titled tokens t) (role : Role) :
    Titled tokens (t.assume role) := by
  cases h with
  | @leaf r v => cases r <;> exact .leaf
  | @node r k span items h₁ h₂ =>
    obtain ⟨r', hr'⟩ := Tree.exists_assume_node role r k span items
    rw [hr']
    exact .node h₁ h₂

theorem titled_map_assume {ts : List Tree} (role : Role) (h : ∀ t ∈ ts, Titled tokens t) :
    ∀ t ∈ ts.map (·.assume role), Titled tokens t := by
  intro t ht
  obtain ⟨u, hu, rfl⟩ := List.mem_map.1 ht
  exact (h u hu).assume role

/-- A node that is no definition. -/
theorem titled_make {kind : Kind} {span : Span} {ts : List Tree} (hk : kind.isDefinition = false)
    (h : ∀ t ∈ ts, Titled tokens t) : Titled tokens (.make kind span ts) := by
  refine .node (fun hdef => ?_) fun t ht => h t (Tree.mem_arrange.1 ht)
  rw [hk] at hdef
  cases hdef

mutual
/-- A tree without definitions. -/
theorem titled_of_every : ∀ {t : Tree}, t.Every (fun k _ => k.isDefinition = false) → Titled tokens t
  | .node _ _ _ _, h =>
    .node (fun hdef => by rw [h.1] at hdef; cases hdef) (titled_of_everyAll h.2)
  | .leaf _ _, _ => .leaf
theorem titled_of_everyAll : ∀ {ts : List Tree},
    Tree.EveryAll (fun k _ => k.isDefinition = false) ts → ∀ t ∈ ts, Titled tokens t
  | [], _ => by simp
  | _ :: _, h => List.forall_mem_cons.2 ⟨titled_of_every h.1, titled_of_everyAll h.2⟩
end

theorem Titled.under {above nodes : List Tree} {t u : Tree} (h : Titled tokens t)
    (hu : Under above t nodes u) : Titled tokens u := by
  induction hu with
  | self => exact h
  | item hmem _ ih =>
    cases h with
    | node _ hitems => exact ih (hitems _ hmem)

/-! ## Definitions -/

/-- The first item of a role is the one that was read first. -/
theorem Tree.find?_arrange (k : Kind) (r : Role) (ts : List Tree) :
    (arrange k ts).find? (·.role = r) = ts.find? (·.role = r) := by
  rw [← List.head?_filter, ← List.head?_filter, Tree.filter_arrange]

section Definitions

variable {fuel i j : Nat} {ts : List Tree}

/-- The statements of a body begin with tokens of the body. -/
theorem Blocks.exists_start (h : Blocks tokens i j ts) {t : Tree} (ht : t ∈ ts) :
    ∃ x, i ≤ x ∧ StartsAt tokens x ∧ t.span?.map Span.start = some (startAt tokens x) := by
  obtain ⟨cells, rfl, hblock, hlaid⟩ := h
  obtain ⟨c, hc, rfl⟩ := List.mem_map.1 ht
  obtain ⟨span, hspan⟩ := Option.isSome_iff_exists.1 (hblock.placed c hc)
  obtain ⟨x, -, hx, rfl, hadorned⟩ := (hlaid c hc).exists_start hspan
  exact ⟨x, (hblock.spread.bounds c hc).1.trans hadorned.le, hx, by rw [hspan]; rfl⟩

/-- From its word `def` on a definition has its title. -/
theorem title_plain (h : Runs fuel tokens Grammar.definitionRest i j ts) :
    ∃ name, Title tokens (some (spanBetween tokens i j)) ts i i name := by
  obtain ⟨b, head, body, hparts⟩ := definitionParts_of_run (fun m _ => lay m) h
  obtain ⟨m, -, hc⟩ := h.seq
  obtain ⟨k₁, us₁, vs₁, hts, h₁, hc⟩ := hc.uncons
  obtain ⟨k₂, us₂, vs₂, rfl, h₂, -⟩ := hc.uncons
  obtain ⟨rfl, rfl, hdef⟩ := h₁.lexeme (l := .keyword .defWord) rfl
  obtain ⟨-, name, hname, rfl⟩ := h₂.name
  refine ⟨name, ⟨⟨hdef, Or.inl rfl⟩, hname, rfl, by rw [hts]; rfl, fun t ht hrole => ?_⟩⟩
  rw [hparts.eq, List.mem_append, List.mem_map] at ht
  rcases ht with ht | ⟨u, hu, rfl⟩
  · exact absurd hrole (hparts.headRoles t ht).1
  · obtain ⟨x, hbx, hx, hspan⟩ := hparts.blocks.exists_start hu
    exact ⟨x, hparts.lt.trans_le hbx, hx, by rwa [Tree.span?_assume]⟩

theorem title_async
    (h : Runs fuel tokens (.seq [.keyword .asyncWord, Grammar.definitionRest]) i j ts) :
    ∃ name, Title tokens (some (spanBetween tokens i j)) ts i (i + 1) name := by
  obtain ⟨m, -, hc⟩ := h.seq
  obtain ⟨k₁, us₁, vs₁, rfl, h₁, hc⟩ := hc.uncons
  obtain ⟨k₂, us₂, vs₂, rfl, h₂, hc⟩ := hc.uncons
  obtain ⟨-, rfl⟩ := hc.eq_of_nil
  obtain ⟨rfl, rfl, hasync⟩ := h₁.lexeme (l := .keyword .asyncWord) rfl
  obtain ⟨name, htitle⟩ := title_plain h₂
  rw [List.nil_append, List.append_nil]
  exact ⟨name, { htitle with first := Or.inr ⟨rfl, hasync⟩, start := rfl }⟩

/-- Arranging the items does not change the title. -/
theorem Title.arrange {span : Option Span} {m n : Nat} {name : List Char}
    (h : Title tokens span ts m n name) (k : Kind) : Title tokens span (Tree.arrange k ts) m n name :=
  { h with
    item := by rw [Tree.find?_arrange, h.item]
    body := fun t ht => h.body t (Tree.mem_arrange.1 ht) }

/-- Nor do decorators. -/
theorem Title.extend {span : Option Span} {m n : Nat} {name : List Char}
    (h : Title tokens span ts m n name) {more : List Tree} (hmore : ∀ t ∈ more, t.role = .decorators) :
    Title tokens span (more ++ ts) m n name :=
  { h with
    item := by
      rw [List.find?_append, List.find?_eq_none.2 fun t ht => by simp [hmore t ht], h.item]
      rfl
    body := fun t ht hrole => by
      rcases List.mem_append.1 ht with ht | ht
      · rw [hmore t ht] at hrole
        cases hrole
      · exact h.body t ht hrole }

theorem titled_particular {kind : Kind} {p : Phrase} (hp : .node kind p ∈ particular)
    (h : Runs fuel tokens p i j ts) (hts : ∀ t ∈ ts, Titled tokens t) :
    Titled tokens (.make kind (spanBetween tokens i j) ts) := by
  simp only [particular, List.mem_cons, List.not_mem_nil, or_false] at hp
  rcases hp with hp | hp | hp | hp | hp
  · obtain ⟨rfl, -⟩ := Phrase.node.inj hp
    exact titled_make rfl hts
  · obtain ⟨rfl, -⟩ := Phrase.node.inj hp
    exact titled_make rfl hts
  · obtain ⟨rfl, rfl⟩ := Phrase.node.inj hp
    obtain ⟨name, htitle⟩ := title_plain h
    exact .node (fun _ => ⟨i, i, name, htitle.arrange _⟩) fun t ht => hts t (Tree.mem_arrange.1 ht)
  · obtain ⟨rfl, rfl⟩ := Phrase.node.inj hp
    obtain ⟨name, htitle⟩ := title_async h
    exact .node (fun _ => ⟨i, i + 1, name, htitle.arrange _⟩) fun t ht => hts t (Tree.mem_arrange.1 ht)
  · cases hp

theorem Titled.extend {t : Tree} {more : List Tree} (h : Titled tokens t)
    (hmore : ∀ u ∈ more, u.role = .decorators) (htitled : ∀ u ∈ more, Titled tokens u) :
    Titled tokens (t.extend more) := by
  cases h with
  | leaf => exact .leaf
  | @node r k span items h₁ h₂ =>
    refine .node (fun hk => ?_) fun u hu => ?_
    · obtain ⟨m, n, name, htitle⟩ := h₁ hk
      exact ⟨m, n, name, (htitle.extend hmore).arrange k⟩
    · rcases List.mem_append.1 (Tree.mem_arrange.1 hu) with hu | hu
      · exact htitled u hu
      · exact h₂ u hu

end Definitions

/-! ## All readings -/

/-- What is shown of the readings with the given fuel. -/
def Titles (fuel : Nat) : Prop :=
  ∀ {tokens : Array Token} {p : Phrase} {i j : Nat} {ts : List Tree}, Runs fuel tokens p i j ts →
    p.IsKnown → ∀ t ∈ ts, Titled tokens t

section Regular

variable {fuel i j k : Nat} {ts us : List Tree}

theorem isDefinition_of_bars {o : Outline} {kind : Kind} (h : o.bars kind = false) :
    kind.isDefinition = false := by
  simp only [Outline.bars, Kind.isParticular, Bool.or_eq_false_iff] at h
  exact h.1.1.1.1.1.1

theorem titled_chained (ih : Titles fuel) {ps : List Phrase}
    (hk : ∀ q ∈ Phrase.irregularAll ps, q ∈ particular) (h : Chained (Runs fuel tokens) ps i j ts) :
    ∀ t ∈ ts, Titled tokens t := by
  induction h with
  | nil => simp
  | cons hp _ ihc =>
    rw [Phrase.irregularAll, List.forall_mem_append] at hk
    exact List.forall_mem_append.2 ⟨ih hp hk.1, ihc hk.2⟩

theorem titled_repeated (ih : Titles fuel) {p : Phrase} (hk : p.IsKnown)
    (h : Repeated (Runs fuel tokens) p i j ts) : ∀ t ∈ ts, Titled tokens t := by
  induction h with
  | stop => simp
  | more hp _ _ ihr => exact List.forall_mem_append.2 ⟨ih hp hk, ihr⟩

theorem titled_followed (ih : Titles fuel) {spanTo : Nat → Span} {held : Outline} {b : Branch}
    (hk : ∀ q ∈ b.irregular held, q ∈ particular) (hts : ∀ t ∈ ts, Titled tokens t)
    (h : Followed (Runs fuel tokens) spanTo ts b j k us) : ∀ t ∈ us, Titled tokens t := by
  induction h generalizing held with
  | @close ts' _ role kind rest j' k' hr =>
    cases kind with
    | none => exact List.forall_mem_append.2 ⟨titled_map_assume role hts, ih hr hk⟩
    | some kind =>
      obtain ⟨hb, hk⟩ := bars_of_irregular hk
      simpa [Reader.wrap] using titled_make (isDefinition_of_bars hb)
        (List.forall_mem_append.2 ⟨titled_map_assume role hts, ih hr hk⟩)
  | @more ts' _ us' role rest c branches j' k' l' hr hc _ ihf =>
    rw [Branch.irregular, List.forall_mem_append] at hk
    exact ihf (irregular_of_mem hk.2 hc)
      (List.forall_mem_append.2 ⟨titled_map_assume role hts, ih hr hk.1⟩)

theorem titled_grown (ih : Titles fuel) {spanTo : Nat → Span} {held : Outline}
    {branches : List Branch} (hk : ∀ b ∈ branches, ∀ q ∈ b.irregular held, q ∈ particular)
    (hts : ∀ t ∈ ts, Titled tokens t) (h : Grown (Runs fuel tokens) spanTo branches ts j k us) :
    ∀ t ∈ us, Titled tokens t := by
  induction h with
  | stop => exact hts
  | more hb hf _ ihg => exact ihg (titled_followed ih (hk _ hb) hts hf)

end Regular

/-- Every definition that the grammar reads has its title. -/
theorem titled_of_run (fuel : Nat) : Titles fuel := by
  induction fuel with
  | zero => intro tokens p i j ts h; cases h
  | succ fuel ih =>
  intro tokens p i j ts h hk
  cases made_of_run h with
  | lexeme _ _ _ => simp
  | name _ => simpa using Titled.leaf
  | number _ => simpa using titled_make rfl (by simpa using Titled.leaf)
  | strings _ _ he ht =>
    have hplain := Literal.literal_of_toNode? (fun k => k.isDefinition = false) rfl rfl rfl
      (fun text u hu => by
        obtain ⟨inner, j, ts, hr, hu⟩ := he text u hu
        exact ((holds_of_run inner hr).simple rfl u hu).imp fun _ _ h => h.1) ht
    rw [List.forall_mem_singleton]
    rcases hplain with ⟨v, rfl⟩ | ⟨us, rfl, hus⟩
    · exact titled_make rfl (by simpa using Titled.leaf)
    · exact titled_make rfl fun u hu => titled_of_every ((hus u hu).2.imp fun _ _ h => h.1)
  | @emit t _ =>
    cases t with
    | leaf r v => simpa using Titled.leaf
    | node r k s us => exact absurd (hk _ (List.mem_singleton_self _)) (emit_not_mem _)
  | rule hr => exact ih hr (isKnown_rule _)
  | seq hc => exact titled_chained ih hk hc
  | alt hp hr => exact ih hr (isKnown_of_mem hk hp)
  | opt hr => exact ih hr hk
  | optNone => simp
  | @many q _ _ _ hr => exact titled_repeated (p := q) ih hk hr
  | ahead _ => simp
  | absent => simp
  | as hr => exact titled_map_assume _ (ih hr hk)
  | @node kind q _ _ us hr =>
    have hus := ih hr (isKnown_of_node hk)
    rw [List.forall_mem_singleton]
    rw [Phrase.IsKnown, Phrase.irregular] at hk
    by_cases hb : q.outline.bars kind = true
    · rw [if_pos hb] at hk
      exact titled_particular (hk _ (List.mem_singleton_self _)) hr hus
    · exact titled_make (isDefinition_of_bars (by simpa using hb)) hus
  | @fork q b branches _ m _ us _ hr hb hf =>
    obtain ⟨hq, hbranches⟩ := isKnown_of_fork hk
    exact titled_followed ih (hbranches b hb) (ih hr hq) hf
  | @grow q branches _ m _ us _ hr hg =>
    obtain ⟨hq, -, hbranches⟩ := isKnown_of_grow hk
    exact titled_grown ih hbranches (ih hr hq) hg
  | @adorn extra q _ m _ more us he hr =>
    obtain ⟨hextra, hq, -⟩ := isKnown_of_adorn hk
    have hmore := ih he hextra
    have hus := ih hr hq
    obtain ⟨rfl, -⟩ := Phrase.adorn.inj (eq_decorated hk)
    intro t ht
    obtain ⟨u, hu, rfl⟩ := List.mem_map.1 ht
    exact (hus u hu).extend (adorned_of_run he).2 hmore
  | check hr => exact ih hr hk

end CallTrace.Syntax
