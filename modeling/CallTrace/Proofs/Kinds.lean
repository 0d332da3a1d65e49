import Mathlib
import CallTrace.Proofs.Reading
import CallTrace.Proofs.Trees

/-!
# Kinds of nodes that a phrase makes

`Phrase.makes` finds out whether a phrase may make a node of some kinds; of the rules it is told which
ones do (`Makers`).  `isFreeOf_of_run` says that no other phrase does, if no other rule does.  So no program
is part of another one (`lacks_moduleBody`), and statements are made by the rules of statements only
(`isComplete_statements`).
-/

namespace CallTrace.Syntax

/-- Whether nodes of the kind are statements. -/
def Kind.isStatement : Kind → Bool
  | .functionDef | .asyncFunctionDef | .classDef | .returnStmt | .deleteStmt | .assign | .augAssign
  | .annAssign | .forStmt | .asyncFor | .whileStmt | .ifStmt | .withStmt | .asyncWith | .matchStmt
  | .raiseStmt | .tryStmt | .tryStar | .assertStmt | .importStmt | .importFrom | .globalStmt
  | .nonlocalStmt | .exprStmt | .passStmt | .breakStmt | .continueStmt => true
  | _ => false

/-- Some kinds, and the rules that may make nodes of them. -/
structure Makers where
  kinds : Kind → Bool
  rules : Rule → Bool

mutual
/-- The phrase may make a node of the kinds. -/
def Phrase.makes (m : Makers) : Phrase → Bool
  | .number => m.kinds .constant
  | .strings => m.kinds .constant || m.kinds .joinedStr || m.kinds .formattedValue
  | .rule r => m.rules r
  | .emit (.node _ _ _ _) => true
  | .seq ps => Phrase.makesAny m ps
  | .alt ps => Phrase.makesAny m ps
  | .opt p => p.makes m
  | .many p => p.makes m
  | .as _ p => p.makes m
  | .node k p => m.kinds k || p.makes m
  | .fork p branches => p.makes m || Branch.makesAny m branches
  | .grow p branches => p.makes m || Branch.makesAny m branches
  | .adorn extra p => extra.makes m || p.makes m
  | .check _ p => p.makes m
  | _ => false
/-- The same for several phrases. -/
def Phrase.makesAny (m : Makers) : List Phrase → Bool
  | [] => false
  | p :: ps => p.makes m || Phrase.makesAny m ps
/-- The same for a branch. -/
def Branch.makes (m : Makers) : Branch → Bool
  | .close _ k rest => k.any m.kinds || rest.makes m
  | .more _ rest branches => rest.makes m || Branch.makesAny m branches
/-- The same for several branches. -/
def Branch.makesAny (m : Makers) : List Branch → Bool
  | [] => false
  | b :: bs => b.makes m || Branch.makesAny m bs
end

variable {m : Makers} {i j : Nat} {ts : List Tree}

/-- No node of the tree is of the kind. -/
abbrev Tree.Lacks (kind : Kind) (t : Tree) : Prop :=
  t.Every fun k _ => k ≠ kind

/-- No node of the tree is of one of the kinds. -/
abbrev Tree.IsFreeOf (kinds : Kind → Bool) (t : Tree) : Prop :=
  t.Every fun k _ => kinds k = false

theorem makes_of_mem {p : Phrase} {ps : List Phrase} (hp : p ∈ ps)
    (h : Phrase.makesAny m ps = false) : p.makes m = false := by
  induction ps with
  | nil => cases hp
  | cons q qs ih =>
    rw [Phrase.makesAny, Bool.or_eq_false_iff] at h
    rcases List.mem_cons.1 hp with rfl | hp
    · exact h.1
    · exact ih hp h.2

theorem makes_of_mem_branches {b : Branch} {bs : List Branch} (hb : b ∈ bs)
    (h : Branch.makesAny m bs = false) : b.makes m = false := by
  induction bs with
  | nil => cases hb
  | cons c cs ih =>
    rw [Branch.makesAny, Bool.or_eq_false_iff] at h
    rcases List.mem_cons.1 hb with rfl | hb
    · exact h.1
    · exact ih hb h.2

theorem isFreeOf_map_assume (role : Role) (h : ∀ t ∈ ts, t.IsFreeOf m.kinds) :
    ∀ t ∈ ts.map (·.assume role), t.IsFreeOf m.kinds := by
  intro t ht
  obtain ⟨u, hu, rfl⟩ := List.mem_map.1 ht
  exact Tree.every_assume.2 (h u hu)

theorem isFreeOf_wrap {k : Option Kind} (hk : k.any m.kinds = false) (span : Span)
    (h : ∀ t ∈ ts, t.IsFreeOf m.kinds) : ∀ t ∈ Reader.wrap k span ts, t.IsFreeOf m.kinds := by
  cases k with
  | none => exact h
  | some k =>
    intro t ht
    obtain rfl := List.mem_singleton.1 ht
    exact Tree.every_make.2 ⟨hk, h⟩

/-- What a phrase does not make is not in the trees of its readings. -/
def Avoids (m : Makers) (R : Phrase → Nat → Nat → List Tree → Prop) : Prop :=
  ∀ {p : Phrase} {i j : Nat} {ts : List Tree}, R p i j ts → p.makes m = false →
    ∀ t ∈ ts, t.IsFreeOf m.kinds

section Combinations

variable {R : Phrase → Nat → Nat → List Tree → Prop} (hR : Avoids m R) {spanTo : Nat → Span}

include hR

theorem isFreeOf_chained {ps : List Phrase} (h : Chained R ps i j ts)
    (hp : Phrase.makesAny m ps = false) : ∀ t ∈ ts, t.IsFreeOf m.kinds := by
  induction h with
  | nil => simp
  | cons hr _ ih =>
    rw [Phrase.makesAny, Bool.or_eq_false_iff] at hp
    exact List.forall_mem_append.2 ⟨hR hr hp.1, ih hp.2⟩

theorem isFreeOf_repeated {p : Phrase} (h : Repeated R p i j ts) (hp : p.makes m = false) :
    ∀ t ∈ ts, t.IsFreeOf m.kinds := by
  induction h with
  | stop => simp
  | more hr _ _ ih => exact List.forall_mem_append.2 ⟨hR hr hp, ih⟩

theorem isFreeOf_followed {b : Branch} {held : List Tree} (h : Followed R spanTo held b i j ts)
    (hb : b.makes m = false) (hheld : ∀ t ∈ held, t.IsFreeOf m.kinds) :
    ∀ t ∈ ts, t.IsFreeOf m.kinds := by
  induction h with
  | close hr =>
    rw [Branch.makes, Bool.or_eq_false_iff] at hb
    exact isFreeOf_wrap hb.1 _ (List.forall_mem_append.2 ⟨isFreeOf_map_assume _ hheld, hR hr hb.2⟩)
  | more hr hc _ ih =>
    rw [Branch.makes, Bool.or_eq_false_iff] at hb
    exact ih (makes_of_mem_branches hc hb.2)
      (List.forall_mem_append.2 ⟨isFreeOf_map_assume _ hheld, hR hr hb.1⟩)

theorem isFreeOf_grown {branches : List Branch} {held : List Tree}
    (h : Grown R spanTo branches held i j ts) (hb : Branch.makesAny m branches = false)
    (hheld : ∀ t ∈ held, t.IsFreeOf m.kinds) : ∀ t ∈ ts, t.IsFreeOf m.kinds := by
  induction h with
  | stop => exact hheld
  | more hc hf _ ih => exact ih (isFreeOf_followed hR hf (makes_of_mem_branches hc hb) hheld)

end Combinations

/-- No other rules make nodes of the kinds, nor does an expression in a formatted literal. -/
structure Makers.IsComplete (m : Makers) : Prop where
  rules : ∀ r, m.rules r = false → (grammar r).makes m = false
  expressions : Grammar.starExpressions.makes m = false

theorem isFreeOf_of_made {R : Readings} {tokens : Array Token} (hm : m.IsComplete)
    (hR : ∀ tokens, Avoids m (R tokens)) {p : Phrase} (h : Made R tokens p i j ts)
    (hp : p.makes m = false) : ∀ t ∈ ts, t.IsFreeOf m.kinds := by
  cases h with
  | lexeme _ _ _ => simp
  | name _ => simp
  | number _ =>
    rw [Phrase.makes] at hp
    simpa [Tree.IsFreeOf, Tree.every_make] using hp
  | strings hl hne he ht =>
    simp only [Phrase.makes, Bool.or_eq_false_iff] at hp
    obtain ⟨⟨hc, hj⟩, hf⟩ := hp
    intro t ht'
    obtain rfl := List.mem_singleton.1 ht'
    rcases Literal.literal_of_toNode? (m.kinds · = false) hc hj hf
      (fun text u hu => by
        obtain ⟨inner, j, ts, hr, hu⟩ := he text u hu
        exact hR inner hr hm.expressions u hu) ht with ⟨v, rfl⟩ | ⟨us, rfl, hus⟩
    · exact Tree.every_make.2 ⟨hc, by simp⟩
    · exact Tree.every_make.2 ⟨hj, fun u hu => (hus u hu).2.imp fun _ _ h => h.1⟩
  | @emit t _ =>
    cases t with
    | node r k s us => cases hp
    | leaf r v => simp
  | rule hr => exact hR _ hr (hm.rules _ hp)
  | seq hc => exact isFreeOf_chained (hR _) hc hp
  | alt hq hr => exact hR _ hr (makes_of_mem hq hp)
  | opt hr => exact hR _ hr hp
  | optNone => simp
  | many hr => exact isFreeOf_repeated (hR _) hr hp
  | ahead _ => simp
  | absent => simp
  | as hr => exact isFreeOf_map_assume _ (hR _ hr hp)
  | node hr =>
    rw [Phrase.makes, Bool.or_eq_false_iff] at hp
    intro t ht
    obtain rfl := List.mem_singleton.1 ht
    exact Tree.every_make.2 ⟨hp.1, hR _ hr hp.2⟩
  | fork hr hb hf =>
    rw [Phrase.makes, Bool.or_eq_false_iff] at hp
    exact isFreeOf_followed (hR _) hf (makes_of_mem_branches hb hp.2) (hR _ hr hp.1)
  | grow hr hg =>
    rw [Phrase.makes, Bool.or_eq_false_iff] at hp
    exact isFreeOf_grown (hR _) hg hp.2 (hR _ hr hp.1)
  | adorn he hr =>
    rw [Phrase.makes, Bool.or_eq_false_iff] at hp
    intro t ht
    obtain ⟨u, hu, rfl⟩ := List.mem_map.1 ht
    exact Tree.every_extend (hR _ hr hp.2 u hu) (hR _ he hp.1)
  | check hr => exact hR _ hr hp

/-- What a phrase does not make is not in the trees that are read by it. -/
theorem isFreeOf_of_run (hm : m.IsComplete) {fuel : Nat} :
    ∀ tokens, Avoids m (Runs fuel tokens) := by
  induction fuel with
  | zero =>
    intro tokens p i j ts h
    cases h
  | succ fuel ih =>
    intro tokens p i j ts h
    exact isFreeOf_of_made hm ih (made_of_run h)

/-- No rule makes a program. -/
def programMakers : Makers := ⟨(· = .moduleBody), fun _ => false⟩

theorem isComplete_programs : programMakers.IsComplete where
  rules := by
    intro r _
    cases r <;> rfl
  expressions := rfl

/-- No program is part of another. -/
theorem lacks_moduleBody {tokens : Array Token} {fuel : Nat} {p : Phrase}
    (h : Runs fuel tokens p i j ts) (hp : p.makes programMakers = false) :
    ∀ t ∈ ts, t.Lacks .moduleBody := fun t ht =>
  (isFreeOf_of_run isComplete_programs tokens h hp t ht).imp fun _ _ hk => by
    simpa [programMakers] using hk

/-- Two rules make statements. -/
def statementMakers : Makers := ⟨Kind.isStatement, fun r => r = .statement || r = .elifTail⟩

theorem isComplete_statements : statementMakers.IsComplete where
  rules := by
    intro r hr
    cases r <;> first | rfl | cases hr
  expressions := rfl

end CallTrace.Syntax
