import Mathlib
import CallTrace.Proofs.Laid

/-!
# The grammar lays its trees on tokens

Most phrases need no word of their own: their trees are laid because those of their parts are.
`Phrase.irregular` finds the parts of a phrase of which this is not so, and `irregular_grammar` says
that these are, in the whole grammar, lambdas, the word `pass`, and definitions with or without
decorators.
-/

namespace CallTrace.Syntax

variable {tokens : Array Token}

/-! ## Phrases that need a word of their own -/

/-- Of a node of the kind more is said than that its items lie on its tokens. -/
def Kind.isParticular (k : Kind) : Bool :=
  k.isDefinition || k = .lambda || k = .passStmt

/-- A phrase makes no node of the kind without more ado. -/
def Outline.bars (o : Outline) (kind : Kind) : Bool :=
  kind.isParticular || (kind.isPlaced && !o.leads) || !o.unadorning ||
    (kind.isSingle && o.count ≠ some 1) || (kind.isText && !o.plain)

mutual
/-- The parts of a phrase that need a word of their own. -/
def Phrase.irregular : Phrase → List Phrase
  | .emit (.node r k s ts) => [.emit (.node r k s ts)]
  | .seq ps => Phrase.irregularAll ps
  | .alt ps => Phrase.irregularAll ps
  | .opt p => p.irregular
  | .many p => p.irregular
  | .as _ p => p.irregular
  | .node kind p => if p.outline.bars kind then [.node kind p] else p.irregular
  | .fork p branches =>
    if p.outline.leads then p.irregular ++ Branch.irregularAll p.outline branches
    else [.fork p branches]
  | .grow p branches =>
    if p.outline.leads && Branch.outlineAny p.outline branches = p.outline then
      p.irregular ++ Branch.irregularAll p.outline branches
    else [.grow p branches]
  | .adorn extra p => [.adorn extra p]
  | .check _ p => p.irregular
  | _ => []
/-- The same for several phrases. -/
def Phrase.irregularAll : List Phrase → List Phrase
  | [] => []
  | p :: ps => p.irregular ++ Phrase.irregularAll ps
/-- The same for a branch with what was read before it. -/
def Branch.irregular (held : Outline) : Branch → List Phrase
  | .close _ none rest => rest.irregular
  | .close role (some kind) rest =>
    if ((held.inRole role).andThen rest.outline).bars kind then
      [.fork .nothing [.close role (some kind) rest]]
    else rest.irregular
  | .more role rest branches =>
    rest.irregular ++ Branch.irregularAll ((held.inRole role).andThen rest.outline) branches
/-- The same for several branches. -/
def Branch.irregularAll (held : Outline) : List Branch → List Phrase
  | [] => []
  | b :: bs => b.irregular held ++ Branch.irregularAll held bs
end

/-- The word `pass`. -/
def passPhrase : Phrase := Grammar.wordStatement .passStmt .passWord []

/-- A definition whose first word is `def`. -/
def plainDefinition : Phrase := .node .functionDef Grammar.definitionRest

/-- A definition whose first word is `async`. -/
def asyncDefinition : Phrase :=
  .node .asyncFunctionDef (.seq [.keyword .asyncWord, Grammar.definitionRest])

/-- What needs a word of its own in the rules of the grammar. -/
theorem irregular_grammar (r : Rule) : (grammar r).irregular =
    match r with
    | .expression => [Grammar.lambda]
    | .statement =>
      plainDefinition :: asyncDefinition :: Grammar.decorated :: List.replicate 52 passPhrase
    | .elifTail => List.replicate 4 passPhrase
    | _ => [] := by
  cases r <;> rfl

/-- The phrases that need a word of their own. -/
def particular : List Phrase :=
  [Grammar.lambda, passPhrase, plainDefinition, asyncDefinition, Grammar.decorated]

/-- Only the known phrases need a word of their own. -/
def Phrase.IsKnown (p : Phrase) : Prop :=
  ∀ q ∈ p.irregular, q ∈ particular

theorem isKnown_rule (r : Rule) : (grammar r).IsKnown := by
  intro q hq
  rw [irregular_grammar] at hq
  cases r <;> simp only [List.not_mem_nil, List.mem_cons, List.mem_replicate, or_false] at hq
  case expression => simp [particular, hq]
  case statement =>
    rcases hq with rfl | rfl | rfl | ⟨-, rfl⟩ <;> simp [particular]
  case elifTail => simp [particular, hq]

/-! ## Readings taken apart -/

section Inversion

variable {fuel i j : Nat} {ts : List Tree} {p : Phrase} {ps : List Phrase}

theorem Runs.made (h : Runs fuel tokens p i j ts) : ∃ m < fuel, Made (Runs m) tokens p i j ts := by
  cases fuel with
  | zero => cases h
  | succ m => exact ⟨m, Nat.lt_succ_self m, made_of_run h⟩

theorem Runs.lexeme {l : Lexeme} (h : Runs fuel tokens p i j ts) (hp : p.lexeme? = some l) :
    j = i + 1 ∧ ts = [] ∧ lexemeAt tokens i = some l := by
  obtain ⟨m, -, hm⟩ := h.made
  cases hm with
  | lexeme hp' ht hl =>
    rw [hp, Option.some.injEq] at hp'
    exact ⟨rfl, rfl, by rw [lexemeAt_eq ht, hl, hp']⟩
  | _ => cases hp

theorem Runs.name {role : Role} (h : Runs fuel tokens (.name role) i j ts) :
    j = i + 1 ∧ ∃ s, lexemeAt tokens i = some (.name s) ∧
      ts = [.leaf role (.word (Unicode.normalize s))] := by
  obtain ⟨m, -, hm⟩ := h.made
  cases hm with
  | lexeme hp _ _ => cases hp
  | name ht => exact ⟨rfl, _, lexemeAt_eq ht, rfl⟩

theorem Runs.rule {r : Rule} (h : Runs fuel tokens (.rule r) i j ts) :
    ∃ m < fuel, Runs m tokens (grammar r) i j ts := by
  obtain ⟨m, hm, hr⟩ := h.made
  cases hr with
  | lexeme hp _ _ => cases hp
  | rule hr => exact ⟨m, hm, hr⟩

theorem Runs.seq (h : Runs fuel tokens (.seq ps) i j ts) :
    ∃ m < fuel, Chained (Runs m tokens) ps i j ts := by
  obtain ⟨m, hm, hr⟩ := h.made
  cases hr with
  | lexeme hp _ _ => cases hp
  | seq hr => exact ⟨m, hm, hr⟩

theorem Runs.alt (h : Runs fuel tokens (.alt ps) i j ts) :
    ∃ m < fuel, ∃ p ∈ ps, Runs m tokens p i j ts := by
  obtain ⟨m, hm, hr⟩ := h.made
  cases hr with
  | lexeme hp _ _ => cases hp
  | alt hp hr => exact ⟨m, hm, _, hp, hr⟩

theorem Runs.many (h : Runs fuel tokens (.many p) i j ts) :
    ∃ m < fuel, Repeated (Runs m tokens) p i j ts := by
  obtain ⟨m, hm, hr⟩ := h.made
  cases hr with
  | lexeme hp _ _ => cases hp
  | many hr => exact ⟨m, hm, hr⟩

theorem Runs.as {role : Role} (h : Runs fuel tokens (.as role p) i j ts) :
    ∃ m < fuel, ∃ us, Runs m tokens p i j us ∧ ts = us.map (·.assume role) := by
  obtain ⟨m, hm, hr⟩ := h.made
  cases hr with
  | lexeme hp _ _ => cases hp
  | as hr => exact ⟨m, hm, _, hr, rfl⟩

theorem Runs.node {kind : Kind} (h : Runs fuel tokens (.node kind p) i j ts) :
    ∃ m < fuel, ∃ us, Runs m tokens p i j us ∧ ts = [.make kind (spanBetween tokens i j) us] := by
  obtain ⟨m, hm, hr⟩ := h.made
  cases hr with
  | lexeme hp _ _ => cases hp
  | node hr => exact ⟨m, hm, _, hr, rfl⟩

theorem Chained.uncons {R : Phrase → Nat → Nat → List Tree → Prop} (h : Chained R (p :: ps) i j ts) :
    ∃ k us vs, ts = us ++ vs ∧ R p i k us ∧ Chained R ps k j vs := by
  cases h with
  | cons h₁ h₂ => exact ⟨_, _, _, rfl, h₁, h₂⟩

theorem Chained.eq_of_nil {R : Phrase → Nat → Nat → List Tree → Prop} (h : Chained R [] i j ts) :
    j = i ∧ ts = [] := by
  cases h
  exact ⟨rfl, rfl⟩

end Inversion

/-! ## Readings with less fuel -/

/-- Every branch makes a node of all that was read. -/
def Branch.areWhole (branches : List Branch) : Bool :=
  branches.all fun
    | .close _ (some _) _ => true
    | _ => false

/-- The phrase reads and makes nothing. -/
def Phrase.isIdle (p : Phrase) : Bool :=
  p.outline.still && p.outline.count = some 0

mutual
/-- The phrase makes one node, and the node takes all that is read. -/
def Phrase.isWhole : Phrase → Bool
  | .node _ _ => true
  | .seq ps => Phrase.holdsWhole ps
  | .alt ps => Phrase.areWhole ps
  | .fork _ branches => Branch.areWhole branches
  | .adorn _ p => p.isWhole
  | _ => false
/-- The same for several phrases. -/
def Phrase.areWhole : List Phrase → Bool
  | [] => true
  | p :: ps => p.isWhole && Phrase.areWhole ps
/-- One of several phrases makes the one node, and the others read nothing. -/
def Phrase.holdsWhole : List Phrase → Bool
  | [] => false
  | p :: ps => (p.isWhole && ps.all Phrase.isIdle) || (p.isIdle && Phrase.holdsWhole ps)
end

/-- What is shown of the readings with the given fuel. -/
def Lay (fuel : Nat) : Prop :=
  ∀ {tokens : Array Token} {p : Phrase} {i j : Nat} {ts : List Tree}, Runs fuel tokens p i j ts →
    p.IsKnown → Lays tokens i j ts ∧ (p.isWhole = true → ∃ t, ts = [t] ∧ Laid tokens ⟨t, i, j⟩)

section Particular

variable {fuel i j : Nat} {ts : List Tree}

theorem isKnown_of_irregular {p : Phrase} (qs : List Phrase) (h : p.irregular = qs)
    (hqs : ∀ q ∈ qs, q ∈ particular) : p.IsKnown := by
  intro q hq
  rw [h] at hq
  exact hqs q hq

theorem laid_lambda (ih : ∀ m < fuel, Lay m) {p : Phrase} (hp : .node .lambda p = Grammar.lambda)
    (h : Runs fuel tokens p i j ts) :
    Laid tokens ⟨.make .lambda (spanBetween tokens i j) ts, i, j⟩ := by
  obtain ⟨-, rfl⟩ := Phrase.node.inj hp
  have hplain := (holds_of_run tokens h).plain rfl
  obtain ⟨m, hm, h⟩ := h.seq
  obtain ⟨k₁, us₁, vs₁, rfl, h₁, h⟩ := h.uncons
  obtain ⟨k₂, us₂, vs₂, rfl, h₂, h⟩ := h.uncons
  obtain ⟨k₃, us₃, vs₃, rfl, h₃, h⟩ := h.uncons
  obtain ⟨k₄, us₄, vs₄, rfl, h₄, h⟩ := h.uncons
  obtain ⟨rfl, rfl⟩ := h.eq_of_nil
  obtain ⟨rfl, rfl, hlambda⟩ := h₁.lexeme (l := .keyword .lambdaWord) rfl
  obtain ⟨rfl, rfl, hcolon⟩ := h₃.lexeme (l := .sign .colon) rfl
  obtain ⟨m₂, hm₂, us₂', hr₂, rfl⟩ := h₂.as
  obtain ⟨m₄, hm₄, us₄', hr₄, rfl⟩ := h₄.as
  obtain ⟨-, hw⟩ := ih m₂ (by omega) hr₂ (isKnown_of_irregular [] rfl (by simp))
  obtain ⟨parameters, rfl, hparameters⟩ := hw rfl
  obtain ⟨m₂', -, items, -, hmake⟩ := hr₂.node
  obtain ⟨hl₄, -⟩ := ih m₄ (by omega) hr₄ (isKnown_of_irregular [] rfl (by simp))
  have ho₄ := holds_of_run tokens hr₄
  have hle₂ := (holds_of_run tokens hr₂).le
  obtain ⟨cells, hcells, hs, hl⟩ := hl₄
  obtain ⟨body, rfl⟩ := List.length_eq_one_iff.1 (ho₄.count 1 rfl)
  obtain ⟨⟨tree, lo, hi⟩, rfl⟩ : ∃ c, cells = [c] := by
    have := congrArg List.length hcells
    rw [List.length_map] at this
    exact List.length_eq_one_iff.1 this
  obtain ⟨kind, span, us, rfl⟩ := ho₄.bare rfl body (List.mem_singleton_self body)
  obtain rfl : tree = .node .unset kind (some span) us := by simpa using hcells
  obtain rfl : parameters = .make .parameters (spanBetween tokens (i + 1) k₂) items := by
    simpa using hmake
  have hbody := (hl _ (List.mem_singleton_self _)).assume .body
  have hlt : i < j := by
    have := hs.le
    omega
  have hspread : Spread tokens (i + 1) j
      [⟨(Tree.make .parameters (spanBetween tokens (i + 1) k₂) items).assume .arguments, i + 1, k₂⟩,
        ⟨(Tree.node .unset kind (some span) us).assume .body, lo, hi⟩] := by
    refine .cons le_rfl hle₂ (noString_self _) ?_
    exact (hs.assume .body).extend (Nat.le_succ k₂) (noString_of_lexemeAt hcolon (by simp))
  exact .lambda hlt ⟨_, hlambda⟩ hplain hspread rfl rfl rfl
    (Tree.every_assume.2 (ho₄.simple rfl _ (List.mem_singleton_self _))) (hparameters.assume .arguments) hbody

theorem laid_pass {p : Phrase} (hp : .node .passStmt p = passPhrase) (h : Runs fuel tokens p i j ts) :
    Laid tokens ⟨.make .passStmt (spanBetween tokens i j) ts, i, j⟩ := by
  obtain ⟨-, rfl⟩ := Phrase.node.inj hp
  obtain ⟨m, hm, h⟩ := h.seq
  obtain ⟨k, us, vs, rfl, h₁, h⟩ := h.uncons
  obtain ⟨rfl, rfl⟩ := h.eq_of_nil
  obtain ⟨rfl, rfl, hpass⟩ := h₁.lexeme (l := .keyword .passWord) rfl
  have hitems : (([] : List Cell).map Cell.tree).Perm [] := .nil
  exact .node rfl (by decide) (fun _ => ⟨rfl, hpass, rfl⟩) (by decide) nofun (fun _ => rfl)
    (fun _ => ⟨Nat.lt_succ_self i, _, hpass, rfl⟩) .none hitems
    (.nil (Nat.le_succ i) (noString_of_lexemeAt hpass (by simp))) (by simp) (by simp)

/-! ## Bodies -/

theorem isKnown_of_mem {ps : List Phrase} (hps : ∀ q ∈ Phrase.irregularAll ps, q ∈ particular)
    {p : Phrase} (hp : p ∈ ps) : p.IsKnown := by
  induction ps with
  | nil => cases hp
  | cons r rs ih =>
    rw [Phrase.irregularAll, List.forall_mem_append] at hps
    rcases List.mem_cons.1 hp with rfl | hp
    · exact hps.1
    · exact ih hps.2 hp

/-- The statements after the first on a line, each behind a semicolon; the last takes what is read. -/
theorem exists_cells_of_repeated (ih : ∀ m < fuel, Lay m)
    (h : Repeated (Runs fuel tokens) (.seq [.sign .semicolon, Grammar.simpleStatement]) i j ts) :
    ∃ cells : List Cell, cells.map Cell.tree = ts ∧ Spread tokens i j cells ∧
      (∀ c ∈ cells, Laid tokens c) ∧ (cells = [] → j = i) ∧ ∀ c ∈ cells.getLast?, c.hi = j := by
  induction h with
  | @stop i => exact ⟨[], rfl, .nil le_rfl (noString_self i), by simp, by simp, by simp⟩
  | @more a b c us vs h hab _ ihr =>
    obtain ⟨m, hm, hc⟩ := h.seq
    obtain ⟨k₁, us₁, vs₁, rfl, h₁, hc⟩ := hc.uncons
    obtain ⟨k₂, us₂, vs₂, rfl, h₂, hc⟩ := hc.uncons
    obtain ⟨rfl, rfl⟩ := hc.eq_of_nil
    obtain ⟨rfl, rfl, hsemicolon⟩ := h₁.lexeme (l := .sign .semicolon) rfl
    obtain ⟨t, rfl, ht⟩ := (ih m hm h₂ (isKnown_of_irregular [passPhrase] rfl
      (by simp [particular]))).2 rfl
    obtain ⟨cells, rfl, hs, hl, hnil, hlast⟩ := ihr
    refine ⟨⟨t, _, _⟩ :: cells, by simp, ?_, List.forall_mem_cons.2 ⟨ht, hl⟩, by simp, fun d hd => ?_⟩
    · exact .cons (Nat.le_succ _) (holds_of_run tokens h₂).le
        (noString_of_lexemeAt hsemicolon (by simp)) hs
    · rcases List.eq_nil_or_concat cells with rfl | ⟨front, e, rfl⟩
      · obtain rfl : _ = d := by simpa using hd
        exact (hnil rfl).symm
      · exact hlast d (by simpa [List.getLast?_cons] using hd)

theorem serial_simpleStatements (ih : ∀ m < fuel, Lay m)
    (h : Runs fuel tokens Grammar.simpleStatements i j ts) : Serial tokens i j ts := by
  have ho := holds_of_run tokens h
  have hbare := ho.bare rfl
  have hsimple := ho.simple rfl
  obtain ⟨m, hm, hc⟩ := h.seq
  obtain ⟨k₁, us₁, vs₁, rfl, h₁, hc⟩ := hc.uncons
  obtain ⟨k₂, us₂, vs₂, rfl, h₂, hc⟩ := hc.uncons
  obtain ⟨k₃, us₃, vs₃, rfl, h₃, hc⟩ := hc.uncons
  obtain ⟨k₄, us₄, vs₄, rfl, h₄, hc⟩ := hc.uncons
  obtain ⟨rfl, rfl⟩ := hc.eq_of_nil
  obtain ⟨rfl, rfl, hnewline⟩ := h₄.lexeme (l := .newline) rfl
  obtain ⟨t, rfl, ht⟩ := (ih m hm h₁ (isKnown_of_irregular [passPhrase] rfl
    (by simp [particular]))).2 rfl
  have hle := (holds_of_run tokens h₁).le
  obtain ⟨m', hm', hr⟩ := h₂.many
  obtain ⟨others, rfl, hs, hl, hnil, hlast⟩ :=
    exists_cells_of_repeated (fun n hn => ih n (by omega)) hr
  -- After the last statement there is one semicolon or none.
  have hsemicolon : us₃ = [] ∧
      (k₃ = k₂ ∨ k₃ = k₂ + 1 ∧ lexemeAt tokens k₂ = some (.sign .semicolon) ∧
        StartsAt tokens (k₂ - 1)) := by
    obtain ⟨n, -, hmade⟩ := h₃.made
    cases hmade with
    | lexeme hp _ _ => cases hp
    | optNone => exact ⟨rfl, Or.inl rfl⟩
    | opt h =>
      obtain ⟨rfl, rfl, hsign⟩ := h.lexeme (l := .sign .semicolon) rfl
      have hlt := ((holds_of_run tokens h₁).leads rfl).1
      have hle₂ := (holds_of_run tokens h₂).le
      have hB := balances_runs true m tokens
      have hline := ((hB.fits h₁ rfl).append (hB.fits h₂ rfl)).unlaid rfl
      exact ⟨rfl, Or.inr ⟨rfl, hsign, hline (k₂ - 1) (by omega) (by omega)⟩⟩
  obtain ⟨rfl, hsemicolon⟩ := hsemicolon
  simp only [List.append_nil, List.singleton_append] at hbare hsimple ⊢
  have hlaid : ∀ c ∈ (⟨t, i, k₁⟩ : Cell) :: others, Laid tokens c := List.forall_mem_cons.2 ⟨ht, hl⟩
  refine ⟨⟨t, i, k₁⟩ :: others, rfl, ?_, by simp, hlaid⟩
  have hmem : ∀ c ∈ (⟨t, i, k₁⟩ : Cell) :: others, c.tree ∈ t :: others.map Cell.tree :=
    fun c hc => List.mem_map_of_mem (f := Cell.tree) hc
  refine
    { ne := by simp
      spread := ?_
      placed := fun c hc => ?_
      adorned := fun c hc hd => ?_
      ends := fun c hc => ?_ }
  · have hgap : NoString tokens k₂ k₃ := by
      rcases hsemicolon with rfl | ⟨rfl, hsign, -⟩
      · exact noString_self _
      · exact noString_of_lexemeAt hsign (by simp)
    have := (Spread.cons (c := ⟨t, i, k₁⟩) le_rfl hle (noString_self i) hs).append
      (.nil (by omega) (hgap.append (noString_of_lexemeAt hnewline (by simp))))
    rwa [List.append_nil] at this
  · obtain ⟨kind, span, items, ht⟩ := hbare c.tree (hmem c hc)
    rw [ht]
    rfl
  · exact absurd ((hlaid c hc).field_decorators (hsimple c.tree (hmem c hc))) hd
  · have hhi : c.hi = k₂ := by
      rcases List.eq_nil_or_concat others with rfl | ⟨front, e, rfl⟩
      · obtain rfl : _ = c := by simpa using hc
        exact (hnil rfl).symm
      · exact hlast c (by simpa [List.getLast?_cons] using hc)
    refine ⟨k₃, Nat.lt_succ_self k₃, hnewline, fun k h₁ h₂ => ?_, ?_⟩
    · obtain rfl : k = k₃ := by omega
      exact ⟨_, hnewline, rfl⟩
    · rw [hhi]
      exact hsemicolon.imp_left Eq.le

/-- The statements that have statements in them. -/
def compoundStatements : List Phrase :=
  [Grammar.definition, Grammar.decorated, Grammar.conditional, Grammar.classDefinition,
    Grammar.withBlock, Grammar.forLoop, Grammar.tryBlock, Grammar.whileLoop, Grammar.matchBlock]

theorem serial_statement (ih : ∀ m < fuel, Lay m) (he : EndedAt tokens i)
    (h : Runs fuel tokens (.rule .statement) i j ts) : Serial tokens i j ts := by
  obtain ⟨m, hm, h⟩ := h.rule
  obtain ⟨m', hm', p, hp, h⟩ := h.alt
  have hknown : p.IsKnown := isKnown_of_mem (isKnown_rule .statement) hp
  have hp : p ∈ compoundStatements ∨ p = Grammar.simpleStatements := by
    have : p ∈ compoundStatements ++ [Grammar.simpleStatements] := hp
    simpa using this
  rcases hp with hp | rfl
  · have hall : (compoundStatements.all fun p => p.isWhole && p.outline.bare && p.outline.closes) =
        true := rfl
    have hflags := List.all_eq_true.1 hall p hp
    simp only [Bool.and_eq_true] at hflags
    obtain ⟨⟨hwhole, hbare⟩, hcloses⟩ := hflags
    have ho := holds_of_run tokens h
    obtain ⟨t, rfl, ht⟩ := (ih m' (by omega) h hknown).2 hwhole
    obtain ⟨kind, span, items, rfl⟩ := ho.bare hbare t (List.mem_singleton_self t)
    refine ⟨[⟨_, i, j⟩], rfl, ?_, by simp, by simpa using ht⟩
    refine
      { ne := by simp
        spread := .cons le_rfl ho.le (noString_self i) (.nil le_rfl (noString_self j))
        placed := by simp [Tree.span?]
        adorned := fun c hc _ => ?_
        ends := fun c hc => ?_ }
    · obtain rfl := List.mem_singleton.1 hc
      exact he
    · obtain rfl : _ = c := by simpa using hc
      obtain ⟨e, he, hnewline, hlayout⟩ := ho.closes hcloses
      exact ⟨e, he, hnewline, hlayout, Or.inl he.le⟩
  · exact serial_simpleStatements (fun n hn => ih n (by omega)) h

theorem serial_repeated (ih : ∀ m < fuel, Lay m) {k m : Nat} (hm : m < fuel) {us vs : List Tree}
    (hr : Repeated (Runs m tokens) (.rule .statement) j k vs) (he : EndedAt tokens j)
    (hb : Serial tokens i j us) : Serial tokens i k (us ++ vs) := by
  induction hr generalizing us with
  | stop => rwa [List.append_nil]
  | more h _ _ ihr =>
    have hnext := serial_statement (fun n hn => ih n (by omega)) he h
    rw [← List.append_assoc]
    exact ihr ((holds_of_run tokens h).closes rfl) (hb.append hnext)

theorem serial_statements (ih : ∀ m < fuel, Lay m) (he : EndedAt tokens i)
    (h : Runs fuel tokens (.seq [.rule .statement, .many (.rule .statement)]) i j ts) :
    Serial tokens i j ts := by
  obtain ⟨m, hm, hc⟩ := h.seq
  obtain ⟨k, us, vs, rfl, h₁, hc⟩ := hc.uncons
  obtain ⟨k', us', vs', rfl, h₂, hc⟩ := hc.uncons
  obtain ⟨rfl, rfl⟩ := hc.eq_of_nil
  obtain ⟨m', hm', hr⟩ := h₂.many
  rw [List.append_nil]
  exact serial_repeated ih (by omega) hr ((holds_of_run tokens h₁).closes rfl)
    (serial_statement (fun n hn => ih n (by omega)) he h₁)

/-- What stands behind a colon is a body. -/
theorem blocks_block (ih : ∀ m < fuel, Lay m) (hcolon : lexemeAt tokens i = some (.sign .colon))
    (h : Runs fuel tokens Grammar.block (i + 1) j ts) : Blocks tokens (i + 1) j ts := by
  obtain ⟨m, hm, p, hp, h⟩ := h.alt
  rcases List.mem_pair.1 hp with rfl | rfl
  · obtain ⟨m', hm', hc⟩ := h.seq
    obtain ⟨k₁, us₁, vs₁, rfl, h₁, hc⟩ := hc.uncons
    obtain ⟨k₂, us₂, vs₂, rfl, h₂, hc⟩ := hc.uncons
    obtain ⟨k₃, us₃, vs₃, rfl, h₃, hc⟩ := hc.uncons
    obtain ⟨k₄, us₄, vs₄, rfl, h₄, hc⟩ := hc.uncons
    obtain ⟨rfl, rfl⟩ := hc.eq_of_nil
    obtain ⟨rfl, rfl, hnewline⟩ := h₁.lexeme (l := .newline) rfl
    obtain ⟨rfl, rfl, hindent⟩ := h₂.lexeme (l := .indent) rfl
    obtain ⟨rfl, rfl, hdedent⟩ := h₄.lexeme (l := .dedent) rfl
    have hle := (holds_of_run tokens h₃).le
    have hnested := ((balances_runs false m' tokens).fits h₃ rfl).nested
    obtain ⟨body, rfl, hs, hlo, hl⟩ := serial_statements (fun n hn => ih n (by omega))
      ((endedAt_newline hnewline).succ hindent rfl) h₃
    simp only [List.append_nil, List.nil_append]
    refine ⟨body, rfl, ⟨hs.extend (by omega) ?_ (Nat.le_succ k₃) ?_, hcolon, ?_⟩, hl⟩
    · exact (noString_of_lexemeAt hnewline (by simp)).append (noString_of_lexemeAt hindent (by simp))
    · intro k hk hk'
      obtain rfl : k = k₃ := by omega
      exact ⟨_, hdedent, rfl⟩
    · exact .indented hnewline hindent hlo (by omega) hnested hdedent
  · obtain ⟨body, rfl, hs, hlo, hl⟩ := serial_simpleStatements (fun n hn => ih n (by omega)) h
    refine ⟨body, rfl, ⟨hs, hcolon, .line hlo ?_⟩, hl⟩
    obtain ⟨m', hm', hc⟩ := h.seq
    obtain ⟨k₁, us₁, vs₁, hts, h₁, hc⟩ := hc.uncons
    obtain ⟨k₂, us₂, vs₂, rfl, h₂, hc⟩ := hc.uncons
    obtain ⟨k₃, us₃, vs₃, rfl, h₃, hc⟩ := hc.uncons
    obtain ⟨k₄, us₄, vs₄, rfl, h₄, hc⟩ := hc.uncons
    obtain ⟨rfl, rfl⟩ := hc.eq_of_nil
    obtain ⟨rfl, rfl, -⟩ := h₄.lexeme (l := .newline) rfl
    -- All of the line but its end is without layout.
    have hB := balances_runs true m' tokens
    exact (((fits_lexeme hcolon rfl fun _ => rfl).append (hB.fits h₁ rfl)).append
      ((hB.fits h₂ rfl).append (hB.fits h₃ rfl))).unlaid rfl

/-! ## Decorators -/

/-- A decorator with its sign and the end of its line. -/
def decoratorPhrase : Phrase := .seq [.sign .atSign, Grammar.namedExpression, .newline]

theorem decorator_of_run (h : Runs fuel tokens decoratorPhrase i j ts) : ∃ t x, ts = [t] ∧ t.IsBare ∧
    lexemeAt tokens i = some (.sign .atSign) ∧ i < x ∧ x < j ∧
    (∀ k, i < k → k < x → lexemeAt tokens k = some (.sign .leftParen)) ∧
    (∃ l, lexemeAt tokens x = some l ∧ l.isPlain = true) ∧
    t.span?.map Span.start = some (startAt tokens x) ∧ EndedAt tokens j := by
  obtain ⟨m, hm, hc⟩ := h.seq
  obtain ⟨k₁, us₁, vs₁, rfl, h₁, hc⟩ := hc.uncons
  obtain ⟨k₂, us₂, vs₂, rfl, h₂, hc⟩ := hc.uncons
  obtain ⟨k₃, us₃, vs₃, rfl, h₃, hc⟩ := hc.uncons
  obtain ⟨rfl, rfl⟩ := hc.eq_of_nil
  obtain ⟨rfl, rfl, hat⟩ := h₁.lexeme (l := .sign .atSign) rfl
  obtain ⟨rfl, rfl, hnewline⟩ := h₃.lexeme (l := .newline) rfl
  have ho := holds_of_run tokens h₂
  obtain ⟨t, x, rfl, hix, hxk, -, hopen, hspan⟩ := ho.heads rfl
  refine ⟨t, x, rfl, ho.bare rfl t (List.mem_singleton_self t), hat, by omega, by omega,
    fun k hik hkx => hopen k hik hkx, ho.plain rfl x hix hxk, hspan, endedAt_newline hnewline⟩

theorem decorators_of_repeated (h : Repeated (Runs fuel tokens) decoratorPhrase i j ts) :
    i ≤ j ∧ (j = i ∨ EndedAt tokens j) ∧ ∀ t ∈ ts, t.IsBare ∧
      ∃ y, i ≤ y ∧ y < j ∧ t.span?.map Span.start = some (startAt tokens y) := by
  induction h with
  | stop => simp
  | @more a b c ts us h hab _ ih =>
    obtain ⟨t, y, rfl, hbare, -, hay, hyb, -, -, hspan, hended⟩ := decorator_of_run h
    obtain ⟨hbc, hmore, ih⟩ := ih
    refine ⟨by omega, Or.inr (hmore.elim (· ▸ hended) id), fun u hu => ?_⟩
    rcases List.mem_cons.1 hu with rfl | hu
    · exact ⟨hbare, y, by omega, by omega, hspan⟩
    · obtain ⟨hbare, z, hz⟩ := ih u hu
      exact ⟨hbare, z, by omega, hz.2⟩

theorem adorned_of_run {m : Nat}
    (h : Runs fuel tokens (.as .decorators (Phrase.atLeastOne decoratorPhrase)) i m ts) :
    Adorned tokens i m ts ∧ ∀ t ∈ ts, t.role = .decorators := by
  obtain ⟨n, hn, us, hr, rfl⟩ := h.as
  obtain ⟨n', hn', hc⟩ := hr.seq
  obtain ⟨k₁, us₁, vs₁, rfl, h₁, hc⟩ := hc.uncons
  obtain ⟨k₂, us₂, vs₂, rfl, h₂, hc⟩ := hc.uncons
  obtain ⟨rfl, rfl⟩ := hc.eq_of_nil
  obtain ⟨t, x, rfl, ⟨k, s, items, rfl⟩, hat, hix, hxk, hopen, hplain, hspan, hended⟩ := decorator_of_run h₁
  obtain ⟨n₂, -, hmany⟩ := h₂.many
  obtain ⟨hle, hmore, hrest⟩ := decorators_of_repeated hmany
  rw [List.append_nil]
  refine ⟨.some hat hix (by omega) hopen hplain hspan (fun d hd => ?_) (hmore.elim (· ▸ hended) id),
    fun d hd => ?_⟩
  · obtain ⟨u, hu, rfl⟩ := List.mem_map.1 hd
    obtain ⟨-, y, hy, hyk, hspan⟩ := hrest u hu
    exact ⟨y, by omega, hyk, by rwa [Tree.span?_assume]⟩
  · obtain ⟨u, hu, rfl⟩ := List.mem_map.1 hd
    refine Tree.role_assume ?_
    rcases List.mem_cons.1 hu with rfl | hu
    · rfl
    · obtain ⟨⟨k, s, items, rfl⟩, -⟩ := hrest u hu
      rfl

/-! ## Definitions -/

/-- What a definition from its word `def` on consists of. -/
structure DefinitionParts (tokens : Array Token) (i b j : Nat) (ts head body : List Tree) : Prop where
  eq : ts = head ++ body.map (·.assume .body)
  lt : i + 1 < b
  keyword : KeywordAt tokens i
  headLays : Lays tokens i b head
  headRoles : ∀ t ∈ head, t.role ≠ .body ∧ t.role ≠ .decorators
  blocks : Blocks tokens b j body
  bodyRoles : ∀ t ∈ body, t.role = .unset

theorem role_of_returns
    (h : Runs fuel tokens (.opt (.seq [.sign .arrow, .as .returns (.rule .expression)])) i j ts) :
    ∀ t ∈ ts, t.role = .returns := by
  obtain ⟨m, hm, hmade⟩ := h.made
  cases hmade with
  | lexeme hp _ _ => cases hp
  | optNone => simp
  | opt h =>
    obtain ⟨m', hm', hc⟩ := h.seq
    obtain ⟨k₁, us₁, vs₁, rfl, h₁, hc⟩ := hc.uncons
    obtain ⟨k₂, us₂, vs₂, rfl, h₂, hc⟩ := hc.uncons
    obtain ⟨rfl, rfl⟩ := hc.eq_of_nil
    obtain ⟨rfl, rfl, -⟩ := h₁.lexeme (l := .sign .arrow) rfl
    obtain ⟨m₂, hm₂, us, hr, rfl⟩ := h₂.as
    intro t ht
    rw [List.append_nil] at ht
    obtain ⟨u, hu, rfl⟩ := List.mem_map.1 ht
    obtain ⟨kind, span, items, rfl⟩ := (holds_of_run tokens hr).bare rfl u hu
    rfl

theorem definitionParts_of_run (ih : ∀ m < fuel, Lay m)
    (h : Runs fuel tokens Grammar.definitionRest i j ts) :
    ∃ b head body, DefinitionParts tokens i b j ts head body := by
  obtain ⟨m, hm, hc⟩ := h.seq
  obtain ⟨k₁, us₁, vs₁, rfl, h₁, hc⟩ := hc.uncons
  obtain ⟨k₂, us₂, vs₂, rfl, h₂, hc⟩ := hc.uncons
  obtain ⟨k₃, us₃, vs₃, rfl, h₃, hc⟩ := hc.uncons
  obtain ⟨k₄, us₄, vs₄, rfl, h₄, hc⟩ := hc.uncons
  obtain ⟨k₅, us₅, vs₅, rfl, h₅, hc⟩ := hc.uncons
  obtain ⟨k₆, us₆, vs₆, rfl, h₆, hc⟩ := hc.uncons
  obtain ⟨k₇, us₇, vs₇, rfl, h₇, hc⟩ := hc.uncons
  obtain ⟨rfl, rfl⟩ := hc.eq_of_nil
  obtain ⟨rfl, rfl, hdef⟩ := h₁.lexeme (l := .keyword .defWord) rfl
  obtain ⟨rfl, s, hname, rfl⟩ := h₂.name
  obtain ⟨rfl, rfl, hopen⟩ := h₃.lexeme (l := .sign .leftParen) rfl
  obtain ⟨rfl, rfl, hclose⟩ := h₅.lexeme (l := .sign .rightParen) rfl
  obtain ⟨m₇, hm₇, hc⟩ := h₇.seq
  obtain ⟨k₈, us₈, vs₈, rfl, h₈, hc⟩ := hc.uncons
  obtain ⟨k₉, us₉, vs₉, rfl, h₉, hc⟩ := hc.uncons
  obtain ⟨rfl, rfl⟩ := hc.eq_of_nil
  obtain ⟨rfl, rfl, hcolon⟩ := h₈.lexeme (l := .sign .colon) rfl
  obtain ⟨m₉, hm₉, body, hbody, rfl⟩ := h₉.as
  have hb := blocks_block (fun n hn => ih n (by omega)) hcolon hbody
  obtain ⟨hl₄, -⟩ := ih m hm h₄ (isKnown_of_irregular [] rfl (by simp))
  obtain ⟨hl₆, -⟩ := ih m hm h₆ (isKnown_of_irregular [] rfl (by simp))
  have hle₄ := hl₄.le
  have hle₆ := hl₆.le
  have hname' : Lays tokens (i + 1) (i + 1 + 1) [.leaf .name (.word (Unicode.normalize s))] :=
    lays_singleton (Nat.le_succ _) (.leaf (noString_of_lexemeAt hname (by simp)))
  refine ⟨k₆ + 1, [.leaf .name (.word (Unicode.normalize s))] ++ us₄ ++ us₆, body, ?_⟩
  refine
    { eq := by simp
      lt := by omega
      keyword := ⟨_, hdef⟩
      headLays := ?_
      headRoles := fun t ht => ?_
      blocks := hb
      bodyRoles := fun t ht => ?_ }
  · have h₁ := (lays_nil (Nat.le_succ i) (noString_of_lexemeAt hdef (by simp))).append hname'
    have h₂ := h₁.append (lays_nil (Nat.le_succ _) (noString_of_lexemeAt hopen (by simp)))
    have h₃ := (h₂.append hl₄).append (lays_nil (Nat.le_succ _) (noString_of_lexemeAt hclose (by simp)))
    have h₄ := (h₃.append hl₆).append (lays_nil (Nat.le_succ _) (noString_of_lexemeAt hcolon (by simp)))
    simpa using h₄
  · rcases List.mem_append.1 ht with ht | ht
    · rcases List.mem_append.1 ht with ht | ht
      · obtain rfl := List.mem_singleton.1 ht
        exact ⟨by simp [Tree.role], by simp [Tree.role]⟩
      · obtain ⟨m₄, hm₄, items, hr, rfl⟩ := h₄.as
        obtain ⟨n, -, us, -, rfl⟩ := hr.node
        obtain rfl := List.mem_singleton.1 ht
        exact ⟨by simp [Tree.assume, Tree.make, Tree.role], by simp [Tree.assume, Tree.make, Tree.role]⟩
    · rw [role_of_returns h₆ t ht]
      exact ⟨by decide, by decide⟩
  · obtain ⟨kind, span, items, rfl⟩ := (holds_of_run tokens hbody).bare rfl t ht
    rfl

/-- A definition with its decorators, whose items are arranged in one way or another. -/
theorem laid_definition {kind : Kind} (hk : kind.isDefinition = true) {lo m b : Nat} {r : Role}
    {us decorators head body items : List Tree} (ha : Adorned tokens lo m decorators)
    (hd : Lays tokens lo m decorators) (hr : ∀ t ∈ decorators, t.role = .decorators)
    (h : DefinitionParts tokens m b j us head body) (hperm : items.Perm (decorators ++ us))
    (hfilter : ∀ role, items.filter (·.role = role) = (decorators ++ us).filter (·.role = role)) :
    Laid tokens ⟨.node r kind (some (spanBetween tokens m j)) items, lo, j⟩ := by
  obtain ⟨rfl, hlt, hstart, hhead, hroles, hbody, hunset⟩ := h
  obtain ⟨decoratorCells, rfl, hds, hdl⟩ := hd
  obtain ⟨headCells, rfl, hhs, hhl⟩ := hhead
  have hbodyRole : ∀ t ∈ body.map (·.assume .body), t.role = .body := by
    intro t ht
    obtain ⟨u, hu, rfl⟩ := List.mem_map.1 ht
    exact Tree.role_assume (hunset u hu)
  obtain ⟨bodyCells, hcells, hblock, hbl⟩ := hbody.assume .body
  rw [← hcells] at hbodyRole hperm hfilter
  have hdecorators : items.filter (·.role = .decorators) = decoratorCells.map Cell.tree := by
    rw [hfilter, List.filter_append, List.filter_eq_self.2 (by simpa using hr), List.filter_append,
      List.filter_eq_nil_iff.2, List.filter_eq_nil_iff.2]
    · simp
    · intro t ht
      simp [hbodyRole t ht]
    · intro t ht
      simpa using (hroles t ht).2
  have hbodyItems : items.filter (·.role = .body) = bodyCells.map Cell.tree := by
    rw [hfilter, List.filter_append, List.filter_eq_nil_iff.2, List.filter_append,
      List.filter_eq_nil_iff.2, List.filter_eq_self.2 (by simpa using hbodyRole)]
    · rfl
    · intro t ht
      simpa using (hroles t ht).1
    · intro t ht
      simp [hr t ht]
  have hothers : (items.filter (·.role ≠ .body)).Perm ((decoratorCells ++ headCells).map Cell.tree) := by
    refine (hperm.filter _).trans ?_
    rw [List.filter_append, List.filter_append, List.map_append, List.filter_eq_self.2,
      List.filter_eq_self.2, List.filter_eq_nil_iff.2, List.append_nil]
    · intro t ht
      simp [hbodyRole t ht]
    · intro t ht
      simpa using (hroles t ht).1
    · intro t ht
      simp [hr t ht]
  refine .definition hk ?_ (Nat.lt_of_succ_lt hlt) hstart hds hhs hblock hothers.symm hbodyItems.symm hdl hhl hbl
  rwa [hdecorators]

theorem laid_plainDefinition {kind : Kind} (hk : kind.isDefinition = true)
    {b : Nat} {head body : List Tree} (h : DefinitionParts tokens i b j ts head body) :
    Laid tokens ⟨.make kind (spanBetween tokens i j) ts, i, j⟩ := by
  have hplaced : kind.isPlaced = true := by cases kind <;> first | rfl | cases hk
  rw [Tree.make, if_pos hplaced]
  exact laid_definition hk .none (lays_nil le_rfl (noString_self i)) (by simp) h
    (Tree.arrange_perm kind ts) fun role => Tree.filter_arrange kind role ts

theorem asyncParts_of_run (ih : ∀ m < fuel, Lay m)
    (h : Runs fuel tokens (.seq [.keyword .asyncWord, Grammar.definitionRest]) i j ts) :
    ∃ b head body, DefinitionParts tokens i b j ts head body := by
  obtain ⟨m, hm, hc⟩ := h.seq
  obtain ⟨k₁, us₁, vs₁, rfl, h₁, hc⟩ := hc.uncons
  obtain ⟨k₂, us₂, vs₂, rfl, h₂, hc⟩ := hc.uncons
  obtain ⟨rfl, rfl⟩ := hc.eq_of_nil
  obtain ⟨rfl, rfl, hasync⟩ := h₁.lexeme (l := .keyword .asyncWord) rfl
  obtain ⟨b, head, body, hparts⟩ := definitionParts_of_run (fun n hn => ih n (by omega)) h₂
  have hlt := hparts.lt
  refine ⟨b, head, body,
    { eq := by rw [List.nil_append, List.append_nil, hparts.eq]
      lt := by omega
      keyword := ⟨_, hasync⟩
      headLays := ?_
      headRoles := hparts.headRoles
      blocks := hparts.blocks
      bodyRoles := hparts.bodyRoles }⟩
  exact (lays_nil (Nat.le_succ i) (noString_of_lexemeAt hasync (by simp))).append hparts.headLays

/-- A node of one of the kinds of which more is said. -/
theorem laid_particular (ih : ∀ m < fuel, Lay m) {kind : Kind} {p : Phrase}
    (hp : .node kind p ∈ particular) (h : Runs fuel tokens p i j ts) :
    Laid tokens ⟨.make kind (spanBetween tokens i j) ts, i, j⟩ := by
  simp only [particular, List.mem_cons, List.not_mem_nil, or_false] at hp
  rcases hp with hp | hp | hp | hp | hp
  · obtain ⟨rfl, -⟩ := Phrase.node.inj hp
    exact laid_lambda ih hp h
  · obtain ⟨rfl, -⟩ := Phrase.node.inj hp
    exact laid_pass hp h
  · obtain ⟨rfl, rfl⟩ := Phrase.node.inj hp
    obtain ⟨b, head, body, hparts⟩ := definitionParts_of_run ih h
    exact laid_plainDefinition rfl hparts
  · obtain ⟨rfl, rfl⟩ := Phrase.node.inj hp
    obtain ⟨b, head, body, hparts⟩ := asyncParts_of_run ih h
    exact laid_plainDefinition rfl hparts
  · cases hp

/-- A definition of a class with its decorators. -/
theorem laid_classDefinition {lo m : Nat} {r : Role} {us decorators items : List Tree}
    (ha : Adorned tokens lo m decorators) (hd : Lays tokens lo m decorators)
    (hr : ∀ t ∈ decorators, t.role = .decorators) (hlt : m < j) (hstart : StartsAt tokens m)
    (hus : Lays tokens m j us) (hroles : ∀ t ∈ us, t.role ≠ .decorators)
    (hperm : items.Perm (decorators ++ us))
    (hfilter : items.filter (·.role = .decorators) = (decorators ++ us).filter (·.role = .decorators)) :
    Laid tokens ⟨.node r .classDef (some (spanBetween tokens m j)) items, lo, j⟩ := by
  obtain ⟨front, rfl, hfront, hfl⟩ := hd
  obtain ⟨back, rfl, hback, hbl⟩ := hus
  have hdecorators : items.filter (·.role = .decorators) = front.map Cell.tree := by
    rw [hfilter, List.filter_append, List.filter_eq_self.2 (by simpa using hr),
      List.filter_eq_nil_iff.2 (by simpa using hroles), List.append_nil]
  rw [← List.map_append] at hperm
  show Laid tokens ⟨.node r .classDef (if Kind.classDef.isPlaced then some (spanBetween tokens m j) else none)
    items, lo, j⟩
  refine .node rfl (by decide) (by simp) (fun h => by cases h) nofun (by simp) (fun _ => ⟨hlt, hstart⟩) ?_
    hperm.symm (hfront.append hback) (fun c hc => ?_) (List.forall_mem_append.2 ⟨hfl, hbl⟩)
  · rwa [hdecorators]
  · rcases List.mem_append.1 hc with hc | hc
    · exact Or.inl (hfront.bounds c hc).2.2
    · exact Or.inr (hback.bounds c hc).1

/-- A definition with decorators before it. -/
theorem laid_decorated (ih : ∀ m < fuel, Lay m) {m : Nat} {more : List Tree}
    (he : Runs fuel tokens (.as .decorators (Phrase.atLeastOne decoratorPhrase)) i m more)
    (h : Runs fuel tokens (.alt [Grammar.definition, Grammar.classDefinition]) m j ts) :
    ∃ t, ts = [t] ∧ Laid tokens ⟨t.extend more, i, j⟩ := by
  obtain ⟨ha, hr⟩ := adorned_of_run he
  have hd : Lays tokens i m more := by
    obtain ⟨n, hn, us, hr', rfl⟩ := he.as
    exact (ih n hn hr' (isKnown_of_irregular [] rfl (by simp))).1.assume _
  obtain ⟨n₁, hn₁, p, hp, h⟩ := h.alt
  rcases List.mem_pair.1 hp with rfl | rfl
  · obtain ⟨n₂, hn₂, p, hp, h⟩ := h.alt
    rcases List.mem_pair.1 hp with rfl | rfl
    · obtain ⟨n₃, hn₃, us, hr₃, rfl⟩ := h.node
      obtain ⟨b, head, body, hparts⟩ := definitionParts_of_run (fun n hn => ih n (by omega)) hr₃
      exact ⟨_, rfl, laid_definition rfl ha hd hr hparts
        ((Tree.arrange_perm _ _).trans ((Tree.arrange_perm _ us).append_left more)) fun role => by
          rw [Tree.filter_arrange, List.filter_append, Tree.filter_arrange, List.filter_append]⟩
    · obtain ⟨n₃, hn₃, us, hr₃, rfl⟩ := h.node
      obtain ⟨b, head, body, hparts⟩ := asyncParts_of_run (fun n hn => ih n (by omega)) hr₃
      exact ⟨_, rfl, laid_definition rfl ha hd hr hparts
        ((Tree.arrange_perm _ _).trans ((Tree.arrange_perm _ us).append_left more)) fun role => by
          rw [Tree.filter_arrange, List.filter_append, Tree.filter_arrange, List.filter_append]⟩
  · obtain ⟨n₃, hn₃, us, hr₃, rfl⟩ := h.node
    have ho := holds_of_run tokens hr₃
    obtain ⟨hlt, hstart⟩ := ho.leads rfl
    have hl := (ih n₃ (by omega) hr₃
      (isKnown_of_irregular (List.replicate 2 passPhrase) rfl (by simp [particular]))).1
    exact ⟨_, rfl, laid_classDefinition ha hd hr hlt hstart hl (ho.unadorning rfl)
      ((Tree.arrange_perm _ _).trans ((Tree.arrange_perm _ us).append_left more)) (by
        rw [Tree.filter_arrange, List.filter_append, Tree.filter_arrange, List.filter_append])⟩

end Particular

/-! ## All readings -/

section Regular

variable {fuel i j k : Nat} {ts us : List Tree}

/-- A node that a phrase makes without more ado. -/
theorem laid_of_holds {o : Outline} {kind : Kind} (ho : o.Holds tokens i j ts)
    (hb : o.bars kind = false) (hl : Lays tokens i j ts) :
    Laid tokens ⟨.make kind (spanBetween tokens i j) ts, i, j⟩ := by
  simp only [Outline.bars, Bool.or_eq_false_iff, Bool.not_eq_false', Kind.isParticular,
    decide_eq_false_iff_not] at hb
  obtain ⟨⟨⟨⟨⟨⟨hdef, hlambda⟩, hpass⟩, hplaced⟩, hun⟩, hsingle⟩, htext⟩ := hb
  refine laid_make ⟨hdef, hlambda, hpass⟩ (fun hs => ho.count 1 ?_) (fun ht => ho.plain ?_)
    (fun hp => ho.leads ?_) (ho.unadorning hun) hl
  · simpa [hs] using hsingle
  · simpa [ht] using htext
  · simpa [hp] using hplaced

theorem lays_chained (ih : Lay fuel) {ps : List Phrase}
    (hk : ∀ q ∈ Phrase.irregularAll ps, q ∈ particular) (h : Chained (Runs fuel tokens) ps i j ts) :
    Lays tokens i j ts := by
  induction h with
  | nil => exact lays_nil le_rfl (noString_self _)
  | cons hp _ ihc =>
    rw [Phrase.irregularAll, List.forall_mem_append] at hk
    exact (ih hp hk.1).1.append (ihc hk.2)

theorem eq_of_isIdle {p : Phrase} (hp : p.isIdle = true) (h : Runs fuel tokens p i j ts) :
    j = i ∧ ts = [] := by
  obtain ⟨hstill, hcount⟩ := Bool.and_eq_true_iff.1 hp
  have ho := holds_of_run tokens h
  exact ⟨ho.still hstill, List.eq_nil_of_length_eq_zero (ho.count 0 (of_decide_eq_true hcount))⟩

theorem eq_of_all_isIdle {ps : List Phrase} (hps : ps.all Phrase.isIdle = true)
    (h : Chained (Runs fuel tokens) ps i j ts) : j = i ∧ ts = [] := by
  induction h with
  | nil => exact ⟨rfl, rfl⟩
  | cons hp _ ihc =>
    obtain ⟨h₁, h₂⟩ := Bool.and_eq_true_iff.1 hps
    obtain ⟨rfl, rfl⟩ := eq_of_isIdle h₁ hp
    exact ihc h₂

/-- A phrase of several of which one makes a node. -/
theorem laid_chained (ih : Lay fuel) {ps : List Phrase}
    (hk : ∀ q ∈ Phrase.irregularAll ps, q ∈ particular) (hw : Phrase.holdsWhole ps = true)
    (h : Chained (Runs fuel tokens) ps i j ts) : ∃ t, ts = [t] ∧ Laid tokens ⟨t, i, j⟩ := by
  induction h with
  | nil => cases hw
  | cons hp hc ihc =>
    rw [Phrase.irregularAll, List.forall_mem_append] at hk
    rcases Bool.or_eq_true_iff.1 hw with hw | hw
    · obtain ⟨hwhole, hidle⟩ := Bool.and_eq_true_iff.1 hw
      obtain ⟨t, rfl, ht⟩ := (ih hp hk.1).2 hwhole
      obtain ⟨rfl, rfl⟩ := eq_of_all_isIdle hidle hc
      exact ⟨t, rfl, ht⟩
    · obtain ⟨hidle, hwhole⟩ := Bool.and_eq_true_iff.1 hw
      obtain ⟨rfl, rfl⟩ := eq_of_isIdle hidle hp
      exact ihc hk.2 hwhole

theorem lays_repeated (ih : Lay fuel) {p : Phrase} (hk : p.IsKnown)
    (h : Repeated (Runs fuel tokens) p i j ts) : Lays tokens i j ts := by
  induction h with
  | stop => exact lays_nil le_rfl (noString_self _)
  | more hp _ _ ihr => exact (ih hp hk).1.append ihr

theorem irregular_of_mem {held : Outline} {b : Branch} {bs : List Branch}
    (hk : ∀ q ∈ Branch.irregularAll held bs, q ∈ particular) (hb : b ∈ bs) :
    ∀ q ∈ b.irregular held, q ∈ particular := by
  induction bs with
  | nil => cases hb
  | cons c cs ih =>
    rw [Branch.irregularAll, List.forall_mem_append] at hk
    rcases List.mem_cons.1 hb with rfl | hb
    · exact hk.1
    · exact ih hk.2 hb

theorem fork_not_mem (p : Phrase) (branches : List Branch) : .fork p branches ∉ particular := by
  intro h
  simp only [particular, List.mem_cons, List.not_mem_nil, or_false] at h
  rcases h with h | h | h | h | h <;> cases h

theorem grow_not_mem (p : Phrase) (branches : List Branch) : .grow p branches ∉ particular := by
  intro h
  simp only [particular, List.mem_cons, List.not_mem_nil, or_false] at h
  rcases h with h | h | h | h | h <;> cases h

theorem emit_not_mem (t : Tree) : .emit t ∉ particular := by
  intro h
  simp only [particular, List.mem_cons, List.not_mem_nil, or_false] at h
  rcases h with h | h | h | h | h <;> cases h

section Parts

variable {p extra : Phrase} {kind : Kind} {branches : List Branch}

/-- What the known phrases are made of is known. -/
theorem isKnown_of_particular (h : .node kind p ∈ particular) : p.IsKnown := by
  simp only [particular, List.mem_cons, List.not_mem_nil, or_false] at h
  rcases h with h | h | h | h | h
  · obtain ⟨-, rfl⟩ := Phrase.node.inj h
    exact isKnown_of_irregular [] rfl (by simp)
  · obtain ⟨-, rfl⟩ := Phrase.node.inj h
    exact isKnown_of_irregular [] rfl (by simp)
  · obtain ⟨-, rfl⟩ := Phrase.node.inj h
    exact isKnown_of_irregular (List.replicate 2 passPhrase) rfl (by simp [particular])
  · obtain ⟨-, rfl⟩ := Phrase.node.inj h
    exact isKnown_of_irregular (List.replicate 2 passPhrase) rfl (by simp [particular])
  · cases h

theorem isKnown_of_node (h : (Phrase.node kind p).IsKnown) : p.IsKnown := by
  rw [Phrase.IsKnown, Phrase.irregular] at h
  split at h
  · exact isKnown_of_particular (h _ (List.mem_singleton_self _))
  · exact h

theorem isKnown_of_fork (h : (Phrase.fork p branches).IsKnown) : p.IsKnown ∧
    ∀ b ∈ branches, ∀ q ∈ b.irregular p.outline, q ∈ particular := by
  rw [Phrase.IsKnown, Phrase.irregular] at h
  split at h
  · rw [List.forall_mem_append] at h
    exact ⟨h.1, fun b hb => irregular_of_mem h.2 hb⟩
  · exact absurd (h _ (List.mem_singleton_self _)) (fork_not_mem _ _)

theorem isKnown_of_grow (h : (Phrase.grow p branches).IsKnown) : p.IsKnown ∧
    Branch.outlineAny p.outline branches = p.outline ∧
    ∀ b ∈ branches, ∀ q ∈ b.irregular p.outline, q ∈ particular := by
  rw [Phrase.IsKnown, Phrase.irregular] at h
  split at h
  · rename_i hstable
    rw [List.forall_mem_append] at h
    exact ⟨h.1, of_decide_eq_true (Bool.and_eq_true_iff.1 hstable).2, fun b hb => irregular_of_mem h.2 hb⟩
  · exact absurd (h _ (List.mem_singleton_self _)) (grow_not_mem _ _)

theorem eq_decorated (h : (Phrase.adorn extra p).IsKnown) : .adorn extra p = Grammar.decorated := by
  have hmem := h _ (List.mem_singleton_self _)
  simp only [particular, List.mem_cons, List.not_mem_nil, or_false] at hmem
  obtain h | h | h | h | h := hmem
  · cases h
  · cases h
  · cases h
  · cases h
  · exact h

theorem isKnown_of_adorn (h : (Phrase.adorn extra p).IsKnown) :
    extra.IsKnown ∧ p.IsKnown ∧ p.isWhole = true := by
  obtain ⟨rfl, rfl⟩ := Phrase.adorn.inj (eq_decorated h)
  exact ⟨isKnown_of_irregular [] rfl (by simp), isKnown_of_irregular
    (plainDefinition :: asyncDefinition :: List.replicate 2 passPhrase) rfl (by simp [particular]), rfl⟩

end Parts

/-- A branch that makes a node makes one of which no more is said. -/
theorem bars_of_irregular {held : Outline} {role : Role} {kind : Kind} {rest : Phrase}
    (hk : ∀ q ∈ (Branch.close role (some kind) rest).irregular held, q ∈ particular) :
    ((held.inRole role).andThen rest.outline).bars kind = false ∧ rest.IsKnown := by
  rw [Branch.irregular] at hk
  by_cases hb : ((held.inRole role).andThen rest.outline).bars kind = true
  · rw [if_pos hb] at hk
    exact absurd (hk _ (List.mem_singleton_self _)) (fork_not_mem _ _)
  · rw [if_neg hb] at hk
    exact ⟨by simpa using hb, hk⟩

theorem lays_followed (ih : Lay fuel) {held : Outline} {b : Branch}
    (hk : ∀ q ∈ b.irregular held, q ∈ particular) (ho : held.Holds tokens i j ts)
    (hl : Lays tokens i j ts) (h : Followed (Runs fuel tokens) (spanBetween tokens i) ts b j k us) :
    Lays tokens i k us := by
  induction h generalizing held with
  | @close held' ts' role kind rest j' k' hr =>
    have hO := (ho.inRole role).andThen (holds_of_run tokens hr)
    cases kind with
    | none => exact (hl.assume role).append (ih hr hk).1
    | some kind =>
      obtain ⟨hb, hk⟩ := bars_of_irregular hk
      exact lays_singleton hO.le (laid_of_holds hO hb ((hl.assume role).append (ih hr hk).1))
  | @more held' ts' us' role rest c branches j' k' l' hr hc _ ihf =>
    rw [Branch.irregular, List.forall_mem_append] at hk
    exact ihf (irregular_of_mem hk.2 hc) ((ho.inRole role).andThen (holds_of_run tokens hr))
      ((hl.assume role).append (ih hr hk.1).1)

/-- A branch that makes a node of all that was read. -/
theorem laid_followed (ih : Lay fuel) {held : Outline} {b : Branch} {branches : List Branch}
    (hw : Branch.areWhole branches = true) (hb : b ∈ branches)
    (hk : ∀ q ∈ b.irregular held, q ∈ particular) (ho : held.Holds tokens i j ts)
    (hl : Lays tokens i j ts) (h : Followed (Runs fuel tokens) (spanBetween tokens i) ts b j k us) :
    ∃ t, us = [t] ∧ Laid tokens ⟨t, i, k⟩ := by
  have hb := List.all_eq_true.1 hw b hb
  cases h with
  | @close _ ts' role kind rest _ _ hr =>
    cases kind with
    | none => cases hb
    | some kind =>
      obtain ⟨hbars, hk⟩ := bars_of_irregular hk
      exact ⟨_, rfl, laid_of_holds ((ho.inRole role).andThen (holds_of_run tokens hr)) hbars
        ((hl.assume role).append (ih hr hk).1)⟩
  | more _ _ _ => cases hb

theorem lays_grown (ih : Lay fuel) {held : Outline} {branches : List Branch}
    (hstable : Branch.outlineAny held branches = held)
    (hk : ∀ b ∈ branches, ∀ q ∈ b.irregular held, q ∈ particular) (ho : held.Holds tokens i j ts)
    (hl : Lays tokens i j ts)
    (h : Grown (Runs fuel tokens) (spanBetween tokens i) branches ts j k us) : Lays tokens i k us := by
  induction h with
  | stop => exact hl
  | more hb hf _ ihg =>
    refine ihg ?_ (lays_followed ih (hk _ hb) ho hl hf)
    rw [← hstable]
    exact Outline.outlineAny_of_mem hb
      (Outline.holds_followed (holds_of_run tokens) (fun _ => rfl) hf ho)

end Regular

theorem areWhole_mem {ps : List Phrase} (h : Phrase.areWhole ps = true) {p : Phrase} (hp : p ∈ ps) :
    p.isWhole = true := by
  induction ps with
  | nil => cases hp
  | cons q qs ih =>
    obtain ⟨h₁, h₂⟩ := Bool.and_eq_true_iff.1 h
    rcases List.mem_cons.1 hp with rfl | hp
    · exact h₁
    · exact ih h₂ hp

theorem noString_lexeme {p : Phrase} {l : Lexeme} {i : Nat} (hp : p.lexeme? = some l)
    (h : lexemeAt tokens i = some l) : NoString tokens i (i + 1) := by
  refine noString_of_lexemeAt h fun s hs => ?_
  subst hs
  cases p <;> simp [Phrase.lexeme?] at hp

theorem spanBetween_single {i : Nat} {t : Token} (h : tokens[i]? = some t)
    (hl : t.lexeme.isLayout = false) : spanBetween tokens i (i + 1) = t.span := by
  rw [spanBetween, startAt, stopBefore, h]
  simp [hl]

/-- The node of adjacent string literals. -/
theorem laid_strings {spellings : List (List Char)} {expression : List Char → Option Tree} {t : Tree}
    {i : Nat} (hl : literalsAt tokens (tokens.size - i) i = spellings) (hne : spellings ≠ [])
    (he : ∀ text u, expression text = some u → u.IsSimple)
    (ht : Literal.toNode? expression (spanBetween tokens i (i + spellings.length)) spellings = some t) :
    Laid tokens ⟨t, i, i + spellings.length⟩ := by
  have hlt : i < i + spellings.length := Nat.lt_add_of_pos_right (List.length_pos_iff.2 hne)
  have hstrings : ∀ k, i ≤ k → k < i + spellings.length →
      ∃ s, lexemeAt tokens k = some (.string s) := by
    intro k hik hki
    obtain ⟨n, rfl⟩ := Nat.exists_eq_add_of_le hik
    exact lexemeAt_of_literalsAt (tokens.size - i) (by rw [hl]; omega)
  rcases Literal.literal_of_toNode? (fun k => k.isDefinition = false ∧ k ≠ .classDef)
    (by decide) (by decide) (by decide) he ht with ⟨v, rfl⟩ | ⟨ts, rfl, hts⟩
  · exact .literal (Or.inl ⟨rfl, v, rfl⟩) hlt hstrings (by simp [Tree.role, Tree.arrange, Tree.insertByRank])
  · refine .literal (Or.inr rfl) hlt hstrings fun u hu => ?_
    have := hts u (Tree.mem_arrange.1 hu)
    exact ⟨by rw [this.1]; decide, this.2⟩

/-- Whatever the grammar reads lies on the tokens that were read. -/
theorem lay (fuel : Nat) : Lay fuel := by
  induction fuel using Nat.strong_induction_on with
  | _ fuel ih =>
  intro tokens p i j ts h hk
  obtain ⟨n, hn, hm⟩ := h.made
  have ihn : Lay n := ih n hn
  have hle := (holds_of_run tokens h).le
  cases hm with
  | lexeme hp ht hl =>
    refine ⟨lays_nil hle (noString_lexeme hp (by rw [lexemeAt_eq ht, hl])), fun hw => ?_⟩
    cases p <;> simp [Phrase.lexeme?, Phrase.isWhole] at hp hw
  | name ht =>
    refine ⟨lays_singleton hle (.leaf (noString_of_lexemeAt (lexemeAt_eq ht) (by simp))), fun hw => ?_⟩
    cases hw
  | number ht =>
    refine ⟨lays_singleton hle ?_, fun hw => by cases hw⟩
    have hspan := spanBetween_single ht rfl
    simp only at hspan
    rw [← hspan]
    refine laid_make (by decide) (fun _ => rfl) (fun _ k hik hki => ?_)
      (fun _ => ⟨Nat.lt_succ_self i, _, lexemeAt_eq ht, rfl⟩) (by simp [Tree.role]) ?_
    · obtain rfl : k = i := by omega
      exact ⟨_, lexemeAt_eq ht, rfl⟩
    exact lays_singleton hle (.leaf (noString_of_lexemeAt (lexemeAt_eq ht) (by simp)))
  | strings hl hne he ht =>
    refine ⟨lays_singleton hle (laid_strings hl hne (fun text u hu => ?_) ht), fun hw => by cases hw⟩
    obtain ⟨inner, j, ts, hr, hu⟩ := he text u hu
    exact (holds_of_run inner hr).simple rfl u hu
  | @emit t _ =>
    cases t with
    | leaf r v => exact ⟨lays_singleton hle (.leaf (noString_self i)), fun hw => by cases hw⟩
    | node r k s us => exact absurd (hk _ (List.mem_singleton_self _)) (emit_not_mem _)
  | rule hr => exact ⟨(ihn hr (isKnown_rule _)).1, fun hw => by cases hw⟩
  | seq hc => exact ⟨lays_chained ihn hk hc, fun hw => laid_chained ihn hk hw hc⟩
  | alt hp hr =>
    have := ihn hr (isKnown_of_mem hk hp)
    exact ⟨this.1, fun hw => this.2 (areWhole_mem hw hp)⟩
  | opt hr => exact ⟨(ihn hr hk).1, fun hw => by cases hw⟩
  | optNone => exact ⟨lays_nil le_rfl (noString_self i), fun hw => by cases hw⟩
  | @many q _ _ _ hr => exact ⟨lays_repeated (p := q) ihn hk hr, fun hw => by cases hw⟩
  | ahead _ => exact ⟨lays_nil le_rfl (noString_self i), fun hw => by cases hw⟩
  | absent => exact ⟨lays_nil le_rfl (noString_self i), fun hw => by cases hw⟩
  | as hr => exact ⟨(ihn hr hk).1.assume _, fun hw => by cases hw⟩
  | @node kind q _ _ us hr =>
    suffices hlaid : Laid tokens ⟨.make kind (spanBetween tokens i j) us, i, j⟩ from
      ⟨lays_singleton hle hlaid, fun _ => ⟨_, rfl, hlaid⟩⟩
    rw [Phrase.IsKnown, Phrase.irregular] at hk
    by_cases hb : q.outline.bars kind = true
    · rw [if_pos hb] at hk
      exact laid_particular (fun m hm => ih m (by omega)) (hk _ (List.mem_singleton_self _)) hr
    · rw [if_neg hb] at hk
      exact laid_of_holds (holds_of_run tokens hr) (by simpa using hb) (ihn hr hk).1
  | @fork q b branches _ m _ us _ hr hb hf =>
    obtain ⟨hq, hbranches⟩ := isKnown_of_fork hk
    have ho := holds_of_run tokens hr
    have hl := (ihn hr hq).1
    exact ⟨lays_followed ihn (hbranches b hb) ho hl hf,
      fun hw => laid_followed ihn hw hb (hbranches b hb) ho hl hf⟩
  | @grow q branches _ m _ us _ hr hg =>
    obtain ⟨hq, hstable, hbranches⟩ := isKnown_of_grow hk
    exact ⟨lays_grown ihn hstable hbranches (holds_of_run tokens hr) (ihn hr hq).1 hg,
      fun hw => by cases hw⟩
  | @adorn extra q _ m _ more us he hr =>
    obtain ⟨rfl, rfl⟩ := Phrase.adorn.inj (eq_decorated hk)
    obtain ⟨t, rfl, hlaid⟩ := laid_decorated (fun m hm => ih m (by omega)) he hr
    exact ⟨lays_singleton hle hlaid, fun _ => ⟨_, rfl, hlaid⟩⟩
  | check hr => exact ⟨(ihn hr hk).1, fun hw => by cases hw⟩

end CallTrace.Syntax
