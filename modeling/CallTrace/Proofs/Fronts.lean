import Mathlib
import CallTrace.Proofs.Titles

/-!
# Where statements begin

A statement begins where a logical line does, or behind a colon or a semicolon (`IsFront`); its decorators
count.  `Phrase.front` goes through a phrase with what is known of the place where its reading begins, and
finds out whether statements are made at fronts alone.  `grammar_front` says that it is so in the rules of
the grammar.

So every statement in the trees of a reading lies on tokens from a front on (`seated_of_run`).  That it
lies on these tokens is known from `lay`; the proof only has to follow the fronts.
-/

namespace CallTrace.Syntax

open Instrument

variable {tokens : Array Token}

/-- A statement may begin behind the lexeme. -/
def Lexeme.isBreak (l : Lexeme) : Bool :=
  l.isLayout || l = .sign .colon || l = .sign .semicolon

/-- A statement may begin in the place. -/
def IsFront (tokens : Array Token) (i : Nat) : Prop :=
  ∀ n, i = n + 1 → ∃ l, lexemeAt tokens n = some l ∧ l.isBreak = true

theorem isFront_zero : IsFront tokens 0 := nofun

theorem isFront_succ {i : Nat} {l : Lexeme} (h : lexemeAt tokens i = some l) (hl : l.isBreak = true) :
    IsFront tokens (i + 1) := by
  intro n hn
  obtain rfl := Nat.succ.inj hn
  exact ⟨l, h, hl⟩

/-- The rule makes statements. -/
def Rule.isStatement (r : Rule) : Bool :=
  r = .statement || r = .elifTail

mutual
/-- Whether the reading of a phrase ends at a front; it begins at one if `b` says so.  There is no answer if
statements might be made elsewhere. -/
def Phrase.front (b : Bool) : Phrase → Option Bool
  | .sign s => some (Lexeme.sign s).isBreak
  | .newline => some true
  | .indent => some true
  | .dedent => some true
  | .emit (.leaf _ _) => some b
  | .emit (.node _ _ _ _) => none
  | .rule r => if r.isStatement && !b then none else some r.isStatement
  | .seq ps => Phrase.frontSeq b ps
  | .alt ps => Phrase.frontAlt b ps
  | .opt p => (p.front b).map (b && ·)
  | .many p => if p.front b = some b then some b else (p.front false).map fun _ => false
  | .ahead _ => some b
  | .absent _ => some b
  | .as _ p => p.front b
  | .node kind p => if kind.isStatement && !b then none else p.front b
  | .fork p branches =>
    (p.front b).bind fun c => Branch.frontAny (b && Branch.areWhole branches) c branches
  | .grow p branches =>
    (p.front b).bind fun _ => (Branch.frontAny false false branches).map fun _ => false
  | .adorn extra p => if b then (extra.front b).bind fun c => p.front c else none
  | .check _ p => p.front b
  | _ => some false
/-- The same for phrases one after the other. -/
def Phrase.frontSeq (b : Bool) : List Phrase → Option Bool
  | [] => some b
  | p :: ps => (p.front b).bind fun c => Phrase.frontSeq c ps
/-- The same for a choice. -/
def Phrase.frontAlt (b : Bool) : List Phrase → Option Bool
  | [] => some true
  | p :: ps => (p.front b).bind fun c => (Phrase.frontAlt b ps).map (c && ·)
/-- The same for a branch; `whole` says whether it may make a statement of all that was read. -/
def Branch.front (whole b : Bool) : Branch → Option Bool
  | .close _ kind rest => if kind.any Kind.isStatement && !whole then none else rest.front b
  | .more _ rest branches => (rest.front b).bind fun c => Branch.frontAny whole c branches
/-- The same for several branches. -/
def Branch.frontAny (whole b : Bool) : List Branch → Option Bool
  | [] => some true
  | c :: cs => (c.front whole b).bind fun d => (Branch.frontAny whole b cs).map (d && ·)
end

/-- The rules of the grammar make statements at fronts only, and those of statements end at one. -/
theorem grammar_front (r : Rule) :
    ∃ c, (grammar r).front r.isStatement = some c ∧ (r.isStatement = true → c = true) := by
  cases r <;> exact ⟨_, rfl, by decide⟩

/-! ## Trees -/

/-- The tree lies on tokens from a front on. -/
def Sits (tokens : Array Token) (t : Tree) : Prop :=
  ∃ lo hi, IsFront tokens lo ∧ Laid tokens ⟨t, lo, hi⟩

/-- Every statement in the tree lies on tokens from a front on. -/
inductive Seated (tokens : Array Token) : Tree → Prop
  | leaf {r : Role} {v : Leaf} : Seated tokens (.leaf r v)
  | node {r : Role} {k : Kind} {span : Option Span} {items : List Tree} :
      (k.isStatement = true → Sits tokens (.node r k span items)) →
      (∀ t ∈ items, Seated tokens t) → Seated tokens (.node r k span items)

theorem Sits.assume {t : Tree} (h : Sits tokens t) (role : Role) : Sits tokens (t.assume role) := by
  obtain ⟨lo, hi, hfront, hlaid⟩ := h
  exact ⟨lo, hi, hfront, hlaid.assume role⟩

theorem Seated.assume {t : Tree} (h : Seated tokens t) (role : Role) :
    Seated tokens (t.assume role) := by
  cases h with
  | @leaf r v => cases r <;> exact .leaf
  | @node r k span items h₁ h₂ =>
    obtain ⟨r', hr'⟩ := Tree.exists_assume_node role r k span items
    rw [hr']
    exact .node (fun hk => hr' ▸ (h₁ hk).assume role) h₂

theorem seated_map_assume {ts : List Tree} (role : Role) (h : ∀ t ∈ ts, Seated tokens t) :
    ∀ t ∈ ts.map (·.assume role), Seated tokens t := by
  intro t ht
  obtain ⟨u, hu, rfl⟩ := List.mem_map.1 ht
  exact (h u hu).assume role

theorem seated_make {kind : Kind} {span : Span} {ts : List Tree}
    (hk : kind.isStatement = true → Sits tokens (.make kind span ts))
    (h : ∀ t ∈ ts, Seated tokens t) : Seated tokens (.make kind span ts) :=
  .node hk fun t ht => h t (Tree.mem_arrange.1 ht)

/-- A node that is no statement. -/
theorem seated_part {kind : Kind} {span : Span} {ts : List Tree} (hk : kind.isStatement = false)
    (h : ∀ t ∈ ts, Seated tokens t) : Seated tokens (.make kind span ts) :=
  seated_make (fun hs => by rw [hk] at hs; cases hs) h

theorem Seated.extend {t : Tree} {more : List Tree} (h : Seated tokens t)
    (hmore : ∀ u ∈ more, Seated tokens u) (hsits : Sits tokens (t.extend more)) :
    Seated tokens (t.extend more) := by
  cases h with
  | leaf => exact .leaf
  | node _ hitems =>
    refine .node (fun _ => hsits) fun u hu => ?_
    rcases List.mem_append.1 (Tree.mem_arrange.1 hu) with hu | hu
    · exact hmore u hu
    · exact hitems u hu

mutual
/-- A tree without statements. -/
theorem seated_of_isFreeOf : ∀ {t : Tree}, t.IsFreeOf Kind.isStatement → Seated tokens t
  | .node _ _ _ _, h =>
    .node (fun hk => by rw [h.1] at hk; cases hk) (seated_of_everyAll h.2)
  | .leaf _ _, _ => .leaf
theorem seated_of_everyAll : ∀ {ts : List Tree},
    Tree.EveryAll (fun k _ => k.isStatement = false) ts → ∀ t ∈ ts, Seated tokens t
  | [], _ => by simp
  | _ :: _, h => List.forall_mem_cons.2 ⟨seated_of_isFreeOf h.1, seated_of_everyAll h.2⟩
end

theorem Seated.under {above nodes : List Tree} {t u : Tree} (h : Seated tokens t)
    (hu : Under above t nodes u) : Seated tokens u := by
  induction hu with
  | self => exact h
  | item hmem _ ih =>
    cases h with
    | node _ hitems => exact ih (hitems _ hmem)

/-! ## All readings -/

/-- What is shown of the readings with the given fuel. -/
def Seats (fuel : Nat) : Prop :=
  ∀ {tokens : Array Token} {p : Phrase} {i j : Nat} {ts : List Tree} {b c : Bool},
    Runs fuel tokens p i j ts → p.IsKnown → p.front b = some c → (b = true → IsFront tokens i) →
      (∀ t ∈ ts, Seated tokens t) ∧ (c = true → IsFront tokens j)

section Combinations

variable {fuel i j : Nat} {ts us : List Tree} {b c : Bool}

theorem seated_chained (ih : Seats fuel) {ps : List Phrase}
    (hk : ∀ q ∈ Phrase.irregularAll ps, q ∈ particular) (hf : Phrase.frontSeq b ps = some c)
    (hi : b = true → IsFront tokens i) (h : Chained (Runs fuel tokens) ps i j ts) :
    (∀ t ∈ ts, Seated tokens t) ∧ (c = true → IsFront tokens j) := by
  induction h generalizing b with
  | nil =>
    obtain rfl := Option.some.inj hf
    exact ⟨by simp, hi⟩
  | cons hp _ ihc =>
    rw [Phrase.irregularAll, List.forall_mem_append] at hk
    obtain ⟨d, hd, hf⟩ := Option.bind_eq_some_iff.1 hf
    obtain ⟨first, hj⟩ := ih hp hk.1 hd hi
    obtain ⟨rest, hend⟩ := ihc hk.2 hf hj
    exact ⟨List.forall_mem_append.2 ⟨first, rest⟩, hend⟩

/-- A phrase that leads from front to front again and again, or that need not start from one. -/
theorem seated_repeated (ih : Seats fuel) {p : Phrase} (hk : p.IsKnown) (hf : p.front b = some c)
    (hbc : b = true → c = true) (hi : b = true → IsFront tokens i)
    (h : Repeated (Runs fuel tokens) p i j ts) :
    (∀ t ∈ ts, Seated tokens t) ∧ (b = true → IsFront tokens j) := by
  induction h with
  | stop => exact ⟨by simp, hi⟩
  | more hp _ _ ihr =>
    obtain ⟨first, hj⟩ := ih hp hk hf hi
    obtain ⟨rest, hend⟩ := ihr fun hb => hj (hbc hb)
    exact ⟨List.forall_mem_append.2 ⟨first, rest⟩, hend⟩

theorem front_of_mem {p : Phrase} {ps : List Phrase} (hp : p ∈ ps)
    (h : Phrase.frontAlt b ps = some c) : ∃ d, p.front b = some d ∧ (c = true → d = true) := by
  induction ps generalizing c with
  | nil => cases hp
  | cons q qs ih =>
    obtain ⟨d, hd, h⟩ := Option.bind_eq_some_iff.1 h
    obtain ⟨e, he, rfl⟩ := Option.map_eq_some_iff.1 h
    rcases List.mem_cons.1 hp with rfl | hp
    · exact ⟨d, hd, fun hc => (Bool.and_eq_true_iff.1 hc).1⟩
    · obtain ⟨f, hf, hef⟩ := ih hp he
      exact ⟨f, hf, fun hc => hef (Bool.and_eq_true_iff.1 hc).2⟩

theorem front_of_mem_branches {whole : Bool} {r : Branch} {rs : List Branch} (hr : r ∈ rs)
    (h : Branch.frontAny whole b rs = some c) :
    ∃ d, r.front whole b = some d ∧ (c = true → d = true) := by
  induction rs generalizing c with
  | nil => cases hr
  | cons q qs ih =>
    obtain ⟨d, hd, h⟩ := Option.bind_eq_some_iff.1 h
    obtain ⟨e, he, rfl⟩ := Option.map_eq_some_iff.1 h
    rcases List.mem_cons.1 hr with rfl | hr
    · exact ⟨d, hd, fun hc => (Bool.and_eq_true_iff.1 hc).1⟩
    · obtain ⟨f, hf, hef⟩ := ih hr he
      exact ⟨f, hf, fun hc => hef (Bool.and_eq_true_iff.1 hc).2⟩

/-- A branch that makes a statement makes it of all that was read, and then that sits. -/
theorem seated_followed (ih : Seats fuel) {whole : Bool} {spanTo : Nat → Span} {held : Outline}
    {r : Branch} (hk : ∀ q ∈ r.irregular held, q ∈ particular) (hf : r.front whole b = some c)
    (hi : b = true → IsFront tokens i) (hts : ∀ t ∈ ts, Seated tokens t)
    (hwhole : whole = true → ∀ t ∈ us, Sits tokens t)
    (h : Followed (Runs fuel tokens) spanTo ts r i j us) :
    (∀ t ∈ us, Seated tokens t) ∧ (c = true → IsFront tokens j) := by
  induction h generalizing held b c with
  | @close ts' vs role kind rest i' j' hr =>
    rw [Branch.front, Option.ite_none_left_eq_some] at hf
    obtain ⟨hkind, hf⟩ := hf
    cases kind with
    | none =>
      obtain ⟨hvs, hj⟩ := ih hr hk hf hi
      exact ⟨List.forall_mem_append.2 ⟨seated_map_assume role hts, hvs⟩, hj⟩
    | some kind =>
      obtain ⟨hvs, hj⟩ := ih hr (bars_of_irregular hk).2 hf hi
      have hsits (hs : kind.isStatement = true) : whole = true := by
        simpa [hs] using hkind
      refine ⟨?_, hj⟩
      simp only [Reader.wrap, List.mem_singleton, forall_eq] at hwhole ⊢
      exact seated_make (fun hs => hwhole (hsits hs))
        (List.forall_mem_append.2 ⟨seated_map_assume role hts, hvs⟩)
  | @more ts' vs us' role rest q branches i' j' k' hr hq _ ihf =>
    rw [Branch.irregular, List.forall_mem_append] at hk
    obtain ⟨d, hd, hf⟩ := Option.bind_eq_some_iff.1 hf
    obtain ⟨e, he, hce⟩ := front_of_mem_branches hq hf
    obtain ⟨hvs, hj⟩ := ih hr hk.1 hd hi
    obtain ⟨hus, hend⟩ := ihf (irregular_of_mem hk.2 hq) he hj
      (List.forall_mem_append.2 ⟨seated_map_assume role hts, hvs⟩) hwhole
    exact ⟨hus, fun hc => hend (hce hc)⟩

theorem seated_grown (ih : Seats fuel) {spanTo : Nat → Span} {held : Outline} {branches : List Branch}
    (hk : ∀ r ∈ branches, ∀ q ∈ r.irregular held, q ∈ particular)
    (hf : Branch.frontAny false false branches = some c) (hts : ∀ t ∈ ts, Seated tokens t)
    (h : Grown (Runs fuel tokens) spanTo branches ts i j us) : ∀ t ∈ us, Seated tokens t := by
  induction h with
  | stop => exact hts
  | more hr hfollowed _ ihg =>
    obtain ⟨d, hd, -⟩ := front_of_mem_branches hr hf
    exact ihg (seated_followed ih (hk _ hr) hd (by simp) hts (by simp) hfollowed).1

end Combinations

/-- Every statement that the grammar reads lies on tokens from a front on. -/
theorem seated_of_run (fuel : Nat) : Seats fuel := by
  induction fuel with
  | zero => intro tokens p i j ts b c h; cases h
  | succ fuel ih =>
  intro tokens p i j ts b c h hk hf hi
  have hwhole (hw : p.isWhole = true) (hb : b = true) : ∀ t ∈ ts, Sits tokens t := by
    obtain ⟨t, rfl, hlaid⟩ := (lay (fuel + 1) h hk).2 hw
    simpa using ⟨i, j, hi hb, hlaid⟩
  cases made_of_run h with
  | @lexeme p l t i hp ht hl =>
    refine ⟨by simp, fun hc => ?_⟩
    have hlex : lexemeAt tokens i = some l := by rw [lexemeAt_eq ht, hl]
    refine isFront_succ hlex ?_
    subst hc
    cases p <;> cases hp <;> simp_all [Phrase.front, Lexeme.isBreak, Lexeme.isLayout]
  | name _ =>
    obtain rfl := Option.some.inj hf
    exact ⟨by simpa using Seated.leaf, by simp⟩
  | number _ =>
    obtain rfl := Option.some.inj hf
    exact ⟨List.forall_mem_singleton.2 (seated_part rfl (by simpa using Seated.leaf)), by simp⟩
  | strings _ _ he ht =>
    obtain rfl := Option.some.inj hf
    have hfree (inner : Array Token) {k : Nat} {us : List Tree}
        (hr : Runs fuel inner Grammar.starExpressions 0 k us) :
        ∀ u ∈ us, u.IsFreeOf Kind.isStatement :=
      isFreeOf_of_run isComplete_statements inner hr isComplete_statements.expressions
    have hplain := Literal.literal_of_toNode? (·.isStatement = false) rfl rfl rfl
      (fun text u hu => by
        obtain ⟨inner, k, us, hr, hu⟩ := he text u hu
        exact hfree inner hr u hu) ht
    rw [List.forall_mem_singleton]
    rcases hplain with ⟨v, rfl⟩ | ⟨us, rfl, hus⟩
    · exact ⟨seated_part rfl (by simpa using Seated.leaf), by simp⟩
    · exact ⟨seated_part rfl fun u hu =>
        seated_of_isFreeOf ((hus u hu).2.imp fun _ _ h => h.1), by simp⟩
  | @emit t _ =>
    cases t with
    | leaf r v =>
      obtain rfl := Option.some.inj hf
      exact ⟨by simpa using Seated.leaf, hi⟩
    | node r k span us => cases hf
  | @rule r _ _ _ hr =>
    obtain ⟨d, hd, hend⟩ := grammar_front r
    rw [Phrase.front, Option.ite_none_left_eq_some, Option.some.injEq] at hf
    obtain ⟨hb, rfl⟩ := hf
    obtain ⟨hts, hj⟩ := ih hr (isKnown_rule r) hd fun hs => hi (by simpa [hs] using hb)
    exact ⟨hts, fun hs => hj (hend hs)⟩
  | seq hc => exact seated_chained ih hk hf hi hc
  | alt hp hr =>
    obtain ⟨d, hd, hcd⟩ := front_of_mem hp hf
    obtain ⟨hts, hj⟩ := ih hr (isKnown_of_mem hk hp) hd hi
    exact ⟨hts, fun hc => hj (hcd hc)⟩
  | opt hr =>
    obtain ⟨d, hd, rfl⟩ := Option.map_eq_some_iff.1 hf
    obtain ⟨hts, hj⟩ := ih hr hk hd hi
    exact ⟨hts, fun hc => hj (Bool.and_eq_true_iff.1 hc).2⟩
  | optNone =>
    obtain ⟨d, -, rfl⟩ := Option.map_eq_some_iff.1 hf
    exact ⟨by simp, fun hc => hi (Bool.and_eq_true_iff.1 hc).1⟩
  | @many q _ _ _ hr =>
    rw [Phrase.front] at hf
    split at hf
    · rename_i hsame
      obtain rfl := Option.some.inj hf
      exact seated_repeated ih (p := q) hk hsame id hi hr
    · obtain ⟨d, hd, rfl⟩ := Option.map_eq_some_iff.1 hf
      exact ⟨(seated_repeated ih (p := q) hk hd (by simp) (by simp) hr).1, by simp⟩
  | ahead _ | absent =>
    obtain rfl := Option.some.inj hf
    exact ⟨by simp, hi⟩
  | as hr =>
    obtain ⟨hus, hj⟩ := ih hr hk hf hi
    exact ⟨seated_map_assume _ hus, hj⟩
  | @node kind q _ _ us hr =>
    rw [Phrase.front, Option.ite_none_left_eq_some] at hf
    obtain ⟨hkind, hf⟩ := hf
    obtain ⟨hus, hj⟩ := ih hr (isKnown_of_node hk) hf hi
    refine ⟨?_, hj⟩
    simp only [List.mem_singleton, forall_eq] at hwhole ⊢
    exact seated_make (fun hs => hwhole rfl (by simpa [hs] using hkind)) hus
  | @fork q r branches _ m _ us _ hr hb hfollowed =>
    obtain ⟨hq, hbranches⟩ := isKnown_of_fork hk
    obtain ⟨d, hd, hf⟩ := Option.bind_eq_some_iff.1 hf
    obtain ⟨e, he, hce⟩ := front_of_mem_branches hb hf
    obtain ⟨hus, hm⟩ := ih hr hq hd hi
    obtain ⟨hts, hj⟩ := seated_followed ih (hbranches r hb) he hm hus
      (fun hw => hwhole (Bool.and_eq_true_iff.1 hw).2 (Bool.and_eq_true_iff.1 hw).1) hfollowed
    exact ⟨hts, fun hc => hj (hce hc)⟩
  | @grow q branches _ m _ us _ hr hg =>
    obtain ⟨hq, -, hbranches⟩ := isKnown_of_grow hk
    obtain ⟨d, hd, hf⟩ := Option.bind_eq_some_iff.1 hf
    obtain ⟨e, he, rfl⟩ := Option.map_eq_some_iff.1 hf
    exact ⟨seated_grown ih hbranches he (ih hr hq hd hi).1 hg, by simp⟩
  | @adorn extra q _ m _ more us he hr =>
    obtain ⟨hextra, hq, hw⟩ := isKnown_of_adorn hk
    rw [Phrase.front, Option.ite_none_right_eq_some] at hf
    obtain ⟨hb, hf⟩ := hf
    obtain ⟨d, hd, hf⟩ := Option.bind_eq_some_iff.1 hf
    obtain ⟨hmore, hm⟩ := ih he hextra hd hi
    obtain ⟨hus, hj⟩ := ih hr hq hf hm
    have hsits := hwhole hw hb
    refine ⟨fun t ht => ?_, hj⟩
    obtain ⟨u, hu, rfl⟩ := List.mem_map.1 ht
    exact (hus u hu).extend hmore (hsits _ ht)
  | check hr => exact ih hr hk hf hi

end CallTrace.Syntax
