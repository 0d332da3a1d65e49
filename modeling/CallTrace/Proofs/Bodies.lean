import Mathlib
import CallTrace.Proofs.Placement

/-!
# Bodies of different functions

Each statement is in the body of at most one definition: where the statements of two definitions that
a pass meets begin is never the same (`Parsed.pairwise_apart`).  The proof goes along the tree laid on
its tokens.  Items of a node lie on different tokens; and what is in the body of a definition inside of
a statement begins later than the statement, or in its decorators.
-/

namespace CallTrace

open Syntax Instrument Text

namespace Instrument

variable {o : Options} {s : Source}

/-- The statements in the body of a definition; a lambda has none. -/
def Site.body (x : Site) : List Tree :=
  if x.tree.kind?.any Kind.isDefinition then x.tree.field .body else []

/-- No statement of one body begins where a statement of the other does. -/
def Site.Apart (x y : Site) : Prop :=
  ∀ t ∈ x.body, ∀ u ∈ y.body, t.start ≠ u.start

theorem Site.Apart.symm {x y : Site} (h : x.Apart y) : y.Apart x :=
  fun t ht u hu e => h u hu t ht e.symm

theorem sitesIn_eq (above : List Tree) (units : List (List Char)) (part : Part) (ts : List Tree) :
    sitesIn o s above units part ts =
      (ts.filter fun t => part.holds t.role).flatMap (sites o s above units) := by
  induction ts with
  | nil => rfl
  | cons t ts ih =>
    rw [sitesIn, ih, List.filter_cons]
    split <;> simp

/-- A node, if it is a function that a pass meets. -/
def ownSite (o : Options) (s : Source) (above : List Tree) (units : List (List Char)) (t : Tree) :
    List Site :=
  if isTraced o (Function.classify s above t 0) then [⟨above, t, units⟩] else []

/-- The units by which the functions in an item of a node are shifted: one more than the node itself for
the body of a function that a pass meets. -/
def itemUnits (isMet : Bool) (units : List (List Char)) (unit : List Char) (t : Tree) : List (List Char) :=
  if isMet && t.role = .body then units ++ [unit] else units

theorem mem_ownSite {above : List Tree} {units : List (List Char)} {t : Tree} {x : Site} :
    x ∈ ownSite o s above units t ↔
      x = ⟨above, t, units⟩ ∧ isTraced o (Function.classify s above t 0) = true := by
  rw [ownSite]
  split
  · rename_i h
    simp [h]
  · rename_i h
    simp [h]

theorem pairwise_ownSite {R : Site → Site → Prop} {above : List Tree} {units : List (List Char)} {t : Tree} :
    (ownSite o s above units t).Pairwise R := by
  rw [ownSite]
  split
  · exact List.pairwise_singleton _ _
  · exact .nil

/-- The unit by which the body of a function is shifted. -/
def bodyUnit (o : Options) (s : Source) (units : List (List Char)) : Function.Shape → List Char
  | .definition d => (wrapDefinition o s units d).unit
  | _ => []

/-- The functions met in a node are the node itself, if it is one, and those met in its items. -/
theorem sites_perm (o : Options) (s : Source) (above : List Tree) (units : List (List Char)) (r : Role)
    (k : Kind) (span : Option Span) (ts : List Tree) :
    (sites o s above units (.node r k span ts)).Perm
      (ownSite o s above units (.node r k span ts) ++ ts.flatMap fun t =>
        sites o s (.node r k span ts :: above)
          (itemUnits (isTraced o (Function.classify s above (.node r k span ts) 0)) units
            (bodyUnit o s units (Function.classify s above (.node r k span ts) 0)) t) t) := by
  -- The items outside of the body come before the function, those of the body after it.
  have parts (x : Site) (unit : List Char) :
      (sitesIn o s (.node r k span ts :: above) units .outsideBody ts ++ x ::
        sitesIn o s (.node r k span ts :: above) (units ++ [unit]) .body ts).Perm
      ([x] ++ ts.flatMap fun t =>
        sites o s (.node r k span ts :: above) (itemUnits true units unit t) t) := by
    refine List.perm_middle.trans (List.Perm.cons x ?_)
    rw [sitesIn_eq, sitesIn_eq]
    have hout : ∀ t ∈ ts.filter fun t => Part.outsideBody.holds t.role,
        sites o s (.node r k span ts :: above) units t =
          sites o s (.node r k span ts :: above) (itemUnits true units unit t) t := by
      intro t ht
      have hr : t.role ≠ .body := by simpa [Part.holds] using (List.mem_filter.1 ht).2
      rw [itemUnits, if_neg (by simp [hr])]
    have hin : ∀ t ∈ ts.filter fun t => Part.body.holds t.role,
        sites o s (.node r k span ts :: above) (units ++ [unit]) t =
          sites o s (.node r k span ts :: above) (itemUnits true units unit t) t := by
      intro t ht
      have hr : t.role = .body := by simpa [Part.holds] using (List.mem_filter.1 ht).2
      rw [itemUnits, if_pos (by simp [hr])]
    rw [List.flatMap_congr hout, List.flatMap_congr hin, ← List.flatMap_append]
    refine List.Perm.flatMap_right _ ?_
    have hnot : (fun t : Tree => Part.outsideBody.holds t.role) =
        fun t => !Part.body.holds t.role := by
      funext t
      simp [Part.holds]
    rw [hnot]
    exact List.perm_append_comm.trans (List.filter_append_perm _ ts)
  have all (unit : List Char) : sitesIn o s (.node r k span ts :: above) units .all ts =
      ts.flatMap fun t => sites o s (.node r k span ts :: above) (itemUnits false units unit t) t := by
    rw [sitesIn_eq, List.filter_eq_self.2 (by simp [Part.holds])]
    rfl
  rw [sites, ownSite]
  cases Function.classify s above (.node r k span ts) 0 with
  | definition d => exact parts _ _
  | lambda l =>
    cases htrace : o.traceLambdas with
    | true =>
      simp only [isTraced, htrace]
      exact parts _ _
    | false =>
      simp only [isTraced, htrace]
      exact .of_eq (all [])
  | unmatched => exact .of_eq (all [])

/-- A tree without definitions has no bodies. -/
theorem body_eq_nil {above : List Tree} {units : List (List Char)} {t : Tree}
    (ht : t.Every fun k _ => k.isDefinition = false) {x : Site} (hx : x ∈ sites o s above units t) :
    x.body = [] := by
  have hu := ((mem_sites o s t above units x.above x.tree).1 ⟨_, hx⟩).1
  obtain ⟨r, k, span, ts, htree⟩ := Under.exists_node hu
  have hk := Under.every hu ht
  rw [htree, Tree.every_node_iff] at hk
  rw [Site.body, htree, if_neg (by simp [Tree.kind?, hk.1])]

end Instrument

namespace Syntax

variable {tokens : Array Token} {i j : Nat} {cells : List Cell}

/-- Cells side by side have no tokens in common. -/
theorem Spread.pairwise (h : Spread tokens i j cells) : cells.Pairwise fun c d => c.hi ≤ d.lo := by
  induction h with
  | nil => exact .nil
  | cons _ _ _ hs ih => exact .cons (fun d hd => (hs.bounds d hd).1) ih

theorem Spread.eq_or_apart (h : Spread tokens i j cells) {c d : Cell} (hc : c ∈ cells) (hd : d ∈ cells) :
    c = d ∨ c.hi ≤ d.lo ∨ d.hi ≤ c.lo := by
  refine List.Pairwise.forall_of_forall_of_flip
    (R := fun c d => c = d ∨ c.hi ≤ d.lo ∨ d.hi ≤ c.lo) (fun c _ => Or.inl rfl) ?_ ?_ hc hd
  · exact h.pairwise.imp fun h => Or.inr (Or.inl h)
  · exact h.pairwise.imp fun h => Or.inr (Or.inr h)

/-- The items of a definition are those of its body and the others. -/
theorem perm_items {items : List Tree} {others body : List Cell}
    (hother : (others.map Cell.tree).Perm (items.filter (·.role ≠ .body)))
    (hbody : body.map Cell.tree = items.filter (·.role = .body)) :
    ((others ++ body).map Cell.tree).Perm items := by
  rw [List.map_append, hbody]
  refine (hother.append_right _).trans ?_
  have hnot : (fun t : Tree => decide (t.role ≠ .body)) = fun t => !decide (t.role = .body) := by
    funext t
    simp
  rw [hnot]
  exact List.perm_append_comm.trans (List.filter_append_perm _ items)

end Syntax

namespace Parsed

variable {text : List Char} {s : Source} {tokens : Array Token} {a b : Nat → Nat}
  (P : Parsed text s tokens a b)

/-- The statements in the bodies of functions that are met in a tree begin with tokens of the tree, but
not where the tree does. -/
def Begins (tokens : Array Token) (c : Cell) (x : Site) : Prop :=
  ∀ t ∈ x.body, ∃ k, c.lo < k ∧ k < c.hi ∧ StartsAt tokens k ∧ t.start = startAt tokens k ∧
    ∀ span ∈ c.tree.span?, span.start ≠ startAt tokens k

/-- What is shown of the functions that are met in a tree. -/
def Separates (o : Options) (s : Source) (tokens : Array Token) (c : Cell) : Prop :=
  ∀ above units, (∀ x ∈ sites o s above units c.tree, Begins tokens c x) ∧
    (sites o s above units c.tree).Pairwise Site.Apart

theorem separates_of_no_definition {o : Options} {c : Cell}
    (h : c.tree.Every fun k _ => k.isDefinition = false) : Separates o s tokens c := by
  intro above units
  refine ⟨fun x hx t ht => ?_, List.pairwise_of_forall_mem_list fun x hx y _ t ht => ?_⟩
  · rw [body_eq_nil h hx] at ht
    cases ht
  · rw [body_eq_nil h hx] at ht
    cases ht

include P

/-- The functions that are met in the items of a node. -/
theorem pairwise_items {o : Options} {i j : Nat} {items : List Tree} {cells : List Cell}
    (hperm : (cells.map Cell.tree).Perm items) (hs : Spread tokens i j cells)
    (ih : ∀ d ∈ cells, Separates o s tokens d) (above : List Tree) (inner : Tree → List (List Char)) :
    (∀ x ∈ items.flatMap fun t => sites o s above (inner t) t, ∃ d ∈ cells, Begins tokens d x) ∧
      (items.flatMap fun t => sites o s above (inner t) t).Pairwise Site.Apart := by
  constructor
  · intro x hx
    obtain ⟨t, ht, hx⟩ := List.mem_flatMap.1 hx
    obtain ⟨d, hd, rfl⟩ := List.mem_map.1 (hperm.mem_iff.2 ht)
    exact ⟨d, hd, (ih d hd _ _).1 x hx⟩
  · refine List.pairwise_flatMap.2 ⟨fun t ht => ?_, ?_⟩
    · obtain ⟨d, hd, rfl⟩ := List.mem_map.1 (hperm.mem_iff.2 ht)
      exact (ih d hd _ _).2
    · refine (hperm.pairwise_iff fun h x hx y hy => (h y hy x hx).symm).1 (List.pairwise_map.2 ?_)
      refine hs.pairwise.imp_of_mem fun {c d} hc hd hcd x hx y hy t ht u hu e => ?_
      obtain ⟨k, -, hk, hks, hkt, -⟩ := (ih c hc _ _).1 x hx t ht
      obtain ⟨l, hl, -, hls, hlu, -⟩ := (ih d hd _ _).1 y hy u hu
      rw [hkt, hlu] at e
      have := P.eq_of_startAt_eq hks hls e
      omega

/-- A node that is no definition. -/
theorem separates_node {o : Options} {r : Role} {k : Kind} {span : Option Span} {items : List Tree}
    {lo i m hi : Nat} {cells : List Cell} (hk : k.isDefinition = false)
    (hspan : ∀ place ∈ span, StartsAt tokens m ∧ place.start = startAt tokens m)
    (hperm : (cells.map Cell.tree).Perm items) (hlo : lo ≤ i) (hs : Spread tokens i hi cells)
    (hsides : ∀ c ∈ cells, c.hi ≤ m ∨ m ≤ c.lo) (ih : ∀ d ∈ cells, Separates o s tokens d) :
    Separates o s tokens ⟨.node r k span items, lo, hi⟩ := by
  intro above units
  have hsites := sites_perm o s above units r k span items
  obtain ⟨hbegins, hpair⟩ := P.pairwise_items hperm hs ih (.node r k span items :: above)
    (itemUnits _ units _)
  have hbody : ∀ x ∈ ownSite o s above units (.node r k span items), x.body = [] := by
    intro x hx
    obtain ⟨rfl, -⟩ := mem_ownSite.1 hx
    rw [Site.body, if_neg (by simp [Tree.kind?, hk])]
  constructor
  · intro x hx t ht
    rcases List.mem_append.1 (hsites.mem_iff.1 hx) with hx | hx
    · rw [hbody x hx] at ht
      cases ht
    · obtain ⟨d, hd, hx⟩ := hbegins x hx
      obtain ⟨n, hdn, hnd, hn, htn, -⟩ := hx t ht
      have hbounds := hs.bounds d hd
      refine ⟨n, by simp only; omega, by simp only; omega, hn, htn, fun place hplace => ?_⟩
      obtain ⟨hm, hstart⟩ := hspan place hplace
      rw [hstart]
      intro e
      have := P.eq_of_startAt_eq hm hn e
      have := hsides d hd
      omega
  · refine (hsites.pairwise_iff Site.Apart.symm).2
      (List.pairwise_append.2 ⟨pairwise_ownSite, hpair, fun x hx y _ t ht => ?_⟩)
    rw [hbody x hx] at ht
    cases ht

/-- A definition.  What is met in one of its statements is in the body of another function. -/
theorem separates_definition {o : Options} {r : Role} {k : Kind} {items : List Tree}
    {lo m i hi : Nat} {decorators header body : List Cell} (hm : StartsAt tokens m) (hmi : m < i)
    (hds : Spread tokens lo m decorators) (hhs : Spread tokens m i header)
    (hblock : Block tokens i hi body)
    (hother : ((decorators ++ header).map Cell.tree).Perm (items.filter (·.role ≠ .body)))
    (hbody : body.map Cell.tree = items.filter (·.role = .body))
    (hl : ∀ c ∈ body, Laid tokens c)
    (ih : ∀ d ∈ decorators ++ header ++ body, Separates o s tokens d) :
    Separates o s tokens ⟨.node r k (some (spanBetween tokens m hi)) items, lo, hi⟩ := by
  intro above units
  have hs := (hds.append hhs).append hblock.spread
  have hperm := perm_items hother hbody
  have hlo := hds.le
  have hin := hblock.spread.le
  have hsites := sites_perm o s above units r k (some (spanBetween tokens m hi)) items
  obtain ⟨hbegins, hpair⟩ := P.pairwise_items hperm hs ih
    (.node r k (some (spanBetween tokens m hi)) items :: above) (itemUnits _ units _)
  -- Where the statements of the body itself begin.
  have hstatement : ∀ x ∈ ownSite o s above units (.node r k (some (spanBetween tokens m hi)) items),
      ∀ t ∈ x.body, ∃ c ∈ body, ∃ n, c.lo ≤ n ∧ n < c.hi ∧
        StartsAt tokens n ∧ t.start = startAt tokens n ∧ c.tree = t := by
    intro x hx t ht
    obtain ⟨rfl, -⟩ := mem_ownSite.1 hx
    rw [Site.body] at ht
    split at ht
    · rw [Tree.field, Tree.items, ← hbody] at ht
      obtain ⟨c, hc, rfl⟩ := List.mem_map.1 ht
      obtain ⟨n, q, hends⟩ := P.exists_ends (hl c hc) (hblock.placed c hc)
      refine ⟨c, hc, n, hends.adorned.le, hends.le.trans_lt hends.lt, hends.first, ?_, rfl⟩
      rw [start_eq hends, P.startAt_eq hends.first]
    · cases ht
  have hsides : ∀ d ∈ decorators ++ header ++ body, d.hi ≤ m ∨ m ≤ d.lo := by
    intro d hd
    rcases List.mem_append.1 hd with hd | hd
    · rcases List.mem_append.1 hd with hd | hd
      · exact Or.inl (hds.bounds d hd).2.2
      · exact Or.inr (hhs.bounds d hd).1
    · have := (hblock.spread.bounds d hd).1
      exact Or.inr (by omega)
  constructor
  · intro x hx t ht
    rcases List.mem_append.1 (hsites.mem_iff.1 hx) with hx | hx
    · obtain ⟨c, hc, n, hcn, hnc, hn, hstart, -⟩ := hstatement x hx t ht
      have hbounds := hblock.spread.bounds c hc
      refine ⟨n, by simp only; omega, by simp only; omega, hn, hstart, ?_⟩
      rintro _ ⟨rfl⟩ e
      have := P.eq_of_startAt_eq hm hn e
      omega
    · obtain ⟨d, hd, hx⟩ := hbegins x hx
      obtain ⟨n, hdn, hnd, hn, htn, -⟩ := hx t ht
      have hbounds := hs.bounds d hd
      refine ⟨n, by simp only; omega, by simp only; omega, hn, htn, ?_⟩
      rintro _ ⟨rfl⟩ e
      have := P.eq_of_startAt_eq hm hn e
      have := hsides d hd
      omega
  · refine (hsites.pairwise_iff Site.Apart.symm).2
      (List.pairwise_append.2 ⟨pairwise_ownSite, hpair, ?_⟩)
    · intro x hx y hy t ht u hu e
      obtain ⟨c, hc, n, hcn, hnc, hn, hstart, rfl⟩ := hstatement x hx t ht
      obtain ⟨d, hd, hy⟩ := hbegins y hy
      obtain ⟨n', hdn, hnd, hn', hstart', hne⟩ := hy u hu
      rw [hstart, hstart'] at e
      obtain rfl := P.eq_of_startAt_eq hn hn' e
      rcases hs.eq_or_apart (List.mem_append_right _ hc) hd with rfl | h | h
      · obtain ⟨place, hplace⟩ := Option.isSome_iff_exists.1 (hblock.placed c hc)
        refine hne place hplace ?_
        rw [← hstart, Tree.start, hplace]
        rfl
      · omega
      · omega

/-- The functions that are met in a tree have their statements to themselves. -/
theorem separates (o : Options) {c : Cell} (h : Laid tokens c) : Separates o s tokens c := by
  induction h with
  | leaf _ => exact separates_of_no_definition trivial
  | literal hk _ _ hitems =>
    refine separates_of_no_definition (Tree.every_node_iff.2 ⟨?_, fun t ht => ?_⟩)
    · rcases hk with ⟨rfl, -⟩ | rfl <;> rfl
    · exact (hitems t ht).2.imp fun k s h => h.1.1
  | @node r kind items lo m hi cells hdef _ _ _ _ _ hplaced _ hperm hs hsides _ ih =>
    refine P.separates_node hdef (m := m) (fun place hplace => ?_) hperm le_rfl hs hsides ih
    split at hplace
    · rename_i hp
      obtain rfl := Option.some.inj hplace
      exact ⟨(hplaced hp).2, rfl⟩
    · cases hplace
  | @lambda r lo hi parameters body hlt _ hplain hs _ _ _ _ _ _ ihp ihb =>
    obtain ⟨l, hl, hlplain⟩ := hplain lo le_rfl hlt
    refine P.separates_node (m := lo) rfl (fun place hplace => ?_)
      (.refl _) (Nat.le_succ lo) hs (fun c hc => ?_) fun d hd => ?_
    · obtain rfl := Option.some.inj hplace
      exact ⟨⟨l, hl, (Lexeme.isPlain_iff.1 hlplain).1⟩, rfl⟩
    · have := (hs.bounds c hc).1
      exact Or.inr (by omega)
    · rcases List.mem_pair.1 hd with rfl | rfl
      · exact ihp
      · exact ihb
  | definition _ _ hmb hm hds hhs hblock hother hbody _ _ hl ihd ihh ihb =>
    refine P.separates_definition hm.startsAt hmb hds hhs hblock hother hbody hl fun d hd => ?_
    rcases List.mem_append.1 hd with hd | hd
    · rcases List.mem_append.1 hd with hd | hd
      · exact ihd d hd
      · exact ihh d hd
    · exact ihb d hd

/-- No statement is in the bodies of two functions that a pass meets. -/
theorem pairwise_apart (o : Options) : (sites o s [] [] s.tree).Pairwise Site.Apart :=
  (P.separates o P.laid [] []).2

end Parsed

end CallTrace
