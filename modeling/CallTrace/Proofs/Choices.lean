import Mathlib
import CallTrace.Proofs.Depths

/-!
# What the options change

Options have no part in which definitions are rewritten, in where their edits are made or in how a body is
shifted.  So two passes over one source record the same edits for definitions, except for the trace lines
that are quoted in them (`wrapDefinition_agrees`); and where they trace the same lambdas, the same edits
for all functions.

No definition stands in a lambda, so a lambda that is traced adds no level to any definition: the
definitions that two passes meet are the same, with the same units around them (`meetAlike`).
-/

namespace CallTrace

open Syntax Instrument Text

/-! ## Texts but for their trace lines -/

/-- The texts differ at most in the literals that they pass to the functions that write trace lines. -/
inductive Text.Agrees : List Char → List Char → Prop
  | same (text : List Char) : Agrees text text
  | emit (line line' : List Char) :
      Agrees (".emit(".toList ++ quote line ++ [')']) (".emit(".toList ++ quote line' ++ [')'])
  | emitThrough (line line' : List Char) :
      Agrees (".emit_through(".toList ++ quote line ++ [',']) (".emit_through(".toList ++ quote line' ++ [','])
  | append {front front' back back' : List Char} : Agrees front front' → Agrees back back' →
      Agrees (front ++ back) (front' ++ back')

theorem Text.Agrees.after {back back' : List Char} (h : Agrees back back') (front : List Char) :
    Agrees (front ++ back) (front ++ back') :=
  (Agrees.same front).append h

theorem Text.Agrees.before {front front' : List Char} (h : Agrees front front') (back : List Char) :
    Agrees (front ++ back) (front' ++ back) :=
  h.append (.same back)

/-- The edits are made at one place in one order, and differ at most in the literals that their texts pass
to the functions that write trace lines. -/
structure Edit.Agrees (e f : Edit) : Prop where
  start : e.start = f.start
  stop : e.stop = f.stop
  order : e.order = f.order
  text : Text.Agrees e.text f.text

theorem Edit.agrees_self (e : Edit) : e.Agrees e :=
  ⟨rfl, rfl, rfl, .same _⟩

namespace Instrument

variable {o o' : Options} {s : Source}

theorem agrees_emission (line line' : List Char) : Text.Agrees (emission line) (emission line') := by
  have h := (Text.Agrees.same runtime).append (.emit line line')
  rwa [← List.append_assoc, ← List.append_assoc, ← List.append_assoc, ← List.append_assoc] at h

theorem agrees_insertion {text text' : List Char} (h : Text.Agrees text text') (offset : Nat)
    (order : List Int) : (insertion offset text order).Agrees (insertion offset text' order) :=
  ⟨rfl, rfl, rfl, h⟩

theorem agrees_all (edits : List Edit) : List.Forall₂ Edit.Agrees edits edits :=
  List.forall₂_same.2 fun e _ => e.agrees_self

/-- Neither options nor depths have a part in where the edits of a definition are made, nor in how its body
is shifted. -/
theorem wrapDefinition_agrees (o o' : Options) (s : Source) (units : List (List Char)) (d : Definition)
    (depth : Int) :
    List.Forall₂ Edit.Agrees (wrapDefinition o s units d).edits
        (wrapDefinition o' s units { d with depth }).edits ∧
      (wrapDefinition o s units d).unit = (wrapDefinition o' s units { d with depth }).unit := by
  simp only [wrapDefinition, Definition.body]
  cases (d.node.field .body).head? with
  | none => exact ⟨.nil, rfl⟩
  | some first =>
    have hempty : Definition.isEmpty { d with depth } = d.isEmpty := rfl
    have henter : Text.Agrees (emission (o.entering d.name d.depth)) (emission (o'.entering d.name depth)) :=
      agrees_emission _ _
    have hleave : Text.Agrees (emission (o.leaving d.name d.depth)) (emission (o'.leaving d.name depth)) :=
      agrees_emission _ _
    simp only [hempty]
    split
    · refine ⟨List.rel_append (agrees_all _) ?_, rfl⟩
      split
      · exact .cons ⟨rfl, rfl, rfl, ((henter.after _).before _).append hleave⟩ .nil
      · exact .cons (agrees_insertion (((henter.after _).before _).append hleave) _ _) .nil
      · exact .nil
    · cases d.statements.head? with
      | none => exact ⟨agrees_all _, rfl⟩
      | some head =>
        cases d.statements.getLast? with
        | none => exact ⟨agrees_all _, rfl⟩
        | some last =>
          simp only
          split
          · refine ⟨List.rel_append (agrees_all _) (.cons (agrees_insertion ?opens _ _)
              (.cons (agrees_insertion ?closes _ _) .nil)), rfl⟩
            case opens => exact ((((henter.after _).before _).before _).before _).before _
            case closes => exact hleave.after _
          · refine ⟨List.rel_append (agrees_all _) (.cons (agrees_insertion ?opens _ _)
              (List.rel_append (agrees_all _) (.cons (agrees_insertion ?closes _ _) .nil))), rfl⟩
            case opens => exact ((henter.after _).before _).before _
            case closes => exact (hleave.after _).before _

theorem wrapLambda_agrees (o o' : Options) (s : Source) (units : List (List Char)) (l : BoundLambda)
    (depth : Int) :
    List.Forall₂ Edit.Agrees (wrapLambda o s units l) (wrapLambda o' s units { l with depth }) := by
  refine .cons (agrees_insertion ?_ _ _) (.cons (agrees_insertion (.same _) _ _) .nil)
  have hcomma : ", (".toList = [','] ++ " (".toList := by decide
  have hclose : "), (".toList = [')'] ++ ", (".toList := by decide
  have h := (((Text.Agrees.emitThrough (o.leaving l.name l.depth) (o'.leaving l.name depth)).after
    runtime).before (" (".toList ++ runtime)).append
    ((Text.Agrees.emit (o.entering l.name l.depth) (o'.entering l.name depth)).before ", (".toList)
  rw [hcomma, hclose]
  simpa only [List.append_assoc] using h

/-! ## The functions that two passes meet -/

/-- The function is a definition. -/
def Site.isDefinition (x : Site) : Bool :=
  x.tree.kind?.any Kind.isDefinition

/-- Two passes meet the same functions among those that `p` tells. -/
def MeetAlike (o o' : Options) (s : Source) (p : Site → Bool) (t : Tree) : Prop :=
  ∀ above units, (sites o s above units t).filter p = (sites o' s above units t).filter p

variable {p : Site → Bool}

theorem sitesIn_filter {ts : List Tree} (h : ∀ t ∈ ts, MeetAlike o o' s p t) (above : List Tree)
    (units : List (List Char)) (part : Part) :
    (sitesIn o s above units part ts).filter p = (sitesIn o' s above units part ts).filter p := by
  induction ts with
  | nil => rfl
  | cons t ts ih =>
    rw [sitesIn, sitesIn, List.filter_append, List.filter_append,
      ih fun u hu => h u (List.mem_cons_of_mem t hu)]
    split
    · rw [h t List.mem_cons_self]
    · rfl

/-- A node that is a lambda is met by both passes or by neither, where they trace the same lambdas. -/
theorem meetAlike_node {r : Role} {k : Kind} {span : Option Span} {ts : List Tree}
    (h : ∀ t ∈ ts, MeetAlike o o' s p t) (hk : k = .lambda → o.traceLambdas = o'.traceLambdas) :
    MeetAlike o o' s p (.node r k span ts) := by
  intro above units
  have hin := sitesIn_filter h (.node r k span ts :: above)
  rw [sites, sites]
  cases hc : Function.classify s above (.node r k span ts) 0 with
  | definition d =>
    have hunit := (wrapDefinition_agrees o o' s units d d.depth).2
    simp only [List.filter_append, List.filter_cons, hin, hunit]
  | lambda l =>
    obtain ⟨⟨_, _, _, htree⟩, -⟩ := Function.eq_of_classify_lambda hc
    obtain ⟨-, rfl, -⟩ := Tree.node.inj htree
    simp only [hk rfl]
    split
    · simp only [List.filter_append, List.filter_cons, hin]
    · exact hin units .all
  | unmatched => exact hin units .all

/-- No definition is met in a tree that holds none. -/
theorem filter_sites_of_isSimple (hp : ∀ x, p x = true → x.isDefinition = true) {t : Tree}
    (ht : t.IsSimple) (above : List Tree) (units : List (List Char)) :
    (sites o s above units t).filter p = [] := by
  rw [List.filter_eq_nil_iff]
  intro x hx hpx
  obtain ⟨hu, -⟩ := (mem_sites o s t above units x.above x.tree).1 ⟨_, hx⟩
  obtain ⟨r, k, span, ts, htree⟩ := Under.exists_node hu
  have hevery := Under.every hu ht
  have hdef := hp x hpx
  rw [htree, Tree.every_node_iff] at hevery
  rw [Site.isDefinition, htree] at hdef
  rw [Tree.kind?, Option.any_some, hevery.1.1] at hdef
  cases hdef

/-- The definitions that are met in a lambda are those in its parameters. -/
theorem filter_sites_lambda (hp : ∀ x, p x = true → x.isDefinition = true) {r : Role} {span : Option Span}
    {parameters body : Tree} (hparameters : parameters.role = .arguments) (hbody : body.role = .body)
    (hsimple : body.IsSimple) (above : List Tree) (units : List (List Char)) :
    (sites o s above units (.node r .lambda span [parameters, body])).filter p =
      (sites o s (.node r .lambda span [parameters, body] :: above) units parameters).filter p := by
  have hnone := filter_sites_of_isSimple (o := o) (s := s) hp hsimple
  have hown : p ⟨above, .node r .lambda span [parameters, body], units⟩ = false := by
    rw [Bool.eq_false_iff]
    intro h
    cases hp _ h
  have hall : (sitesIn o s (.node r .lambda span [parameters, body] :: above) units .all
      [parameters, body]).filter p =
        (sites o s (.node r .lambda span [parameters, body] :: above) units parameters).filter p := by
    simp [sitesIn, Part.holds, hnone]
  rw [sites]
  cases hc : Function.classify s above (.node r .lambda span [parameters, body]) 0 with
  | definition d =>
    obtain ⟨⟨_, k, _, _, htree, hk⟩, -⟩ := Function.eq_of_classify_definition hc
    obtain ⟨-, rfl, -⟩ := Tree.node.inj htree
    cases hk
  | lambda l =>
    simp only
    split
    · simp [sitesIn, Part.holds, hparameters, hbody, hnone, hown]
    · exact hall
  | unmatched => exact hall

/-- Two passes meet the same functions, if they trace the same lambdas or lambdas do not count. -/
theorem meetAlike {tokens : Array Token} {c : Cell} (h : Laid tokens c)
    (hp : o.traceLambdas = o'.traceLambdas ∨ ∀ x, p x = true → x.isDefinition = true) :
    MeetAlike o o' s p c.tree := by
  induction h with
  | leaf _ =>
    intro above units
    rw [sites, sites]
  | @literal r kind items lo hi hk _ _ hitems =>
    intro above units
    have hnone := fun t ht => (hitems t ht).2.imp fun _ _ h => h.1.1
    rw [sites_eq_nil hk hnone, sites_eq_nil hk hnone]
  | @node r kind items lo m hi cells _ hlambda _ _ _ _ _ _ hperm _ _ _ ih =>
    refine meetAlike_node (fun t ht => ?_) fun h => absurd h hlambda
    obtain ⟨c, hc, rfl⟩ := List.mem_map.1 (hperm.mem_iff.2 ht)
    exact ih c hc
  | @lambda r lo hi parameters body _ _ _ _ hparameters hbody _ hsimple _ _ ihp ihb =>
    -- Where only one pass traces lambdas its units differ in the body, but no definition is in there.
    rcases hp with hp | hp
    · exact meetAlike_node (List.forall_mem_cons.2 ⟨ihp, by simpa using ihb⟩) fun _ => hp
    · intro above units
      rw [filter_sites_lambda hp hparameters hbody hsimple, filter_sites_lambda hp hparameters hbody hsimple]
      exact ihp _ _
  | @definition r kind items lo m b hi decorators header body hk _ _ _ _ _ _ hother hbody _ _ _ ihd ihh
      ihb =>
    refine meetAlike_node (fun t ht => ?_) fun h => ?_
    · obtain ⟨c, hc, rfl⟩ := List.mem_map.1 ((perm_items hother hbody).mem_iff.2 ht)
      rcases List.mem_append.1 hc with hc | hc
      · exact List.forall_mem_append.2 ⟨ihd, ihh⟩ c hc
      · exact ihb c hc
    · rw [h] at hk
      cases hk

/-! ## The edits that two passes record -/

/-- The edits that a pass records for definitions, in the order in which it records them. -/
def definitionEdits (o : Options) (s : Source) : List Edit :=
  editsOf o s ((walkThrough o s).met.filter fun m => m.1.isDefinition)

/-- The edits of one function agree, whatever its depth. -/
theorem Site.edits_agrees (o o' : Options) (s : Source) (x : Site) (depth depth' : Int) :
    List.Forall₂ Edit.Agrees (x.edits o s depth) (x.edits o' s depth') := by
  rw [Site.edits, Site.edits, Function.classify_atDepth s x.above x.tree depth,
    Function.classify_atDepth s x.above x.tree depth']
  cases Function.classify s x.above x.tree 0 with
  | definition d => exact (wrapDefinition_agrees o o' s x.units { d with depth } depth').1
  | lambda l => exact wrapLambda_agrees o o' s x.units { l with depth } depth'
  | unmatched => exact .nil

theorem editsOf_agrees {met met' : List (Site × Int)} (h : met.map Prod.fst = met'.map Prod.fst) :
    List.Forall₂ Edit.Agrees (editsOf o s met) (editsOf o' s met') := by
  induction met generalizing met' with
  | nil =>
    obtain rfl := List.map_eq_nil_iff.1 h.symm
    exact .nil
  | cons m met ih =>
    cases met' with
    | nil => cases h
    | cons m' met' =>
      obtain ⟨hsite, hrest⟩ := List.cons.inj h
      rw [editsOf, editsOf, List.flatMap_cons, List.flatMap_cons, hsite]
      exact List.rel_append (m'.1.edits_agrees o o' s m.2 m'.2) (ih hrest)

/-- The functions written down with their depths, as far as `p` tells them. -/
theorem map_filter_met (p : Site → Bool) (o : Options) (s : Source) :
    ((walkThrough o s).met.filter fun m => p m.1).map Prod.fst = (sites o s [] [] s.tree).filter p := by
  rw [← (walkThrough_follows o s).2.2.1, List.filter_map]
  rfl

/-- Where depth follows the nesting, a function is written down with the number of units around it. -/
theorem met_eq (h : o.monotonicDepth = false) (s : Source) :
    (walkThrough o s).met = (sites o s [] [] s.tree).map fun x => (x, (x.units.length : Int)) := by
  have hexact : (walkThrough o s).Exact := walk_exact o s s.tree [] _ (exact_start h)
  rw [← (walkThrough_follows o s).2.2.1, List.map_map]
  refine (List.map_id _).symm.trans (List.map_congr_left fun m hm => ?_)
  exact Prod.ext rfl (hexact.met m hm)

/-- A function that a pass meets is a definition, or a lambda if lambdas are traced. -/
theorem isDefinition_or_lambda {x : Site} (hx : x ∈ sites o s [] [] s.tree) :
    x.isDefinition = true ∨ x.tree.is .lambda = true ∧ o.traceLambdas = true := by
  obtain ⟨-, htraced⟩ := (mem_sites o s s.tree [] [] x.above x.tree).1 ⟨_, hx⟩
  cases hc : Function.classify s x.above x.tree 0 with
  | definition d =>
    obtain ⟨⟨r, k, span, ts, htree, hk⟩, -⟩ := Function.eq_of_classify_definition hc
    refine Or.inl ?_
    rw [Site.isDefinition, htree]
    exact hk
  | lambda l =>
    obtain ⟨⟨r, span, ts, htree⟩, -⟩ := Function.eq_of_classify_lambda hc
    rw [hc] at htraced
    refine Or.inr ⟨?_, htraced⟩
    rw [htree]
    rfl
  | unmatched =>
    rw [hc] at htraced
    cases htraced

/-- Whether lambdas are traced has no part in the edits of one function. -/
theorem Site.edits_eq (hunit : o.indentUnit = o'.indentUnit) (s : Source) (x : Site) (depth : Int) :
    x.edits o s depth = x.edits o' s depth := by
  have henter (name : List Char) (depth : Int) : o.entering name depth = o'.entering name depth := by
    rw [Options.entering, Options.entering, Options.indentation, Options.indentation, hunit]
  have hleave (name : List Char) (depth : Int) : o.leaving name depth = o'.leaving name depth := by
    rw [Options.leaving, Options.leaving, Options.indentation, Options.indentation, hunit]
  rw [Site.edits, Site.edits]
  cases Function.classify s x.above x.tree depth with
  | definition d => simp only [shapeEdits, wrapDefinition, henter, hleave]
  | lambda l => simp only [shapeEdits, wrapLambda, henter, hleave]
  | unmatched => rfl

end Instrument

end CallTrace
