import Mathlib
import CallTrace.Tracer.Run

/-!
# What operations change

Operations nest: a function that a tracer runs may perform further operations,
and these may run functions again.  All of it comes down to six small changes of
the world, one after the other (`Change`).  A way of calling functions *keeps* to
such changes if every call leads to nothing else.  `perform_leads` carries this
from the calls to the operations and `act_leads` to what a function does, so it
passes from one depth to the next (`keeps_callWithin`) and holds at all of them.

Each change names the tracer that it touches.  A tracer under construction is not
the current one, and what its functions do meanwhile leaves it alone: this is the
case where `touched` is every tracer but that one.
-/

namespace CallTrace.Tracer

open Relation

/-- A descriptor may come into a tracer: the tracer exists, the name holds something and nothing
stands under it, and what is traced can be called. -/
structure World.Admits (w : World) (i : Nat) (d : Descriptor) : Prop where
  isMade : i < w.tracers.length
  named : d.name ≠ []
  callable : d.original.isCallable
  free : (w.tracer i).find? d.name = none

/-- Nothing may come into a tracer: the name is none, or what is traced cannot be called, or the name
is taken. -/
def World.Refuses (w : World) (i : Nat) (name : Value) (f : Reference) : Prop :=
  name.name? = none ∨ f.isCallable = false ∨
    ∃ s, name.name? = some s ∧ (w.tracer i).find? s ≠ none

/-- A descriptor without hooks of its own. -/
def Descriptor.usual (s : List Char) (f : Reference) : Descriptor := ⟨s, f, .usual, .usual⟩

/-- Puts in a descriptor that is run at once. -/
def World.create (w : World) (i : Nat) (d : Descriptor) : World :=
  (w.put i d).note (.traced i d.name)

/-- One change of the world. -/
inductive Change (touched : Nat → Prop) (w : World) : World → Prop
  | event (e : Event) : Change touched w (w.record e)
  | log (logs : List LogRecord) : Change touched w { w with logs := logs }
  | opened : Change touched w w.opened
  | switched {i : Nat} (h : touched i) (isMade : i < w.tracers.length) :
      Change touched w (w.switchTo i)
  | registered {i : Nat} {d : Descriptor} (h : touched i) (admits : w.Admits i d) :
      Change touched w (w.put i d)
  | created {i : Nat} {d : Descriptor} (h : touched i) (admits : w.Admits i d) :
      Change touched w (w.create i d)

/-- Changes one after the other. -/
abbrev Leads (touched : Nat → Prop) : World → World → Prop := ReflTransGen (Change touched)

/-- Operations go to a tracer that may be touched, and so may every tracer that is still to be
made. -/
structure World.Within (touched : Nat → Prop) (w : World) : Prop where
  isMade : w.current < w.tracers.length
  current : touched w.current
  further : ∀ i, w.tracers.length ≤ i → touched i

/-- Every call only leads to changes. -/
def Call.Keeps (touched : Nat → Prop) (call : Call) : Prop :=
  ∀ id input w, w.Within touched → Leads touched w (call id input w).2

variable {touched : Nat → Prop} {w w' : World} {i : Nat} {d : Descriptor}

/-- Tracers are made and never taken away. -/
theorem Change.length_le (h : Change touched w w') : w.tracers.length ≤ w'.tracers.length := by
  cases h with
  | event | log | switched => exact le_rfl
  | opened => rw [World.length_opened]; omega
  | registered => exact World.length_put.ge
  | created => exact World.length_put.ge

theorem Change.within (h : Change touched w w') (hw : w.Within touched) : w'.Within touched := by
  have hle := h.length_le
  refine ⟨?_, ?_, fun i hi => hw.further i (hle.trans hi)⟩
  · cases h with
    | switched _ isMade => exact isMade
    | _ => exact hw.isMade.trans_le hle
  · cases h with
    | switched h => exact h
    | _ => exact hw.current

theorem Leads.length_le (h : Leads touched w w') : w.tracers.length ≤ w'.tracers.length := by
  induction h with
  | refl => exact le_rfl
  | tail _ h ih => exact ih.trans h.length_le

theorem Leads.within (h : Leads touched w w') (hw : w.Within touched) : w'.Within touched := by
  induction h with
  | refl => exact hw
  | tail _ h ih => exact h.within ih

namespace Setting

variable {σ : Setting} {call : Call} {name : Value} {f : Reference} {before after : Option Reference}
  {a : Arguments} {s : List Char}

/-! ## What a registration does -/

theorem registerOn_of_taken {id : List Char} (hname : name.name? = some s)
    (h : (w.tracer i).find? s ≠ none) :
    σ.registerOn i name (.function id) before after w = (.ok false, w.log (takenNotice s)) := by
  obtain ⟨d, hd⟩ := Option.ne_none_iff_exists'.mp h
  simp [registerOn, Registry.accept, hname, hd]

theorem registerOn_of_refuses (before after : Option Reference) (h : w.Refuses i name f) :
    ∃ outcome logs, σ.registerOn i name f before after w = (outcome, { w with logs := logs }) ∧
      outcome ≠ .ok true := by
  cases hname : name.name? with
  | none =>
    exact ⟨.error (.invalidName name), w.logs, by simp [registerOn, Registry.accept, hname], nofun⟩
  | some s =>
    cases f with
    | plain v =>
      exact ⟨.error (.notCallable s v), w.logs, by simp [registerOn, Registry.accept, hname], nofun⟩
    | function id =>
      have taken : (w.tracer i).find? s ≠ none := by
        simpa [World.Refuses, hname, Reference.isCallable] using h
      exact ⟨_, _, registerOn_of_taken hname taken, nofun⟩

theorem registerOn_of_admits (before after : Option Reference)
    (h : w.Admits i ⟨s, f, hookOf σ.namings before, hookOf σ.namings after⟩) :
    σ.registerOn i (.text s) f before after w =
      (.ok true, w.put i ⟨s, f, hookOf σ.namings before, hookOf σ.namings after⟩) := by
  obtain ⟨-, named, callable, free⟩ := h
  have hname : (Value.text s).name? = some s := Value.name?_eq_some_iff.mpr ⟨rfl, named⟩
  cases f with
  | plain v => cases callable
  | function id =>
    have free : (w.tracer i).find? s = none := free
    simp [registerOn, Registry.accept, hname, free]

/-- Whatever the hooks are to be, something may come in under a name or not. -/
theorem refuses_or_admits (hi : i < w.tracers.length) (name : Value) (f : Reference) (b a : Hook) :
    w.Refuses i name f ∨ ∃ s, name = .text s ∧ w.Admits i ⟨s, f, b, a⟩ := by
  cases hname : name.name? with
  | none => exact .inl (.inl hname)
  | some s =>
    cases hf : f.isCallable with
    | false => exact .inl (.inr (.inl hf))
    | true =>
      obtain ⟨rfl, named⟩ := Value.name?_eq_some_iff.mp hname
      cases free : (w.tracer i).find? s with
      | none => exact .inr ⟨s, rfl, hi, named, hf, free⟩
      | some d => exact .inl (.inr (.inr ⟨s, hname, by simp [free]⟩))

/-- What stands under a name is run by its name. -/
theorem invokeOn_of_find? (h : (w.tracer i).find? s = some d) :
    σ.invokeOn call i (.text s) a w = σ.bracket call d a w := by
  simp [invokeOn, Registry.lookup, Value.isKey, h]

/-- Where nothing may come in, creating a trace does nothing but answer and log. -/
theorem createTraceOn_of_refuses (call : Call) (h : w.Refuses i name f) :
    ∃ logs, σ.createTraceOn call i name f w =
      (.ok (if name.name? = none then .text invalidNameAnswer else .nothing),
        { w with logs := logs }) := by
  cases hname : name.name? with
  | none => exact ⟨w.logs, by simp [createTraceOn, hname]⟩
  | some s =>
    cases f with
    | plain v => exact ⟨_, by simp only [createTraceOn, hname, Reference.isCallable]; rfl⟩
    | function id =>
      have taken : (w.tracer i).find? s ≠ none := by
        simpa [World.Refuses, hname, Reference.isCallable] using h
      refine ⟨w.logs ++ [takenNotice s], ?_⟩
      simp [createTraceOn, hname, Reference.isCallable, registerOn_of_taken hname taken, World.log]

theorem find?_create (hi : i < w.tracers.length) :
    ((w.create i d).tracer i).find? d.name = some d := by
  rw [World.create, World.tracer_note, World.tracer_put hi, if_pos rfl, Registry.find?_insert,
    if_pos rfl]

/-- Otherwise the descriptor comes in first, and then it is run. -/
theorem createTraceOn_of_admits (h : w.Admits i (.usual s f)) :
    σ.createTraceOn call i (.text s) f w =
      ((σ.bracket call (.usual s f) ⟨[], []⟩ (w.create i (.usual s f))).1.map fun _ => .nothing,
        (σ.bracket call (.usual s f) ⟨[], []⟩ (w.create i (.usual s f))).2) := by
  have hname : (Value.text s).name? = some s := Value.name?_eq_some_iff.mpr ⟨rfl, h.named⟩
  have stands := find?_create (w := w) (d := .usual s f) h.isMade
  have hreg : σ.registerOn i (.text s) f none none w = (.ok true, w.put i (.usual s f)) :=
    registerOn_of_admits none none h
  have hrun : σ.invokeOn call i (.text s) ⟨[], []⟩ (w.create i (.usual s f)) =
      σ.bracket call (.usual s f) ⟨[], []⟩ (w.create i (.usual s f)) := invokeOn_of_find? stands
  have hf : f.isCallable = true := h.callable
  rw [← hrun]
  simp [createTraceOn, hname, hf, hreg, World.create, Descriptor.usual]

/-! ## What operations lead to -/

section Leads

variable (hcall : call.Keeps touched)
include hcall

theorem callReference_leads (hw : w.Within touched) (input : Input) :
    Leads touched w (callReference call input w f).2 := by
  cases f with
  | function id => exact hcall id input w hw
  | plain v => exact .refl

theorem runHook_leads (hw : w.Within touched) (usualLine : List Char) (h : Hook) :
    Leads touched w (σ.runHook call usualLine d w h).2 := by
  cases h with
  | usual => exact .single (.event _)
  | given r => exact callReference_leads hcall hw _

theorem bracket_leads (hw : w.Within touched) : Leads touched w (σ.bracket call d a w).2 := by
  -- A hook before that fails ends it.  The hook after runs in any case, and only its own failure
  -- makes a difference to the outcome, not to the world.
  have first := runHook_leads (σ := σ) (d := d) hcall hw beforeLine d.before
  rcases h₁ : σ.runHook call beforeLine d w d.before with ⟨_ | _, w₁⟩
  · simpa [bracket, h₁] using first
  · rw [h₁] at first
    have hw₁ := first.within hw
    have second := callReference_leads (f := d.original) hcall hw₁ (.arguments a)
    rcases h₂ : callReference call (.arguments a) w₁ d.original with ⟨outcome, w₂⟩
    rw [h₂] at second
    have third := runHook_leads (σ := σ) (d := d) hcall (second.within hw₁) afterLine d.after
    rcases h₃ : σ.runHook call afterLine d w₂ d.after with ⟨_ | _, w₃⟩ <;>
    · rw [h₃] at third
      simpa [bracket, h₁, h₂, h₃] using first.trans (second.trans third)

omit hcall in
theorem registerOn_leads (ht : touched i) (hi : i < w.tracers.length) :
    Leads touched w (σ.registerOn i name f before after w).2 := by
  rcases refuses_or_admits hi name f (hookOf σ.namings before) (hookOf σ.namings after) with
    refuses | ⟨s, rfl, admits⟩
  · obtain ⟨outcome, logs, h, -⟩ := registerOn_of_refuses (σ := σ) before after refuses
    rw [h]
    exact .single (.log logs)
  · rw [registerOn_of_admits before after admits]
    exact .single (.registered ht admits)

theorem invokeOn_leads (hw : w.Within touched) : Leads touched w (σ.invokeOn call i name a w).2 := by
  unfold invokeOn
  split
  · exact .refl
  · exact .refl
  · exact bracket_leads hcall hw

theorem createTraceOn_leads (hw : w.Within touched) (ht : touched i) (hi : i < w.tracers.length)
    (name : Value) (f : Reference) : Leads touched w (σ.createTraceOn call i name f w).2 := by
  rcases refuses_or_admits hi name f .usual .usual with refuses | ⟨s, rfl, admits⟩
  · obtain ⟨logs, h⟩ := createTraceOn_of_refuses (σ := σ) call refuses
    rw [h]
    exact .single (.log logs)
  · rw [createTraceOn_of_admits admits]
    have put : Change touched w (w.create i (.usual s f)) := .created ht admits
    exact .head put (bracket_leads hcall (put.within hw))

theorem constructOn_leads (fs : List Reference) (hw : w.Within touched) (ht : touched i)
    (hi : i < w.tracers.length) : Leads touched w (σ.constructOn call i fs w).2 := by
  induction fs generalizing w with
  | nil => exact .refl
  | cons f rest ih =>
    have first := createTraceOn_leads (σ := σ) hcall hw ht hi (.text (f.traceName σ.namings)) f
    rw [constructOn]
    rcases h : σ.createTraceOn call i (.text (f.traceName σ.namings)) f w with ⟨_ | _, w₁⟩ <;>
      rw [h] at first
    · exact first
    · exact first.trans (ih (first.within hw) (hi.trans_le first.length_le))

/-- Operations lead to nothing but changes. -/
theorem perform_leads (hw : w.Within touched) (s : Step) :
    Leads touched w (σ.perform call w s).2 := by
  cases s with
  | construct fs =>
    -- The new tracer is the next one to be made, so it may be touched.
    have made : Change touched w w.opened := .opened
    have ht := hw.further _ le_rfl
    have hi : w.tracers.length < w.opened.tracers.length := by simp
    have run := constructOn_leads (σ := σ) hcall fs (made.within hw) ht hi
    rw [perform]
    rcases h : σ.constructOn call w.tracers.length fs w.opened with ⟨_ | _, w₁⟩ <;> rw [h] at run
    · exact .head made run
    · exact (ReflTransGen.head made run).tail (.switched ht (hi.trans_le run.length_le))
  | createTrace name f => exact createTraceOn_leads hcall hw hw.current hw.isMade name f
  | register name f before after => exact registerOn_leads hw.current hw.isMade
  | invoke name a => exact invokeOn_leads hcall hw
  | contains | size => exact .refl
  | descriptor name =>
    rw [perform]
    split <;> exact .refl

/-- So does what a function does. -/
theorem act_leads (hw : w.Within touched) (p : Program) : Leads touched w (σ.act call p w).2 := by
  induction p generalizing w with
  | finish outcome => exact .refl
  | emit line next ih =>
    have emitted : Change touched w (σ.emit line w).2 := .event _
    exact .head emitted (ih _ _ (emitted.within hw))
  | perform s next ih =>
    have performed := perform_leads (σ := σ) hcall hw s
    have ended : Change touched (σ.perform call w s).2 _ := .event (.step (σ.perform call w s).1)
    exact (performed.tail ended).trans (ih _ _ (ended.within (performed.within hw)))

end Leads

/-- At every depth, calls lead to nothing but changes. -/
theorem keeps_callWithin (depth : Nat) : (σ.callWithin depth).Keeps touched := by
  induction depth with
  | zero => exact fun _ _ _ _ => .refl
  | succ depth ih =>
    intro id input w hw
    have called : Change touched w (w.record (.call id input)) := .event _
    exact .head called (act_leads ih (called.within hw) _)

end Setting

end CallTrace.Tracer
