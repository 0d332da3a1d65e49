import CallTrace.Proofs.Changes

/-!
# The first registration stays

The history records every descriptor that came into a tracer.  `World.Sound` says
that a tracer holds these descriptors and nothing else, in that order, each under
its own name; `World.Keeps` says that from one moment to a later one names and
descriptors stay where they are.  A single change does both (`Change.sound`,
`Change.keeps`), so every operation does, however deeply it nests and whether it
fails or not (`registrations_stay`).
-/

namespace CallTrace.Tracer

open Relation

/-- The descriptor that an entry of the history brings into a tracer. -/
def Deed.registration? (i : Nat) : Deed → Option Descriptor
  | .registered j d => if j = i then some d else none
  | _ => none

/-- The descriptors that came into a tracer, the first one first. -/
def registrations (i : Nat) (history : List Deed) : List Descriptor :=
  history.filterMap (Deed.registration? i)

/-- The tracers are what the history says. -/
structure World.Sound (w : World) : Prop where
  isMade : w.current < w.tracers.length
  /-- Each descriptor stands under its own name, which holds something, and can be called. -/
  keyed : ∀ i key d, (key, d) ∈ (w.tracer i).entries →
    key ≠ [] ∧ key = d.name ∧ d.original.isCallable
  nodup : ∀ i, (w.tracer i).names.Nodup
  /-- A tracer holds what was registered on it, in that order. -/
  ordered : ∀ i, (w.tracer i).entries.map (·.2) = registrations i w.history

/-- What was there stays as it was. -/
structure World.Keeps (w w' : World) : Prop where
  history : w.history <+: w'.history
  names : ∀ i, (w.tracer i).names <+: (w'.tracer i).names
  find? : ∀ i name d, (w.tracer i).find? name = some d → (w'.tracer i).find? name = some d

variable {touched : Nat → Prop} {w w' w'' : World} {i : Nat} {d : Descriptor}

theorem World.Keeps.refl (w : World) : w.Keeps w :=
  ⟨List.prefix_rfl, fun _ => List.prefix_rfl, fun _ _ _ => id⟩

theorem World.Keeps.trans (h : w.Keeps w') (h' : w'.Keeps w'') : w.Keeps w'' where
  history := h.history.trans h'.history
  names i := (h.names i).trans (h'.names i)
  find? i name d hd := h'.find? i name d (h.find? i name d hd)

theorem registrations_append (i : Nat) (h h' : List Deed) :
    registrations i (h ++ h') = registrations i h ++ registrations i h' :=
  List.filterMap_append

theorem Registry.names_insert {r : Registry} (h : r.find? d.name = none) :
    (r.insert d.name d).names = r.names ++ [d.name] := by
  simp [names, entries_insert h]

/-- Nothing is found under a name that is none of the names. -/
theorem Registry.find?_eq_none_iff {r : Registry} {name : List Char} :
    r.find? name = none ↔ name ∉ r.names := by
  simp [find?, names, List.lookup_eq_none_iff]
  grind

/-- What is refused under a text: the text is empty, or what is traced cannot be called, or the name
is taken. -/
theorem World.refuses_text_iff {s : List Char} {f : Reference} :
    w.Refuses i (.text s) f ↔ f.isCallable = false ∨ s = [] ∨ s ∈ (w.tracer i).names := by
  have name : (Value.text s).name? = if s = [] then none else some s := by
    cases s <;> rfl
  rw [World.Refuses, name]
  by_cases hs : s = []
  · simp [hs]
  · simp [hs, Registry.find?_eq_none_iff]

/-! ## One change -/

theorem World.Sound.put (hw : w.Sound) (admits : w.Admits i d) : (w.put i d).Sound := by
  have tracer (j : Nat) := tracer_put (w := w) (d := d) (j := j) admits.isMade
  refine ⟨?_, fun j key e he => ?_, fun j => ?_, fun j => ?_⟩
  · rw [length_put]
    exact hw.isMade
  · rw [tracer] at he
    split at he
    · rw [Registry.entries_insert admits.free, List.mem_append, List.mem_singleton] at he
      obtain he | ⟨rfl, rfl⟩ := he
      · exact hw.keyed i key e he
      · exact ⟨admits.named, rfl, admits.callable⟩
    · exact hw.keyed j key e he
  · rw [tracer]
    split
    · rw [Registry.names_insert admits.free]
      have free := Registry.find?_eq_none_iff.mp admits.free
      exact (hw.nodup i).append (List.nodup_singleton _) (by simpa using free)
    · exact hw.nodup j
  · rw [tracer]
    rw [history_put, registrations_append]
    split
    · subst j
      simp [Registry.entries_insert admits.free, hw.ordered, registrations, Deed.registration?]
    · have hij : i ≠ j := by omega
      simp [hw.ordered, registrations, Deed.registration?, hij]

theorem World.Sound.note (hw : w.Sound) {deed : Deed} (h : ∀ i, deed.registration? i = none) :
    (w.note deed).Sound where
  isMade := hw.isMade
  keyed := hw.keyed
  nodup := hw.nodup
  ordered i := by
    rw [history_note, registrations_append]
    simpa [registrations, h i] using hw.ordered i

theorem Change.sound (h : Change touched w w') (hw : w.Sound) : w'.Sound := by
  cases h with
  | event e => exact hw.note fun _ => rfl
  | log l => exact ⟨hw.isMade, hw.keyed, hw.nodup, hw.ordered⟩
  | opened =>
    refine ⟨?_, ?_, ?_, ?_⟩
    · rw [World.length_opened]
      exact hw.isMade.trans (Nat.lt_succ_self _)
    · simpa only [World.tracer_opened] using hw.keyed
    · simpa only [World.tracer_opened] using hw.nodup
    · simpa only [World.tracer_opened, World.history_opened] using hw.ordered
  | switched _ isMade => exact ⟨isMade, hw.keyed, hw.nodup, hw.ordered⟩
  | registered _ admits => exact hw.put admits
  | created _ admits => exact (hw.put admits).note fun _ => rfl

theorem World.keeps_put (admits : w.Admits i d) : w.Keeps (w.put i d) := by
  have tracer (j : Nat) := tracer_put (w := w) (d := d) (j := j) admits.isMade
  refine ⟨List.prefix_append _ _, fun j => ?_, fun j name e he => ?_⟩
  · rw [tracer]
    split
    · subst j
      rw [Registry.names_insert admits.free]
      exact List.prefix_append _ _
    · exact List.prefix_rfl
  · rw [tracer]
    split
    · subst j
      -- The descriptor came in under a name that was free, so this is another one.
      have other : name ≠ d.name := by
        rintro rfl
        rw [admits.free] at he
        cases he
      rw [Registry.find?_insert, if_neg other, he]
    · exact he

theorem World.keeps_note (w : World) (deed : Deed) : w.Keeps (w.note deed) :=
  ⟨List.prefix_append _ _, fun _ => List.prefix_rfl, fun _ _ _ => id⟩

theorem Change.keeps (h : Change touched w w') : w.Keeps w' := by
  cases h with
  | event e => exact w.keeps_note _
  | log | switched => exact ⟨List.prefix_rfl, fun _ => List.prefix_rfl, fun _ _ _ => id⟩
  | opened =>
    refine ⟨List.prefix_rfl, fun _ => ?_, fun _ _ _ h => ?_⟩
    · rw [World.tracer_opened]
    · rwa [World.tracer_opened]
  | registered _ admits => exact World.keeps_put admits
  | created _ admits => exact (World.keeps_put admits).trans (World.keeps_note _ _)

/-! ## Every operation -/

theorem Leads.sound (h : Leads touched w w') (hw : w.Sound) : w'.Sound := by
  induction h with
  | refl => exact hw
  | tail _ h ih => exact h.sound ih

theorem Leads.keeps (h : Leads touched w w') : w.Keeps w' := by
  induction h with
  | refl => exact .refl w
  | tail _ h ih => exact ih.trans h.keeps

theorem World.sound_start : World.start.Sound := by
  have tracer (i : Nat) : World.start.tracer i = .empty := by cases i <;> rfl
  refine ⟨Nat.one_pos, fun i key d h => ?_, fun i => ?_, fun i => ?_⟩
  · rw [tracer] at h
    cases h
  · rw [tracer]
    exact List.nodup_nil
  · rw [tracer]
    rfl

theorem World.Sound.fresh (hw : w.Sound) : w.fresh.Sound :=
  ⟨hw.isMade, hw.keyed, hw.nodup, hw.ordered⟩

theorem World.keeps_fresh (w : World) : w.Keeps w.fresh :=
  ⟨List.prefix_rfl, fun _ => List.prefix_rfl, fun _ _ _ => id⟩

/-- In a sound world nothing is barred from being touched. -/
theorem World.Sound.within (hw : w.Sound) : w.Within fun _ => True :=
  ⟨hw.isMade, trivial, fun _ _ => trivial⟩

namespace Setting

variable {σ : Setting}

theorem runAll_append (depth : Nat) (steps later : List Step) :
    σ.runAll depth (steps ++ later) w = σ.runAll depth later (σ.runAll depth steps w) := by
  induction steps generalizing w with
  | nil => rfl
  | cons s rest ih => exact ih

theorem runAll_sound (hw : w.Sound) (depth : Nat) (steps : List Step) :
    (σ.runAll depth steps w).Sound ∧ w.Keeps (σ.runAll depth steps w) := by
  induction steps generalizing w with
  | nil => exact ⟨hw, .refl w⟩
  | cons s rest ih =>
    have keeps : (σ.callWithin depth).Keeps fun _ => True := keeps_callWithin depth
    have first := perform_leads (σ := σ) keeps hw.fresh.within s
    have later := ih (first.sound hw.fresh)
    exact ⟨later.1, (w.keeps_fresh.trans first.keeps).trans later.2⟩

end Setting

/-- **The first registration of a name stays.**  In every run, whatever the functions and hooks do
meanwhile, each tracer holds the registrations on it in their order, each under its own name, and
none of them is changed or removed later on.  Within a run, every operation and every call passes
through changes that keep to this one by one.  A registration that is refused changes nothing, and
creating a trace then runs nothing either; one that is not refused comes in at the end. -/
theorem registrations_stay (σ : Setting) (depth : Nat) :
    (∀ steps later : List Step, (σ.runAll depth (steps ++ later) .start).Sound ∧
      (σ.runAll depth steps .start).Keeps (σ.runAll depth (steps ++ later) .start)) ∧
    ∀ w : World, w.Sound →
      (∀ s, Leads (fun _ => True) w (σ.perform (σ.callWithin depth) w s).2) ∧
      (∀ id input, Leads (fun _ => True) w (σ.callWithin depth id input w).2) ∧
      (∀ w', Leads (fun _ => True) w w' → w'.Sound ∧ w.Keeps w') ∧
      ∀ i < w.tracers.length, ∀ name f before after,
        let registered := σ.registerOn i name f before after w
        let created := σ.createTraceOn (σ.callWithin depth) i name f w
        (w.Refuses i name f →
          registered.1 ≠ .ok true ∧
          registered.2.tracers = w.tracers ∧ registered.2.history = w.history ∧
          created.1 = .ok (if name.name? = none then .text invalidNameAnswer else .nothing) ∧
          created.2.tracers = w.tracers ∧ created.2.history = w.history) ∧
        (¬ w.Refuses i name f →
          ∃ s, name = .text s ∧ registered.1 = .ok true ∧
            (registered.2.tracer i).entries = (w.tracer i).entries ++
              [(s, ⟨s, f, hookOf σ.namings before, hookOf σ.namings after⟩)] ∧
            (created.2.tracer i).find? s = some (.usual s f)) := by
  have keeps : (σ.callWithin depth).Keeps fun _ => True := Setting.keeps_callWithin depth
  refine ⟨fun steps later => ?_, fun w hw => ⟨Setting.perform_leads keeps hw.within,
    fun id input => keeps id input w hw.within, fun w' h => ⟨h.sound hw, h.keeps⟩,
    fun i hi name f before after => ⟨fun refuses => ?_, fun free => ?_⟩⟩⟩
  · have first : (σ.runAll depth steps .start).Sound :=
      (Setting.runAll_sound World.sound_start depth steps).1
    rw [Setting.runAll_append]
    exact Setting.runAll_sound first depth later
  · obtain ⟨outcome, logs, hreg, notTrue⟩ :=
      Setting.registerOn_of_refuses (σ := σ) before after refuses
    obtain ⟨logs', hcreate⟩ := Setting.createTraceOn_of_refuses (σ := σ) (σ.callWithin depth) refuses
    rw [hreg, hcreate]
    exact ⟨notTrue, rfl, rfl, rfl, rfl, rfl⟩
  · obtain ⟨s, rfl, admits⟩ := (Setting.refuses_or_admits hi name f (hookOf σ.namings before)
      (hookOf σ.namings after)).resolve_left free
    have admits' : w.Admits i (.usual s f) := ⟨hi, admits.named, admits.callable, admits.free⟩
    refine ⟨s, rfl, ?_⟩
    rw [Setting.registerOn_of_admits before after admits, World.tracer_put hi, if_pos rfl,
      Registry.entries_insert admits.free, Setting.createTraceOn_of_admits admits']
    refine ⟨rfl, rfl, ?_⟩
    have put : (w.create i (.usual s f)).Sound := (hw.put admits').note fun _ => rfl
    have run := Setting.bracket_leads (σ := σ) (d := .usual s f) (a := ⟨[], []⟩) keeps put.within
    exact run.keeps.find? i s _ (Setting.find?_create hi)

/-- A function that creates a trace under its own name again, registers another function, and fails. -/
def selfTracing : Functions :=
  [(['f'], ⟨⟨none, none, ['f'], false⟩,
    [.step (.createTrace (.text ['f']) (.function ['g'])),
      .step (.register (.text ['g']) (.function ['g']) none none), .raise .value (.text ['!'])]⟩),
   (['g'], ⟨⟨none, none, ['g'], false⟩, []⟩)]

theorem registrations_stay_selfTracing :
    let σ := selfTracing.setting
    let w := σ.runAll 3 [.createTrace (.text ['f']) (.function ['f'])] .start
    w.Sound ∧ w.registry.names = [['f'], ['g']] ∧ w.Refuses 0 (.text ['f']) (.function ['g']) ∧
      (σ.registerOn 0 (.text ['f']) (.function ['g']) none none w).2.tracers = w.tracers ∧
      ¬ w.Refuses 0 (.text ['h']) (.function ['g']) ∧
      (σ.registerOn 0 (.text ['h']) (.function ['g']) none none w).1 = .ok true := by
  intro σ w
  have names : (w.tracer 0).names = [['f'], ['g']] := rfl
  obtain ⟨runs, operations⟩ := registrations_stay σ 3
  have sound : w.Sound := (runs [.createTrace (.text ['f']) (.function ['f'])] []).1
  have taken : w.Refuses 0 (.text ['f']) (.function ['g']) := by
    rw [World.refuses_text_iff, names]
    decide
  have free : ¬ w.Refuses 0 (.text ['h']) (.function ['g']) := by
    rw [World.refuses_text_iff, names]
    decide
  obtain ⟨-, -, -, registration⟩ := operations w sound
  have hi : 0 < w.tracers.length := sound.isMade
  obtain ⟨-, unchanged, -⟩ := (registration 0 hi (.text ['f']) (.function ['g']) none none).1 taken
  obtain ⟨-, -, registered, -⟩ := (registration 0 hi (.text ['h']) (.function ['g']) none none).2 free
  exact ⟨sound, rfl, taken, unchanged, free, registered⟩

end CallTrace.Tracer
