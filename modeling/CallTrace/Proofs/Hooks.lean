import CallTrace.Proofs.Brackets

/-!
# Hooks are those that were passed

A registration that puts something in decides for good which hooks an invocation of the name runs: the
descriptor stays where it is (`World.Keeps`), and an invocation runs the hooks of the descriptor
(`Setting.Invoked`).  So the only question is what hooks the descriptor gets.

What is passed for a hook is run if it counts as true, and otherwise the usual hook is run in its
place.  Nothing counts as false, which is as it should be, but so may a function; then the function
is never called (`hooks_stay_falsy`).  `hookOf_eq_asked_iff` says that there is no other
difference.
-/

namespace CallTrace.Tracer

/-- The hook that is asked for: the usual one where nothing is passed. -/
def Hook.asked : Option Reference → Hook
  | none | some (.plain .nothing) => .usual
  | some r => .given r

/-- What is passed for a hook, unless it is nothing, counts as true. -/
def IsHeard (namings : Namings) (passed : Option Reference) : Prop :=
  ∀ r ∈ passed, r = .plain .nothing ∨ r.isTruthy namings = true

/-- In the world, what stands under the name of a descriptor is the descriptor, and an invocation of the
name runs its hooks. -/
structure Setting.Runs (σ : Setting) (depth : Nat) (i : Nat) (d : Descriptor) (w : World) : Prop where
  stands : (w.tracer i).find? d.name = some d
  invoked : ∀ a, ∃ m,
    σ.Invoked (σ.callWords depth) d a w (σ.invokeOn (σ.callWithin depth) i (.text d.name) a w) m ∧
      Spells w (σ.invokeOn (σ.callWithin depth) i (.text d.name) a w).2 m

variable {namings : Namings} {passed before after : Option Reference}

/-! ## The hooks of a descriptor -/

theorem Hook.asked_of_ne_nothing {r : Reference} (h : r ≠ .plain .nothing) :
    Hook.asked (some r) = .given r := by
  cases r with
  | function id => rfl
  | plain v =>
    cases v with
    | nothing => exact absurd rfl h
    | _ => rfl

/-- The usual hook is run where nothing is passed, or something that counts as false. -/
theorem hookOf_eq_usual_iff :
    hookOf namings passed = .usual ↔ ∀ r ∈ passed, r.isTruthy namings = false := by
  cases passed with
  | none => simp [hookOf]
  | some r => simp [hookOf, Reference.hook]

/-- The hook is the one asked for if and only if what is passed counts as true or is nothing. -/
theorem hookOf_eq_asked_iff : hookOf namings passed = Hook.asked passed ↔ IsHeard namings passed := by
  cases passed with
  | none => simp [hookOf, Hook.asked, IsHeard]
  | some r =>
    by_cases hr : r = .plain .nothing
    · subst hr
      simp [hookOf, Hook.asked, IsHeard, Reference.hook, Reference.isTruthy, Value.isTruthy]
    · simp [hookOf, Hook.asked_of_ne_nothing hr, IsHeard, Reference.hook, hr]

/-- The descriptor of a registration has the hooks asked for if and only if both are heard. -/
theorem descriptor_eq_asked_iff {s : List Char} {f : Reference} :
    (⟨s, f, hookOf namings before, hookOf namings after⟩ : Descriptor) =
        ⟨s, f, .asked before, .asked after⟩ ↔
      IsHeard namings before ∧ IsHeard namings after := by
  rw [Descriptor.mk.injEq, hookOf_eq_asked_iff, hookOf_eq_asked_iff]
  simp

/-! ## Invocations after a registration -/

namespace Setting

variable {σ : Setting} {w w' : World} {i : Nat} {name : Value} {f : Reference} {d : Descriptor}

/-- A registration that puts something in puts in the descriptor of what was passed. -/
theorem exists_of_registerOn (hw : w.Sound) (hi : i < w.tracers.length)
    (h : (σ.registerOn i name f before after w).1 = .ok true) : ∃ s, name = .text s ∧
      (σ.registerOn i name f before after w).2.Sound ∧
      ((σ.registerOn i name f before after w).2.tracer i).find? s =
        some ⟨s, f, hookOf σ.namings before, hookOf σ.namings after⟩ := by
  rcases refuses_or_admits hi name f (hookOf σ.namings before) (hookOf σ.namings after) with
    refuses | ⟨s, rfl, admits⟩
  · obtain ⟨outcome, logs, heq, hne⟩ := registerOn_of_refuses (σ := σ) before after refuses
    rw [heq] at h
    exact absurd h hne
  · refine ⟨s, rfl, ?_⟩
    rw [registerOn_of_admits before after admits]
    exact ⟨hw.put admits, by rw [World.tracer_put hi, if_pos rfl, Registry.find?_insert, if_pos rfl]⟩

/-- What stands under its name in a sound world is run by its name. -/
theorem runs_of_find? (hw : w.Sound) (depth : Nat) (h : (w.tracer i).find? d.name = some d) :
    σ.Runs depth i d w := by
  refine ⟨h, fun a => ?_⟩
  obtain ⟨m, invoked⟩ := bracket_writes (σ := σ) (d := d) (a := a) (keeps_callWithin depth)
    (writes_callWithin depth) hw
  rw [invokeOn_of_find? h]
  exact ⟨m, invoked, invoked.spells (callWords_spell depth) (hw.exists_registered h)⟩

end Setting

/-- **The hooks of a registration stay.**  If a registration puts something in, then from that moment on,
whatever happens, every invocation of the name runs the function between the hooks of its descriptor:
so it is at the end of every run with the registration among its operations, and in every world that
the world after the registration leads to.  These hooks are the ones that were asked for if and only
if what was passed for them counts as true or is nothing; the usual hook is run for whatever counts as
false. -/
theorem hooks_stay (σ : Setting) (depth : Nat) (f : Reference) (before after : Option Reference) :
    let d (s : List Char) : Descriptor := ⟨s, f, hookOf σ.namings before, hookOf σ.namings after⟩
    (∀ steps later name,
      let w := σ.runAll depth steps .start
      let register : Step := .register name f before after
      (σ.perform (σ.callWithin depth) w.fresh register).1 = .ok (.plain (.truth true)) →
      ∃ s, name = .text s ∧
        σ.Runs depth w.current (d s) (σ.runAll depth (steps ++ register :: later) .start)) ∧
    (∀ w : World, w.Sound → ∀ i < w.tracers.length, ∀ name,
      (σ.registerOn i name f before after w).1 = .ok true →
      ∃ s, name = .text s ∧
        ∀ w', Leads (fun _ => True) (σ.registerOn i name f before after w).2 w' →
          σ.Runs depth i (d s) w') ∧
    (∀ s, d s = ⟨s, f, .asked before, .asked after⟩ ↔
      IsHeard σ.namings before ∧ IsHeard σ.namings after) ∧
    ∀ passed, hookOf σ.namings passed = .usual ↔ ∀ r ∈ passed, r.isTruthy σ.namings = false := by
  intro d
  refine ⟨?_, ?_, fun s => descriptor_eq_asked_iff, fun passed => hookOf_eq_usual_iff⟩
  · intro steps later name w register h
    have sound : w.Sound := (Setting.runAll_sound World.sound_start depth steps).1
    have registered : (σ.registerOn w.current name f before after w.fresh).1 = .ok true := by
      replace h : (σ.registerOn w.current name f before after w.fresh).1.map
          (fun b => Result.plain (.truth b)) = .ok (.plain (.truth true)) := h
      cases hr : (σ.registerOn w.current name f before after w.fresh).1 with
      | error e => rw [hr] at h; cases h
      | ok b =>
        rw [hr] at h
        cases h
        rfl
    obtain ⟨s, rfl, sound', stands⟩ := Setting.exists_of_registerOn sound.fresh sound.isMade registered
    obtain ⟨sound'', keeps⟩ := Setting.runAll_sound (σ := σ) sound' depth later
    refine ⟨s, rfl, ?_⟩
    rw [Setting.runAll_append]
    exact Setting.runs_of_find? sound'' depth (keeps.find? _ s (d s) stands)
  · intro w hw i hi name h
    obtain ⟨s, rfl, sound, stands⟩ := Setting.exists_of_registerOn hw hi h
    exact ⟨s, rfl, fun w' leads =>
      Setting.runs_of_find? (leads.sound sound) depth (leads.keeps.find? i s (d s) stands)⟩

/-- A function, what is to be run before it, and another function. -/
def guarded (isFalsy : Bool) : Functions :=
  [(['f'], ⟨⟨none, none, ['f'], false⟩, []⟩), (['b'], ⟨⟨none, none, ['b'], isFalsy⟩, []⟩),
   (['g'], ⟨⟨none, none, ['g'], false⟩, [.step (.register (.text ['f']) (.function ['g']) none none)]⟩)]

/-- The function is registered, and another one is run that tries to register the name again. -/
theorem hooks_stay_registeredAgain :
    let σ := (guarded false).setting
    let register : Step := .register (.text ['f']) (.function ['f']) (some (.function ['b'])) none
    let d : Descriptor := ⟨['f'], .function ['f'], .given (.function ['b']), .usual⟩
    (σ.perform (σ.callWithin 3) World.start.fresh register).1 = .ok (.plain (.truth true)) ∧
      IsHeard σ.namings (some (.function ['b'])) ∧
      σ.Runs 3 0 d (σ.runAll 3 [register, .createTrace (.text ['g']) (.function ['g'])] .start) := by
  intro σ register d
  have heard : IsHeard σ.namings (some (.function ['b'])) := fun r hr => by
    obtain rfl := Option.some.inj hr
    exact Or.inr rfl
  obtain ⟨runs, -, -, -⟩ := hooks_stay σ 3 (.function ['f']) (some (.function ['b'])) none
  obtain ⟨s, hs, run⟩ := runs [] [.createTrace (.text ['g']) (.function ['g'])] (.text ['f']) rfl
  obtain rfl := Value.text.inj hs
  exact ⟨rfl, heard, run⟩

/-- A function that counts as false is passed for a hook, and the usual hook is run in its place. -/
theorem hooks_stay_falsy :
    let σ := (guarded true).setting
    let register : Step := .register (.text ['f']) (.function ['f']) (some (.function ['b'])) none
    let w := σ.runAll 3 [register] .start
    let invoked := σ.perform (σ.callWithin 3) w (.invoke (.text ['f']) ⟨[], []⟩)
    (σ.perform (σ.callWithin 3) World.start.fresh register).1 = .ok (.plain (.truth true)) ∧
      ¬ σ.Runs 3 0 ⟨['f'], .function ['f'], .asked (some (.function ['b'])), .asked none⟩ w ∧
      invoked.2.history = w.history ++
        [.event (.line (.text beforeLine)), .event (.call ['f'] (.arguments ⟨[], []⟩)),
          .event (.line (.text afterLine))] := by
  intro σ register w invoked
  refine ⟨rfl, fun h => ?_, rfl⟩
  have stands : (w.tracer 0).find? ['f'] = some ⟨['f'], .function ['f'], .usual, .usual⟩ := rfl
  have same := Option.some.inj (stands.symm.trans h.stands)
  cases congrArg Descriptor.before same

end CallTrace.Tracer
