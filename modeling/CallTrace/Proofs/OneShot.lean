import CallTrace.Proofs.Registration

/-!
# One-shot tracing

Creating a trace runs what it puts in, and only that.  In the history this is an
entry `traced` right behind the entry `registered` of the same descriptor.  As a
name comes into a tracer once, the entry `traced` of a name occurs once
(`World.OneShot`), whatever the function that is run does or how it ends.

A tracer under construction is out of reach of the functions that run meanwhile,
so its own part of the history is that of its functions one after the other
(`constructOn_runs`).
-/

namespace CallTrace.Tracer

open Relation

/-- The tracer and the name of what is run at once. -/
def Deed.traced? : Deed → Option (Nat × List Char)
  | .traced i name => some (i, name)
  | _ => none

/-- The tracer that an entry of the history belongs to. -/
def Deed.tracer? : Deed → Option Nat
  | .event _ => none
  | .registered i _ => some i
  | .traced i _ => some i

/-- What is run at once came in right before, under a name that was free, and it is run at once only
this one time. -/
structure OneShot (history : List Deed) : Prop where
  follows : ∀ h h' i name, history = h ++ .traced i name :: h' →
    ∃ before d, h = before ++ [.registered i d] ∧ d.name = name ∧
      ∀ e ∈ registrations i before, e.name ≠ name
  once : (history.filterMap Deed.traced?).Nodup

variable {touched : Nat → Prop} {w w' : World} {i : Nat} {d : Descriptor} {history : List Deed}

/-! ## At most once -/

/-- An entry is the last one, or it stands in what comes before the last one. -/
theorem eq_or_of_append_singleton_eq {α : Type} {l l₁ l₂ : List α} {x y : α}
    (h : l ++ [x] = l₁ ++ y :: l₂) : (l = l₁ ∧ x = y) ∨ ∃ l₃, l = l₁ ++ y :: l₃ := by
  obtain rfl | ⟨l₃, z, rfl⟩ := l₂.eq_nil_or_concat
  · obtain ⟨hl, hx⟩ := List.append_inj' h rfl
    exact .inl ⟨hl, by simpa using hx⟩
  · rw [List.concat_eq_append, ← List.cons_append, ← List.append_assoc] at h
    exact .inr ⟨l₃, (List.append_inj' h rfl).1⟩

theorem OneShot.append (hh : OneShot history) {deed : Deed} (h : deed.traced? = none) :
    OneShot (history ++ [deed]) where
  follows h₁ h₂ i name heq := by
    obtain ⟨-, rfl⟩ | ⟨h₃, heq⟩ := eq_or_of_append_singleton_eq heq
    · cases h
    · exact hh.follows h₁ h₃ i name heq
  once := by simpa [h] using hh.once

/-- What is run at once is among the registrations. -/
theorem OneShot.exists_registration (hh : OneShot history) {name : List Char}
    (h : .traced i name ∈ history) : ∃ d ∈ registrations i history, d.name = name := by
  obtain ⟨h₁, h₂, rfl⟩ := List.append_of_mem h
  obtain ⟨before, d, rfl, hd, -⟩ := hh.follows h₁ h₂ i name rfl
  exact ⟨d, by simp [registrations, Deed.registration?], hd⟩

theorem OneShot.create (hh : OneShot history)
    (free : ∀ e ∈ registrations i history, e.name ≠ d.name) :
    OneShot (history ++ [.registered i d] ++ [.traced i d.name]) where
  follows h₁ h₂ j name heq := by
    obtain ⟨rfl, h⟩ | ⟨h₃, heq⟩ := eq_or_of_append_singleton_eq heq
    · cases h
      exact ⟨history, d, rfl, rfl, free⟩
    · exact (hh.append rfl).follows h₁ h₃ j name heq
  once := by
    -- What was run at once before is among the registrations, and there the name is free.
    have fresh : (i, d.name) ∉ history.filterMap Deed.traced? := by
      intro h
      obtain ⟨deed, hmem, hdeed⟩ := List.mem_filterMap.mp h
      obtain ⟨j, name⟩ | _ | ⟨j, name⟩ := deed <;> cases hdeed
      obtain ⟨e, he, hname⟩ := hh.exists_registration hmem
      exact free e he hname
    rw [List.filterMap_append]
    exact (hh.append rfl).once.append (List.nodup_singleton _)
      (by simpa [Deed.traced?] using fresh)

theorem World.Sound.names_eq (hw : w.Sound) (i : Nat) :
    (w.tracer i).names = (registrations i w.history).map (·.name) := by
  rw [← hw.ordered, List.map_map, Registry.names]
  exact List.map_congr_left fun entry h => (hw.keyed i entry.1 entry.2 h).2.1

theorem World.Sound.ne_of_admits (hw : w.Sound) (admits : w.Admits i d) :
    ∀ e ∈ registrations i w.history, e.name ≠ d.name := by
  intro e he heq
  have free := Registry.find?_eq_none_iff.mp admits.free
  rw [hw.names_eq, ← heq] at free
  exact free (List.mem_map_of_mem he)

theorem Change.oneShot (h : Change touched w w') (hw : w.Sound) (hh : OneShot w.history) :
    OneShot w'.history := by
  cases h with
  | event e => exact hh.append rfl
  | log | opened | switched => exact hh
  | registered _ admits => exact hh.append rfl
  | created _ admits => exact hh.create (hw.ne_of_admits admits)

theorem Leads.oneShot (h : Leads touched w w') (hw : w.Sound) (hh : OneShot w.history) :
    OneShot w'.history := by
  induction h with
  | refl => exact hh
  | tail h h' ih => exact h'.oneShot (Leads.sound h hw) ih

/-! ## Out of reach -/

/-- Changes only touch what they may, in the history too. -/
theorem Leads.exists_history (h : Leads touched w w') :
    ∃ own, w'.history = w.history ++ own ∧ ∀ deed ∈ own, ∀ i, deed.tracer? = some i → touched i := by
  induction h with
  | refl => exact ⟨[], by simp, by simp⟩
  | @tail w' w'' _ h ih =>
    obtain ⟨own, hown, htouched⟩ := ih
    have next : ∃ own', w''.history = w'.history ++ own' ∧
        ∀ deed ∈ own', ∀ i, deed.tracer? = some i → touched i := by
      cases h with
      | event e => exact ⟨[.event e], rfl, by simp [Deed.tracer?]⟩
      | log | opened | switched => exact ⟨[], (List.append_nil _).symm, by simp⟩
      | @registered i d ht => exact ⟨[.registered i d], rfl, by simpa [Deed.tracer?] using ht⟩
      | @created i d ht =>
        exact ⟨[.registered i d, .traced i d.name], by simp [World.create],
          by simpa [Deed.tracer?] using ht⟩
    obtain ⟨own', hown', htouched'⟩ := next
    refine ⟨own ++ own', by rw [hown', hown, List.append_assoc], fun deed hdeed => ?_⟩
    exact (List.mem_append.mp hdeed).elim (htouched deed) (htouched' deed)

/-- A tracer that is not touched stays as it is. -/
theorem Leads.tracer_eq (h : Leads touched w w') (hi : ¬ touched i) :
    w'.tracer i = w.tracer i := by
  induction h with
  | refl => rfl
  | @tail w' w'' _ h ih =>
    rw [← ih]
    cases h with
    | event | log | switched => rfl
    | opened => exact World.tracer_opened
    | registered ht admits =>
      rw [World.tracer_put admits.isMade, if_neg]
      rintro rfl
      exact hi ht
    | created ht admits =>
      rw [World.create, World.tracer_note, World.tracer_put admits.isMade, if_neg]
      rintro rfl
      exact hi ht

/-! ## A new tracer -/

/-- What a trace leaves in the history: the descriptor comes in, and the function is run between its
lines. -/
def trace (i : Nat) (d : Descriptor) (own : List Deed) : List Deed :=
  [.registered i d, .traced i d.name, .event (.line (.text beforeLine)),
    .event (.call d.function (.arguments ⟨[], []⟩))] ++ own ++ [.event (.line (.text afterLine))]

/-- A tracer takes descriptors in and runs each one as it comes in, and what the functions do
meanwhile leaves that tracer alone. -/
structure World.Traces (i : Nat) (ds : List Descriptor) (w w' : World) : Prop where
  entries : (w'.tracer i).entries = (w.tracer i).entries ++ ds.map fun d => (d.name, d)
  history : ∃ owns : List (List Deed), owns.length = ds.length ∧
    (∀ own ∈ owns, ∀ deed ∈ own, deed.tracer? ≠ some i) ∧
    w'.history = w.history ++ (List.zipWith (trace i) ds owns).flatten

theorem World.Traces.refl (i : Nat) (w : World) : w.Traces i [] w :=
  ⟨(List.append_nil _).symm, [], rfl, by simp, (List.append_nil _).symm⟩

theorem World.Traces.names_eq {ds : List Descriptor} (h : w.Traces i ds w') :
    (w'.tracer i).names = (w.tracer i).names ++ ds.map (·.name) := by
  simp [Registry.names, h.entries]

theorem World.Traces.cons {ds : List Descriptor} {w'' : World} (h : w.Traces i [d] w')
    (h' : w'.Traces i ds w'') : w.Traces i (d :: ds) w'' := by
  obtain ⟨entries, owns, length, apart, history⟩ := h
  obtain ⟨entries', owns', length', apart', history'⟩ := h'
  obtain ⟨own, rfl⟩ := List.length_eq_one_iff.mp length
  refine ⟨by simp [entries', entries], own :: owns', by simp [length'], ?_, ?_⟩
  · simpa using ⟨by simpa using apart, apart'⟩
  · simp [history', history]

/-- The functions under their own names; what cannot be called or has an empty name is left out. -/
def named (namings : Namings) (fs : List Reference) : List Descriptor :=
  fs.filterMap fun f =>
    if f.isCallable ∧ f.traceName namings ≠ [] then some (.usual (f.traceName namings) f) else none

/-- The first descriptor of each name. -/
def firstOfEach : List Descriptor → List Descriptor
  | [] => []
  | d :: rest => d :: (firstOfEach rest).filter (·.name ≠ d.name)

/-- What is still to come in where some names are taken. -/
def stillToCome (namings : Namings) (taken : List (List Char)) (fs : List Reference) :
    List Descriptor :=
  (firstOfEach (named namings fs)).filter (·.name ∉ taken)

theorem stillToCome_nil (namings : Namings) (fs : List Reference) :
    stillToCome namings [] fs = firstOfEach (named namings fs) := by
  simp [stillToCome]

section StillToCome

variable {namings : Namings} {taken : List (List Char)} {f : Reference} {rest : List Reference}

theorem stillToCome_cons_of_free (callable : f.isCallable) (holds : f.traceName namings ≠ [])
    (free : f.traceName namings ∉ taken) :
    stillToCome namings taken (f :: rest) = .usual (f.traceName namings) f ::
      stillToCome namings (taken ++ [f.traceName namings]) rest := by
  simp [stillToCome, named, firstOfEach, callable, holds, free, Descriptor.usual]

/-- What is refused is left out: it cannot be called, or has no name, or the name is taken. -/
theorem stillToCome_cons_of_refused
    (h : f.isCallable = false ∨ f.traceName namings = [] ∨ f.traceName namings ∈ taken) :
    stillToCome namings taken (f :: rest) = stillToCome namings taken rest := by
  by_cases hf : f.isCallable ∧ f.traceName namings ≠ []
  · have mem : f.traceName namings ∈ taken := by simpa [hf] using h
    have other (d : Descriptor) (hd : d.name ∉ taken) : d.name ≠ f.traceName namings :=
      fun heq => hd (heq ▸ mem)
    simp only [stillToCome, named, List.filterMap_cons, if_pos hf, firstOfEach, Descriptor.usual]
    rw [List.filter_cons_of_neg (by simpa using mem), List.filter_filter]
    exact List.filter_congr fun d _ => by simpa using other d
  · simp only [stillToCome, named, List.filterMap_cons, if_neg hf]

end StillToCome

namespace Setting

variable {σ : Setting} {call : Call} {id s : List Char} {a : Arguments} {v : Value}

/-- A function without hooks of its own is run between the usual lines. -/
theorem bracket_usual
    (first : σ.sink (.text beforeLine) (w.record (.line (.text beforeLine))) = .ok ())
    (hcall : call id (.arguments a) (w.record (.line (.text beforeLine))) = (.ok v, w'))
    (last : σ.sink (.text afterLine) (w'.record (.line (.text afterLine))) = .ok ()) :
    σ.bracket call (.usual s (.function id)) a w =
      (.ok v, w'.record (.line (.text afterLine))) := by
  simp [bracket, Descriptor.usual, runHook, emit, callReference, first, hcall, last]

/-- A call is in the history, before what comes of it. -/
theorem exists_call (hw : w.Within touched) (depth : Nat) (id : List Char) (input : Input) :
    ∃ own, (σ.callWithin (depth + 1) id input w).2.history =
        w.history ++ [.event (.call id input)] ++ own ∧
      ∀ deed ∈ own, ∀ i, deed.tracer? = some i → touched i := by
  have keeps : (σ.callWithin depth).Keeps touched := keeps_callWithin depth
  have called : Change touched w (w.record (.call id input)) := .event _
  exact (act_leads keeps (called.within hw) _).exists_history

theorem within_create (hw : w.Within touched) : (w.create i d).Within touched := by
  have length : (w.create i d).tracers.length = w.tracers.length := World.length_put
  exact ⟨length ▸ hw.isMade, hw.current, fun j hj => hw.further j (length ▸ hj)⟩

/-- A trace is created and run. -/
theorem createTraceOn_runs {depth : Nat} (hw : w.Within (· ≠ i))
    (admits : w.Admits i (.usual s (.function id)))
    (writes : ∀ line w', w.Keeps w' → σ.sink line w' = .ok ())
    (returns : ∀ w', w.Keeps w' → ∃ v, (σ.callWithin depth id (.arguments ⟨[], []⟩) w').1 = .ok v) :
    ∃ w', σ.createTraceOn (σ.callWithin depth) i (.text s) (.function id) w = (.ok .nothing, w') ∧
      w.Traces i [.usual s (.function id)] w' ∧ w.Keeps w' ∧ w'.Within (· ≠ i) ∧
      i < w'.tracers.length := by
  let d : Descriptor := .usual s (.function id)
  let w₁ := (w.create i d).record (.line (.text beforeLine))
  have keeps₁ : w.Keeps w₁ :=
    ((World.keeps_put admits).trans (World.keeps_note _ _)).trans (World.keeps_note _ _)
  have hw₁ : w₁.Within (· ≠ i) := Change.within (.event _) (within_create hw)
  obtain ⟨v, hv⟩ := returns w₁ keeps₁
  -- At depth zero no call returns.
  obtain _ | depth := depth
  · cases hv
  rcases hcall : σ.callWithin (depth + 1) id (.arguments ⟨[], []⟩) w₁ with ⟨outcome, w₂⟩
  obtain rfl : outcome = .ok v := by rw [← hv, hcall]
  have run : Leads (· ≠ i) w₁ w₂ := by
    have h := keeps_callWithin (σ := σ) (depth + 1) id (.arguments ⟨[], []⟩) w₁ hw₁
    rwa [hcall] at h
  obtain ⟨own, hown, apart⟩ := exists_call (σ := σ) hw₁ depth id (.arguments ⟨[], []⟩)
  rw [hcall] at hown
  let w₃ := w₂.record (.line (.text afterLine))
  have keeps₃ : w.Keeps w₃ := (keeps₁.trans run.keeps).trans (World.keeps_note _ _)
  have run₃ : Leads (· ≠ i) w₁ w₃ := run.tail (.event _)
  have hbracket := bracket_usual (s := s) (writes _ _ keeps₁) hcall (writes _ _ keeps₃)
  refine ⟨w₃, ?_, ⟨?_, [own], rfl, ?_, ?_⟩, keeps₃, run₃.within hw₁, ?_⟩
  · rw [createTraceOn_of_admits admits, hbracket]
    rfl
  · have same : (w₁.tracer i).entries = ((w.put i d).tracer i).entries := rfl
    rw [run₃.tracer_eq (by simp), same, World.tracer_put admits.isMade, if_pos rfl,
      Registry.entries_insert admits.free]
    rfl
  · simpa using fun deed h heq => apart deed h i heq rfl
  · have history : w₃.history = w₂.history ++ [.event (.line (.text afterLine))] := rfl
    rw [history, hown]
    simp [w₁, World.create, trace, d, Descriptor.usual, Descriptor.function, Reference.id]
  · have length : w₁.tracers.length = w.tracers.length := World.length_put
    exact (length ▸ admits.isMade).trans_le run₃.length_le

/-- A new tracer runs what comes in, one after the other. -/
theorem constructOn_runs {depth : Nat} (fs : List Reference) (hw : w.Within (· ≠ i))
    (hi : i < w.tracers.length) (writes : ∀ line w', w.Keeps w' → σ.sink line w' = .ok ())
    (returns : ∀ id, .function id ∈ fs → ∀ w', w.Keeps w' →
      ∃ v, (σ.callWithin depth id (.arguments ⟨[], []⟩) w').1 = .ok v) :
    ∃ w', σ.constructOn (σ.callWithin depth) i fs w = (.ok (), w') ∧
      w.Traces i (stillToCome σ.namings (w.tracer i).names fs) w' := by
  -- The names that are taken grow with the tracer; what is still to come shrinks in step.
  induction fs generalizing w with
  | nil => exact ⟨w, rfl, .refl i w⟩
  | cons f rest ih =>
    rcases refuses_or_admits hi (.text (f.traceName σ.namings)) f .usual .usual with
      refuses | ⟨s, hs, admits⟩
    · obtain ⟨logs, hcreate⟩ := createTraceOn_of_refuses (σ := σ) (σ.callWithin depth) refuses
      have logged : Change (· ≠ i) w { w with logs := logs } := .log logs
      obtain ⟨w', hrest, h⟩ := ih (logged.within hw) hi
        (fun line w' h => writes line w' (logged.keeps.trans h))
        (fun id hid w' h => returns id (List.mem_cons_of_mem _ hid) w' (logged.keeps.trans h))
      refine ⟨w', by simp only [constructOn, hcreate, hrest], ?_⟩
      rw [stillToCome_cons_of_refused (World.refuses_text_iff.mp refuses)]
      exact ⟨h.entries, h.history⟩
    · obtain ⟨id, rfl⟩ : ∃ id, f = .function id := by
        cases f with
        | function id => exact ⟨id, rfl⟩
        | plain v => cases admits.callable
      have hname : (Reference.function id).traceName σ.namings = s := by simpa using hs
      obtain ⟨w₁, hcreate, first, keeps, hw₁, hi₁⟩ := createTraceOn_runs hw admits writes
        (returns id List.mem_cons_self)
      obtain ⟨w', hrest, h⟩ := ih hw₁ hi₁ (fun line w' h => writes line w' (keeps.trans h))
        (fun id' hid w' h => returns id' (List.mem_cons_of_mem _ hid) w' (keeps.trans h))
      have free := Registry.find?_eq_none_iff.mp admits.free
      refine ⟨w', by simp only [constructOn, hname, hcreate, hrest], ?_⟩
      rw [stillToCome_cons_of_free admits.callable (hname ▸ admits.named) (hname ▸ free), hname]
      rw [first.names_eq] at h
      exact first.cons h

theorem perform_construct {depth : Nat} (fs : List Reference) (hw : w.Sound)
    (writes : ∀ line w', w.Keeps w' → σ.sink line w' = .ok ())
    (returns : ∀ id, .function id ∈ fs → ∀ w', w.Keeps w' →
      ∃ v, (σ.callWithin depth id (.arguments ⟨[], []⟩) w').1 = .ok v) :
    (σ.perform (σ.callWithin depth) w (.construct fs)).1 = .ok (.plain .nothing) ∧
      (σ.perform (σ.callWithin depth) w (.construct fs)).2.current = w.tracers.length ∧
      w.Traces w.tracers.length (firstOfEach (named σ.namings fs))
        (σ.perform (σ.callWithin depth) w (.construct fs)).2 := by
  have made : Change (fun _ => True) w w.opened := .opened
  -- The current tracer is an older one, and further ones come later: all differ from the new one.
  have within : w.opened.Within (· ≠ w.tracers.length) := by
    refine ⟨?_, hw.isMade.ne, fun j hj => ?_⟩
    · rw [World.length_opened]
      exact hw.isMade.trans (Nat.lt_succ_self _)
    · rw [World.length_opened] at hj
      omega
  obtain ⟨w', hrun, h⟩ := constructOn_runs (σ := σ) fs within (by simp)
    (fun line w' h => writes line w' (made.keeps.trans h))
    (fun id hid w' h => returns id hid w' (made.keeps.trans h))
  have empty : (w.opened.tracer w.tracers.length).names = [] := by
    rw [World.tracer_opened, World.tracer_of_length_le le_rfl]
    rfl
  rw [empty, stillToCome_nil] at h
  rw [perform, hrun]
  refine ⟨rfl, rfl, ?_, h.history⟩
  have entries := h.entries
  rwa [World.tracer_opened] at entries

theorem runAll_oneShot (hw : w.Sound) (hh : OneShot w.history) (depth : Nat) (steps : List Step) :
    OneShot (σ.runAll depth steps w).history := by
  induction steps generalizing w with
  | nil => exact hh
  | cons s rest ih =>
    have keeps : (σ.callWithin depth).Keeps fun _ => True := keeps_callWithin depth
    have first := perform_leads (σ := σ) keeps hw.fresh.within s
    exact ih (first.sound hw.fresh) (first.oneShot hw.fresh hh)

end Setting

/-- **A trace is run at once only this one time.**  In every run, whatever the functions and hooks do
meanwhile, what is run at once came in right before, under a name that was free, and never again.
Creating a trace leaves tracers and history as they are, or puts in what it then runs.  A new tracer
whose functions return, on a sink that takes every line, runs the first function of each name that
holds something, in order, each between its own lines. -/
theorem traced_once (σ : Setting) (depth : Nat) :
    (∀ steps, OneShot (σ.runAll depth steps .start).history) ∧
    ∀ w : World, w.Sound →
      (∀ i < w.tracers.length, ∀ name f,
        let created := (σ.createTraceOn (σ.callWithin depth) i name f w).2
        (created.tracers = w.tracers ∧ created.history = w.history) ∨
        ∃ s own, name = .text s ∧ s ∉ (w.tracer i).names ∧ created.history =
          w.history ++ [.registered i (.usual s f), .traced i s] ++ own) ∧
      ∀ fs, (∀ line w', w.Keeps w' → σ.sink line w' = .ok ()) →
        (∀ id, .function id ∈ fs → ∀ w', w.Keeps w' →
          ∃ v, (σ.callWithin depth id (.arguments ⟨[], []⟩) w').1 = .ok v) →
        let built := σ.perform (σ.callWithin depth) w (.construct fs)
        built.1 = .ok (.plain .nothing) ∧ built.2.current = w.tracers.length ∧
          w.Traces w.tracers.length (firstOfEach (named σ.namings fs)) built.2 := by
  have empty : OneShot World.start.history := ⟨by simp [World.start], List.nodup_nil⟩
  refine ⟨Setting.runAll_oneShot World.sound_start empty depth, fun w hw =>
    ⟨fun i hi name f => ?_, fun fs => Setting.perform_construct fs hw⟩⟩
  rcases Setting.refuses_or_admits hi name f .usual .usual with refuses | ⟨s, rfl, admits⟩
  · obtain ⟨logs, h⟩ := Setting.createTraceOn_of_refuses (σ := σ) (σ.callWithin depth) refuses
    rw [h]
    exact .inl ⟨rfl, rfl⟩
  · rw [Setting.createTraceOn_of_admits admits]
    have within := Setting.within_create (i := i) (d := .usual s f) hw.within
    have keeps : (σ.callWithin depth).Keeps fun _ => True := Setting.keeps_callWithin depth
    have run := Setting.bracket_leads (σ := σ) (d := .usual s f) (a := ⟨[], []⟩) keeps within
    obtain ⟨own, hown, -⟩ := run.exists_history
    refine .inr ⟨s, own, rfl, Registry.find?_eq_none_iff.mp admits.free, ?_⟩
    rw [hown]
    simp [World.create, Descriptor.usual]

/-- Two functions of one name, of which the first one creates a trace while it runs, and a third one
that creates a trace under its own name and then fails. -/
def sameName : Functions :=
  [(['f'], ⟨⟨some (.text ['f']), none, ['1'], false⟩,
    [.step (.createTrace (.text ['f']) (.function ['g'])), .giveBack (.integer 1)]⟩),
   (['g'], ⟨⟨some (.text ['f']), none, ['2'], false⟩, []⟩),
   (['h'], ⟨⟨none, none, ['h'], false⟩,
    [.step (.createTrace (.text ['h']) (.function ['h'])), .raise .value (.text ['!'])]⟩)]

theorem traced_once_sameName :
    let σ := sameName.setting
    let fs : List Reference := [.plain (.integer 5), .function ['f'], .function ['g'], .function ['f']]
    let built := σ.perform (σ.callWithin 3) .start (.construct fs)
    let again : Step := .createTrace (.text ['h']) (.function ['h'])
    (OneShot (σ.runAll 3 [again, again] .start).history ∧
      (σ.runAll 3 [again, again] .start).history.filterMap Deed.traced? = [(0, ['h'])]) ∧
    firstOfEach (named σ.namings fs) = [.usual ['f'] (.function ['f'])] ∧
      built.1 = .ok (.plain .nothing) ∧
      World.start.Traces 1 [.usual ['f'] (.function ['f'])] built.2 := by
  intro σ fs built again
  have chosen : firstOfEach (named σ.namings fs) = [.usual ['f'] (.function ['f'])] := rfl
  obtain ⟨runs, operations⟩ := traced_once σ 3
  obtain ⟨-, construction⟩ := operations .start World.sound_start
  have returns : ∀ id, .function id ∈ fs → ∀ w', World.start.Keeps w' →
      ∃ v, (σ.callWithin 3 id (.arguments ⟨[], []⟩) w').1 = .ok v := by
    intro id hid w' _
    obtain rfl | rfl | rfl : id = ['f'] ∨ id = ['g'] ∨ id = ['f'] := by simpa [fs] using hid
    · exact ⟨.integer 1, rfl⟩
    · exact ⟨.nothing, rfl⟩
    · exact ⟨.integer 1, rfl⟩
  obtain ⟨outcome, -, traces⟩ := construction fs (fun _ _ _ => rfl) returns
  exact ⟨⟨runs [again, again], rfl⟩, chosen, outcome, chosen ▸ traces⟩

end CallTrace.Tracer
