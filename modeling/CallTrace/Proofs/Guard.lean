import CallTrace.Emission

/-!
# Emissions are guarded

What an operation adds to the history is read with the sink that is current
threaded through it.  There are two kinds of what a sink may do while it writes:
with the guard up (`Quiet`) it sets sinks and emits lines that nobody writes; with
the guard down (`Unguarded`), as when a line is written on it directly, what it
emits is written.  An emission with the guard down (`Emitted`) is one write of its
line on the current sink, and quiet in between, so no guarded write is inside of
another one.

A sink is a program, and both kinds follow from one induction on it
(`act_grows`): it needs that the kind admits what setting the sink adds, and what
an emission adds.  The second holds of the guard up since the line is dropped, and
then of the guard down since the sink that writes has the guard up.

`emission_guarded` is the result for all runs and for every single operation.
-/

namespace CallTrace.Emission

/-! ## What the history says -/

/-- What happens while the guard is up: the sink is set, and lines are emitted that nobody writes. -/
inductive Quiet : Current → List Deed → Current → Prop
  | nil {c} : Quiet c [] c
  | set {c c' id t} (rest : Quiet (.of id) t c') : Quiet c (.set id :: t) c'
  | dropped {c c' line t} (rest : Quiet c t c') : Quiet c (.emission line :: t) c'

/-- A sink writes a line; `R` says what it may do meanwhile. -/
inductive Written (R : Current → List Deed → Current → Prop) (target : Current) (line : Value) :
    Current → List Deed → Current → Prop
  | intro {c c' t} (body : R c t c') :
      Written R target line c (.write target line :: t ++ [.written]) c'

/-- A line is emitted with the guard down: the sink that is current writes it, and it stays current
unless another one is set meanwhile. -/
inductive Emitted (line : Value) : Current → List Deed → Current → Prop
  | intro {c c' t} (written : Written Quiet c.resolved line c.resolved t c') :
      Emitted line c (.emission line :: t) c'

/-- What happens in a write with the guard down: every line that is emitted is written. -/
inductive Unguarded : Current → List Deed → Current → Prop
  | nil {c} : Unguarded c [] c
  | set {c c' id t} (rest : Unguarded (.of id) t c') : Unguarded c (.set id :: t) c'
  | emitted {c c' c'' line t t'} (first : Emitted line c t c') (rest : Unguarded c' t' c'') :
      Unguarded c (t ++ t') c''

/-- What an operation gives and adds, from one current sink to the next. -/
inductive Stepped : Step → Except Failure Result → Current → List Deed → Current → Prop
  | setSink {c id} : Stepped (.setSink id) (.ok (.sink c)) c [.set id] (.of id)
  | getSink {c} : Stepped .getSink (.ok (.sink c.resolved)) c [] c.resolved
  | emit {c c' line t} {outcome : Except Failure Unit} (emitted : Emitted line c t c') :
      Stepped (.emit line) (outcome.map fun _ => .plain .nothing) c t c'
  | emitThrough {c c' line value t} {outcome : Except Failure Unit} (emitted : Emitted line c t c') :
      Stepped (.emitThrough line value) (outcome.map fun _ => .plain value) c t c'
  | write {c c' id line t} {outcome : Except Failure Unit}
      (written : Written Unguarded (.given id) line c t c') :
      Stepped (.write id line) (outcome.map fun _ => .plain .nothing) c t c'

/-- What one operation after the other adds. -/
inductive Ran : List Step → Current → List Deed → Current → Prop
  | nil {c} : Ran [] c [] c
  | cons {step steps outcome c c' c'' t t'} (first : Stepped step outcome c t c')
      (rest : Ran steps c' t' c'') : Ran (step :: steps) c (t ++ t') c''

/-! ## States before and after -/

/-- From one state to the other the guard is kept, and what is new in the history is of a kind. -/
structure Grows (R : Current → List Deed → Current → Prop) (s s' : State) : Prop where
  guard : s'.isWriting = s.isWriting
  extended : ∃ t, s'.history = s.history ++ t ∧ R s.current t s'.current

/-- A kind of what a sink may do one after the other. -/
structure Repeats (R : Current → List Deed → Current → Prop) : Prop where
  nil : ∀ {c}, R c [] c
  set : ∀ {c id}, R c [.set id] (.of id)
  append : ∀ {c c' c'' t t'}, R c t c' → R c' t' c'' → R c (t ++ t') c''

theorem Quiet.append {c c' c'' : Current} {t t' : List Deed} (h : Quiet c t c')
    (h' : Quiet c' t' c'') : Quiet c (t ++ t') c'' := by
  induction h with
  | nil => exact h'
  | set _ ih => exact .set (ih h')
  | dropped _ ih => exact .dropped (ih h')

theorem repeats_quiet : Repeats Quiet := ⟨.nil, .set .nil, .append⟩

theorem Unguarded.append {c c' c'' : Current} {t t' : List Deed} (h : Unguarded c t c')
    (h' : Unguarded c' t' c'') : Unguarded c (t ++ t') c'' := by
  induction h with
  | nil => exact h'
  | set _ ih => exact .set (ih h')
  | emitted first _ ih =>
    rw [List.append_assoc]
    exact .emitted first (ih h')

theorem repeats_unguarded : Repeats Unguarded := ⟨.nil, .set .nil, .append⟩

section Grows

variable {R : Current → List Deed → Current → Prop} {s s' s'' : State}

theorem Grows.of_eq (repeats : Repeats R) (guard : s'.isWriting = s.isWriting)
    (current : s'.current = s.current) (history : s'.history = s.history) : Grows R s s' :=
  ⟨guard, [], by simp [history], current ▸ repeats.nil⟩

theorem Grows.trans (repeats : Repeats R) (h : Grows R s s') (h' : Grows R s' s'') :
    Grows R s s'' := by
  obtain ⟨t, ht, kind⟩ := h.extended
  obtain ⟨t', ht', kind'⟩ := h'.extended
  exact ⟨h'.guard.trans h.guard, t ++ t', by simp [ht', ht], repeats.append kind kind'⟩

theorem grows_setSink (repeats : Repeats R) (id : Option (List Char)) : Grows R s (setSink s id) :=
  ⟨rfl, [.set id], rfl, repeats.set⟩

variable {emit : Emitter} {guard : Bool}

/-- What a sink does is of a kind, if what its emissions add is. -/
theorem act_grows (repeats : Repeats R)
    (emits : ∀ line s, s.isWriting = guard → Grows R s (emit line s).2) (p : Program)
    (h : s.isWriting = guard) : Grows R s (act emit p s).2 := by
  -- what an action leads to has the guard where it was, and the program goes on from there
  have goesOn {s s' s''} (h : s.isWriting = guard) (first : Grows R s s')
      (rest : s'.isWriting = guard → Grows R s' s'') : Grows R s s'' :=
    first.trans repeats (rest (first.guard.trans h))
  induction p generalizing s with
  | finish outcome => exact .of_eq repeats rfl rfl rfl
  | leave t next ih =>
    let left : State := { s with trail := s.trail ++ [t] }
    have first : Grows R s left := .of_eq repeats rfl rfl rfl
    exact goesOn h first (ih left)
  | emit line next ih | emitThrough line value next ih =>
    exact goesOn h (emits line s h) (ih _ _)
  | setSink id next ih => exact goesOn h (grows_setSink repeats id) (ih _ _)

theorem writeStream_grows (repeats : Repeats R) (id : List Char) (line : Value) (target : Stream) :
    Grows R s (writeStream id line s target) := by
  cases target with
  | given name isFalsy => cases isFalsy <;> exact .of_eq repeats rfl rfl rfl
  | absent => exact .of_eq repeats rfl rfl rfl

theorem writeLog_grows (repeats : Repeats R) (threshold : Int) (logger : List Char)
    (line level : Value) : Grows R s (writeLog threshold logger line s level).2 := by
  unfold writeLog
  split
  · exact .of_eq repeats rfl rfl rfl
  · split <;> exact .of_eq repeats rfl rfl rfl

theorem writeOn_grows (repeats : Repeats R)
    (emits : ∀ line s, s.isWriting = guard → Grows R s (emit line s).2) (threshold : Int)
    (id : List Char) (line : Value) (sink : Sink) (h : s.isWriting = guard) :
    Grows R s (writeOn threshold emit id line s sink).2 := by
  cases sink with
  | program write => exact act_grows repeats emits _ h
  | stream target => exact writeStream_grows repeats id line target
  | logging logger level => exact writeLog_grows repeats threshold logger line level

/-- What is new after a write stands between its begin and its end. -/
theorem write_grows (repeats : Repeats R)
    (emits : ∀ line s, s.isWriting = guard → Grows R s (emit line s).2) (sinks : Sinks)
    (threshold : Int) (target : Current) (line : Value) (h : s.isWriting = guard) :
    Grows (Written R target line) s (write sinks threshold emit target line s).2 := by
  obtain ⟨kept, t, added, kind⟩ := writeOn_grows (s := s.note (.write target line)) repeats emits
    threshold (currentSink sinks target).1 line (currentSink sinks target).2 h
  have ended : (write sinks threshold emit target line s).2.history =
      (s.note (.write target line)).history ++ t ++ [.written] :=
    congrArg (· ++ [Deed.written]) added
  exact ⟨kept, _, by simp [ended, State.note], .intro kind⟩

end Grows

/-! ## Emissions -/

/-- With the guard up, what is emitted goes to the history only. -/
def Emitter.Drops (emit : Emitter) : Prop :=
  ∀ line s, s.isWriting = true → emit line s = (.ok (), s.note (.emission line))

section Emissions

variable {sinks : Sinks} {threshold : Int} {emit other : Emitter} {s : State} {line value : Value}

theorem emitWith_drops : (emitWith sinks threshold emit).Drops := by
  intro line s h
  rw [emitWith, if_pos]
  exact h

theorem Emitter.Drops.emitThrough (drops : emit.Drops) (h : s.isWriting = true) :
    emitThrough emit line value s = (.ok value, s.note (.emission line)) := by
  rw [Emission.emitThrough, drops line s h]
  rfl

theorem Emitter.Drops.grows (drops : emit.Drops) (h : s.isWriting = true) :
    Grows Quiet s (emit line s).2 := by
  rw [drops line s h]
  exact ⟨rfl, [.emission line], rfl, .dropped .nil⟩

/-- With the guard down, what is emitted is written once, and the guard is down again. -/
theorem emitWith_grows (drops : emit.Drops) (sinks : Sinks) (threshold : Int) (line : Value)
    (h : s.isWriting = false) :
    Grows (Emitted line) s (emitWith sinks threshold emit line s).2 := by
  let raised : State := { (s.note (.emission line)).resolved with isWriting := true }
  have emits (line : Value) (s : State) (h : s.isWriting = true) : Grows Quiet s (emit line s).2 :=
    drops.grows h
  obtain ⟨-, t, added, kind⟩ := write_grows (s := raised) repeats_quiet emits sinks threshold
    raised.current line rfl
  have lowered : emitWith sinks threshold emit line s =
      let r := write sinks threshold emit raised.current line raised
      (r.1, { r.2 with isWriting := false }) := by
    have down : ¬(s.note (.emission line)).isWriting = true := ne_true_of_eq_false h
    rw [emitWith, if_neg down]
  rw [lowered]
  exact ⟨h.symm, .emission line :: t, added.trans (by simp [raised, State.note, State.resolved]),
    .intro kind⟩

/-- In a write with the guard down, what is emitted is written. -/
theorem emit_grows_unguarded (sinks : Sinks) (threshold : Int) (line : Value) (s : State)
    (h : s.isWriting = false) : Grows Unguarded s (Emission.emit sinks threshold line s).2 := by
  obtain ⟨kept, t, added, kind⟩ := emitWith_grows emitWith_drops sinks threshold line h
  exact ⟨kept, t ++ [], added.trans (by simp), .emitted kind .nil⟩

/-! ## Two levels are enough -/

/-- With the guard up, it makes no difference how lines are emitted that are dropped. -/
theorem act_of_drops (drops : emit.Drops) (drops' : other.Drops) (p : Program)
    (h : s.isWriting = true) : act emit p s = act other p s := by
  induction p generalizing s with
  | finish outcome => rfl
  | leave t next ih => exact ih _ h
  | emit line next ih =>
    simp only [act, drops line s h, drops' line s h]
    exact ih _ _ h
  | emitThrough line value next ih =>
    simp only [act, drops.emitThrough h, drops'.emitThrough h]
    exact ih _ _ h
  | setSink id next ih => exact ih _ _ h

/-- An emission takes the same course whatever the emissions inside of it are, if they are dropped. -/
theorem emitWith_of_drops (drops : emit.Drops) :
    emitWith sinks threshold emit = Emission.emit sinks threshold := by
  funext line s
  have drops' : (emitWithin sinks threshold).Drops := emitWith_drops
  have same (id : List Char) (s : State) (h : s.isWriting = true) (sink : Sink) :
      writeOn threshold emit id line s sink =
        writeOn threshold (emitWithin sinks threshold) id line s sink := by
    cases sink with
    | program write => exact act_of_drops drops drops' _ h
    | stream target | logging logger level => rfl
  simp only [Emission.emit, emitWith, write]
  rw [same]
  rfl

end Emissions

/-! ## Operations -/

section Operations

variable (sinks : Sinks) (threshold : Int) {s : State}

theorem perform_grows (step : Step) (h : s.isWriting = false) :
    Grows (Stepped step (perform sinks threshold s step).1) s (perform sinks threshold s step).2 := by
  cases step with
  | setSink id => exact ⟨rfl, _, rfl, .setSink⟩
  | getSink => exact ⟨rfl, [], by simp [perform, State.resolved], .getSink⟩
  | emit line =>
    obtain ⟨kept, t, added, kind⟩ := emitWith_grows emitWith_drops sinks threshold line h
    exact ⟨kept, t, added, .emit kind⟩
  | emitThrough line value =>
    obtain ⟨kept, t, added, kind⟩ := emitWith_grows emitWith_drops sinks threshold line h
    refine ⟨kept, t, added, ?_⟩
    have came : (perform sinks threshold s (.emitThrough line value)).1 =
        (emit sinks threshold line s).1.map fun _ => .plain value := by
      rcases hr : emit sinks threshold line s with ⟨_ | _, s'⟩ <;>
        simp [perform, emitThrough, hr, Except.map]
    rw [came]
    exact .emitThrough kind
  | write id line =>
    obtain ⟨kept, t, added, kind⟩ := write_grows repeats_unguarded
      (emit_grows_unguarded sinks threshold) sinks threshold (.given id) line h
    exact ⟨kept, t, added, .write kind⟩

theorem runAll_grows (steps : List Step) (h : s.isWriting = false) :
    Grows (Ran steps) s (runAll sinks threshold steps s) := by
  induction steps generalizing s with
  | nil => exact ⟨rfl, [], by simp [runAll], .nil⟩
  | cons step steps ih =>
    obtain ⟨kept, t, added, kind⟩ := perform_grows sinks threshold step h
    obtain ⟨kept', t', added', kind'⟩ := ih (kept.trans h)
    exact ⟨kept'.trans kept, t ++ t', by rw [← List.append_assoc, ← added]; exact added',
      .cons kind kind'⟩

end Operations

/-- **Emissions are guarded.**  After every run the guard is down, and its history is that of its
operations, one after the other.  So it is with every operation from any state with the guard down,
whether it fails or not.  With the guard up, what is emitted is not written, nor does it fail.
Emissions inside of each other are emissions of the same sort, and there are at most two levels of
them: what would be done at a third makes no difference. -/
theorem emission_guarded (sinks : Sinks) (threshold : Int) :
    (∀ steps,
      let s := runAll sinks threshold steps (.start sinks)
      s.isWriting = false ∧ Ran steps .unset s.history s.current) ∧
    (∀ s : State, s.isWriting = false → ∀ step,
      let (outcome, s') := perform sinks threshold s step
      s'.isWriting = false ∧
        ∃ t, s'.history = s.history ++ t ∧ Stepped step outcome s.current t s'.current) ∧
    (∀ s : State, s.isWriting = true → ∀ line value,
      emit sinks threshold line s = (.ok (), s.note (.emission line)) ∧
      emitThrough (emit sinks threshold) line value s = (.ok value, s.note (.emission line))) ∧
    emit sinks threshold = emitWith sinks threshold (emit sinks threshold) ∧
    ∀ deepest, emitWith sinks threshold (emitWith sinks threshold deepest) = emit sinks threshold := by
  have drops : (emit sinks threshold).Drops := emitWith_drops
  refine ⟨fun steps => ?_, fun s h step => ?_, fun s h line value => ?_, ?_, fun deepest => ?_⟩
  · obtain ⟨kept, t, added, kind⟩ := runAll_grows sinks threshold (s := .start sinks) steps rfl
    have whole : (runAll sinks threshold steps (.start sinks)).history = t := added
    exact ⟨kept, whole ▸ kind⟩
  · obtain ⟨kept, extended⟩ := perform_grows sinks threshold step h
    exact ⟨kept.trans h, extended⟩
  · exact ⟨drops line s h, drops.emitThrough h⟩
  · exact (emitWith_of_drops drops).symm
  · exact emitWith_of_drops emitWith_drops

/-- Two sinks: the first one sets the other one, emits the line, records what comes back from emitting
it once more, and fails. -/
def chattySinks : Sinks :=
  [(['a'], .program fun id line _ =>
      .setSink (some ['b']) fun _ _ =>
      .emit line fun _ _ =>
      .emitThrough line (.integer 1) fun came _ =>
      .leave (.through id (came.toOption.getD .nothing)) fun _ =>
      .finish (.error (.raised ['!']))),
   (['b'], .stream .memory)]

theorem emission_guarded_chatty :
    let s := runAll chattySinks 1 [.setSink (some ['a'])] (.start chattySinks)
    let line : Value := .text ['x']
    let emitted := perform chattySinks 1 s (.emit line)
    let written := perform chattySinks 1 s (.write ['a'] line)
    let up : State := { s with isWriting := true }
    s.isWriting = false ∧ up.isWriting = true ∧ emitted.1 = .error (.raised ['!']) ∧
      (emitted.2.isWriting = false ∧
        ∃ t, emitted.2.history = s.history ++ t ∧
          Stepped (.emit line) emitted.1 s.current t emitted.2.current) ∧
      (written.2.isWriting = false ∧
        ∃ t, written.2.history = s.history ++ t ∧
          Stepped (.write ['a'] line) written.1 s.current t written.2.current) ∧
      emitThrough (emit chattySinks 1) line (.integer 1) up =
        (.ok (.integer 1), up.note (.emission line)) := by
  intro s line emitted written up
  obtain ⟨-, steps, dropped, -, -⟩ := emission_guarded chattySinks 1
  exact ⟨rfl, rfl, rfl, steps s rfl (.emit line), steps s rfl (.write ['a'] line),
    (dropped up rfl line (.integer 1)).2⟩

end CallTrace.Emission
