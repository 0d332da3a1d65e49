import CallTrace.Proofs.Registration

/-!
# Invocations bracket what they run

The history tells which functions were called, but not for which part of which
invocation, nor where an invocation ends.  A *word* is the history with marks for
this added.  Two things are said of it.

`Word` is the grammar: apart from invocations no function is called, and an
invocation (`Invoked`) runs the hook before once, then the function once with the
arguments, then the hook after once; if the hook before fails, that is all.  What
comes of each of them is what comes of calling it in the world of that moment.  A
call takes up the word of what the function does, so all this holds again inside
of every hook and every function.

`Reads` is the bracketing: going through a word with the open invocations on a
stack, each mark is about the innermost one, which is in the part before it, and
at the end none is open.  Reading a word also gives the history back.  This
follows from the grammar (`Word.spells`).

That everything has a word is carried from the calls to the operations by
`perform_writes` and to what a function does by `act_writes`, as with the changes
of the world; `invocations_nest` is the result for all runs.
-/

namespace CallTrace.Tracer

/-- What a word is made of: the entries of the history, and marks for the parts of invocations. -/
inductive Mark
  | deed (e : Deed)
  /-- The hook before a function is run. -/
  | before (d : Descriptor)
  /-- The function itself is called. -/
  | original (d : Descriptor)
  /-- The hook after the function is run. -/
  | after (d : Descriptor)
  /-- The invocation is over. -/
  | closed (d : Descriptor) (outcome : Except Failure Value)

/-! ## The bracketing -/

/-- The parts of an invocation. -/
inductive Part
  | before
  | original
  | after

/-- What has happened up to a point of a word, and the invocations that are open there, the innermost
one first. -/
structure Point where
  history : List Deed
  stack : List (Part × Descriptor)

/-- A mark leads from one point to the next: an invocation goes through its parts in their order, and
is over after the last one, or after the first one if that failed. -/
inductive Moves : Mark → Point → Point → Prop
  | deed {e h stack} : Moves (.deed e) ⟨h, stack⟩ ⟨h ++ [e], stack⟩
  | before {d h stack} (registered : ∃ i, .registered i d ∈ h) :
      Moves (.before d) ⟨h, stack⟩ ⟨h, (.before, d) :: stack⟩
  | original {d h stack} :
      Moves (.original d) ⟨h, (.before, d) :: stack⟩ ⟨h, (.original, d) :: stack⟩
  | after {d h stack} : Moves (.after d) ⟨h, (.original, d) :: stack⟩ ⟨h, (.after, d) :: stack⟩
  | barred {d e h stack} : Moves (.closed d (.error e)) ⟨h, (.before, d) :: stack⟩ ⟨h, stack⟩
  | closed {d outcome h stack} : Moves (.closed d outcome) ⟨h, (.after, d) :: stack⟩ ⟨h, stack⟩

/-- A word leads from one point to another. -/
inductive Reads : List Mark → Point → Point → Prop
  | nil {p} : Reads [] p p
  | cons {m ms p q r} (first : Moves m p q) (rest : Reads ms q r) : Reads (m :: ms) p r

theorem Moves.reads {m : Mark} {p q : Point} (h : Moves m p q) : Reads [m] p q := .cons h .nil

theorem Reads.append {m m' : List Mark} {p q r : Point} (h : Reads m p q) (h' : Reads m' q r) :
    Reads (m ++ m') p r := by
  induction h with
  | nil => exact h'
  | cons first _ ih => exact .cons first (ih h')

/-- A word tells what happens from one world to another, whatever invocations are open. -/
def Spells (w w' : World) (m : List Mark) : Prop :=
  ∀ stack, Reads m ⟨w.history, stack⟩ ⟨w'.history, stack⟩

/-! ## The grammar -/

/-- Whether an entry of the history tells of a call. -/
def Deed.isCall : Deed → Bool
  | .event (.call ..) => true
  | _ => false

/-- Which words calls have: what is called, with what, in which world, and what comes of it. -/
abbrev Calls := Reference → Input → World → Except Failure Value × World → List Mark → Prop

namespace Setting

/-- A hook is run: the usual one emits its line, and one that was given is called with the
descriptor. -/
inductive Hooked (σ : Setting) (calls : Calls) (usualLine : List Char) (d : Descriptor) (w : World) :
    Hook → Except Failure Unit × World → List Mark → Prop
  | usual : Hooked σ calls usualLine d w .usual (σ.emit (.text usualLine) w)
      [.deed (.event (.line (.text usualLine)))]
  | given {r outcome w' m} (called : calls r (.descriptor d) w (outcome, w') m) :
      Hooked σ calls usualLine d w (.given r) (outcome.map fun _ => (), w') m

/-- An invocation of what stands in a descriptor, with what comes of it. -/
inductive Invoked (σ : Setting) (calls : Calls) (d : Descriptor) (a : Arguments) (w : World) :
    Except Failure Value × World → List Mark → Prop
  /-- The hook before fails, and nothing else is called. -/
  | barred {e w₁ m} (before : σ.Hooked calls beforeLine d w d.before (.error e, w₁) m) :
      Invoked σ calls d a w (.error e, w₁) (.before d :: m ++ [.closed d (.error e)])
  /-- What comes of the function is what comes of the invocation. -/
  | ended {outcome w₁ w₂ w₃ m₁ m₂ m₃}
      (before : σ.Hooked calls beforeLine d w d.before (.ok (), w₁) m₁)
      (original : calls d.original (.arguments a) w₁ (outcome, w₂) m₂)
      (after : σ.Hooked calls afterLine d w₂ d.after (.ok (), w₃) m₃) :
      Invoked σ calls d a w (outcome, w₃)
        (.before d :: m₁ ++ .original d :: m₂ ++ .after d :: m₃ ++ [.closed d outcome])
  /-- The hook after fails, whatever came of the function. -/
  | overruled {outcome e w₁ w₂ w₃ m₁ m₂ m₃}
      (before : σ.Hooked calls beforeLine d w d.before (.ok (), w₁) m₁)
      (original : calls d.original (.arguments a) w₁ (outcome, w₂) m₂)
      (after : σ.Hooked calls afterLine d w₂ d.after (.error e, w₃) m₃) :
      Invoked σ calls d a w (.error e, w₃)
        (.before d :: m₁ ++ .original d :: m₂ ++ .after d :: m₃ ++ [.closed d (.error e)])

/-- The words from one world to another: all calls belong to invocations of what has come in. -/
inductive Word (σ : Setting) (calls : Calls) : World → World → List Mark → Prop
  | nil {w} : Word σ calls w w []
  /-- Something changes that the history does not tell of. -/
  | silent {w w' w'' m} (h : w'.history = w.history) (rest : Word σ calls w' w'' m) :
      Word σ calls w w'' m
  | deed {w w' w'' e m} (h : w'.history = w.history ++ [e]) (other : e.isCall = false)
      (rest : Word σ calls w' w'' m) : Word σ calls w w'' (.deed e :: m)
  | invoked {w w' w'' d a outcome m m'} (registered : ∃ i, .registered i d ∈ w.history)
      (h : σ.Invoked calls d a w (outcome, w') m) (rest : Word σ calls w' w'' m') :
      Word σ calls w w'' (m ++ m')

/-- The words of calls that are nested at most so deep.  Data cannot be called; a function that is
called does what has a word. -/
def callWords (σ : Setting) : Nat → Calls
  | _, .plain v, _, w, result, m => result = (.error (.calledPlain v), w) ∧ m = []
  | 0, .function _, _, w, result, m => result = (.error .tooDeep, w) ∧ m = []
  | depth + 1, .function id, input, w, result, m =>
    result = σ.callWithin (depth + 1) id input w ∧ ∃ body,
      m = .deed (.event (.call id input)) :: body ∧
      σ.Word (σ.callWords depth) (w.record (.call id input)) result.2 body

end Setting

/-! ## Reading words -/

section Spells

variable {w w' w'' w₁ w₂ w₃ : World} {m m' m₁ m₂ m₃ : List Mark} {d : Descriptor} {e : Deed}

theorem Spells.nil (h : w'.history = w.history) : Spells w w' [] := by
  intro _
  rw [h]
  exact .nil

theorem Spells.deed (h : w'.history = w.history ++ [e]) : Spells w w' [.deed e] := by
  intro _
  rw [h]
  exact Moves.deed.reads

theorem Spells.append (h : Spells w w' m) (h' : Spells w' w'' m') : Spells w w'' (m ++ m') :=
  fun stack => (h stack).append (h' stack)

theorem Spells.barred {f : Failure} (registered : ∃ i, .registered i d ∈ w.history)
    (h : Spells w w₁ m) : Spells w w₁ (.before d :: m ++ [.closed d (.error f)]) :=
  fun _ => .cons (.before registered) ((h _).append Moves.barred.reads)

theorem Spells.ended {outcome : Except Failure Value}
    (registered : ∃ i, .registered i d ∈ w.history) (h₁ : Spells w w₁ m₁) (h₂ : Spells w₁ w₂ m₂)
    (h₃ : Spells w₂ w₃ m₃) :
    Spells w w₃ (.before d :: m₁ ++ .original d :: m₂ ++ .after d :: m₃ ++ [.closed d outcome]) := by
  intro stack
  have first : Reads (.before d :: m₁) ⟨w.history, stack⟩ ⟨w₁.history, (.before, d) :: stack⟩ :=
    .cons (.before registered) (h₁ _)
  have second : Reads (.original d :: m₂) ⟨w₁.history, (.before, d) :: stack⟩
      ⟨w₂.history, (.original, d) :: stack⟩ := .cons .original (h₂ _)
  have third : Reads (.after d :: m₃) ⟨w₂.history, (.original, d) :: stack⟩
      ⟨w₃.history, (.after, d) :: stack⟩ := .cons .after (h₃ _)
  exact ((first.append second).append third).append Moves.closed.reads

end Spells

/-- Words of calls tell what happens. -/
def Calls.Spell (calls : Calls) : Prop :=
  ∀ f input w result m, calls f input w result m → Spells w result.2 m

namespace Setting

section Reading

variable {σ : Setting} {calls : Calls} {w w' : World} {d : Descriptor} {m m' : List Mark}

theorem Hooked.spells {usualLine : List Char} {h : Hook} {result : Except Failure Unit × World}
    (spell : calls.Spell) (hooked : σ.Hooked calls usualLine d w h result m) :
    Spells w result.2 m := by
  cases hooked with
  | usual => exact .deed rfl
  | given called => exact spell _ _ _ _ _ called

theorem Invoked.spells {a : Arguments} {result : Except Failure Value × World} (spell : calls.Spell)
    (registered : ∃ i, .registered i d ∈ w.history) (invoked : σ.Invoked calls d a w result m) :
    Spells w result.2 m := by
  cases invoked with
  | barred before => exact (before.spells spell).barred registered
  | ended before original after | overruled before original after =>
    exact .ended registered (before.spells spell) (spell _ _ _ _ _ original) (after.spells spell)

/-- Every word is bracketed and gives the history back. -/
theorem Word.spells (spell : calls.Spell) (word : σ.Word calls w w' m) : Spells w w' m := by
  induction word with
  | nil => exact .nil rfl
  | silent h _ ih => simpa using (Spells.nil h).append ih
  | deed h _ _ ih => exact (Spells.deed h).append ih
  | invoked registered h _ ih => exact (h.spells spell registered).append ih

theorem callWords_spell (depth : Nat) : (σ.callWords depth).Spell := by
  induction depth with
  | zero =>
    intro f input w result m h
    cases f <;>
    · obtain ⟨rfl, rfl⟩ := h
      exact .nil rfl
  | succ depth ih =>
    intro f input w result m h
    cases f with
    | plain v =>
      obtain ⟨rfl, rfl⟩ := h
      exact .nil rfl
    | function id =>
      obtain ⟨-, body, rfl, word⟩ := h
      have called : Spells w (w.record (.call id input)) [.deed (.event (.call id input))] :=
        .deed rfl
      exact called.append (word.spells ih)

end Reading

/-! ## Putting words together -/

section Words

variable {σ : Setting} {calls : Calls} {w w' w'' : World} {d : Descriptor} {m m' : List Mark}

theorem Word.append (h : σ.Word calls w w' m) (h' : σ.Word calls w' w'' m') :
    σ.Word calls w w'' (m ++ m') := by
  induction h with
  | nil => exact h'
  | silent h _ ih => exact .silent h (ih h')
  | deed h other _ ih => exact .deed h other (ih h')
  | invoked registered h _ ih =>
    rw [List.append_assoc]
    exact .invoked registered h (ih h')

theorem Word.of_history_eq (h : w'.history = w.history) : σ.Word calls w w' [] :=
  .silent h .nil

theorem Word.of_deed {e : Deed} (h : w'.history = w.history ++ [e]) (other : e.isCall = false) :
    σ.Word calls w w' [.deed e] :=
  .deed h other .nil

theorem Invoked.word {a : Arguments} {result : Except Failure Value × World}
    (registered : ∃ i, .registered i d ∈ w.history) (h : σ.Invoked calls d a w result m) :
    σ.Word calls w result.2 m := by
  simpa using Word.invoked registered h .nil

end Words

end Setting

/-! ## Every operation -/

/-- Every call has a word. -/
def Call.Writes (calls : Calls) (call : Call) : Prop :=
  ∀ f input w, w.Sound → ∃ m, calls f input w (callReference call input w f) m

/-- What stands under a name has come in. -/
theorem World.Sound.exists_registered {w : World} (hw : w.Sound) {i : Nat} {s : List Char}
    {d : Descriptor} (h : (w.tracer i).find? s = some d) : ∃ j, .registered j d ∈ w.history := by
  obtain ⟨front, back, hentries, -⟩ := List.lookup_eq_some_iff.mp h
  have mem : d ∈ registrations i w.history := by
    rw [← hw.ordered, hentries]
    simp
  obtain ⟨deed, hdeed, heq⟩ := List.mem_filterMap.mp mem
  cases deed with
  | registered j e =>
    obtain ⟨-, rfl⟩ : j = i ∧ e = d := by simpa [Deed.registration?] using heq
    exact ⟨j, hdeed⟩
  | event | traced => cases heq

/-- What is looked up and found has come in. -/
theorem World.Sound.exists_registered_of_lookup {w : World} (hw : w.Sound) {i : Nat} {name : Value}
    {d : Descriptor} (h : (w.tracer i).lookup name = .ok (some d)) :
    ∃ j, .registered j d ∈ w.history := by
  unfold Registry.lookup at h
  split at h
  · cases name with
    | text s => exact hw.exists_registered (Except.ok.inj h)
    | _ => cases h
  · cases h

namespace Setting

variable {σ : Setting} {call : Call} {calls : Calls} {w : World} {d : Descriptor} {a : Arguments}
  {i : Nat}

theorem registerOn_writes (name : Value) (f : Reference) (before after : Option Reference) :
    ∃ m, σ.Word calls w (σ.registerOn i name f before after w).2 m := by
  unfold registerOn
  split
  · exact ⟨[], .nil⟩
  · exact ⟨[], .of_history_eq rfl⟩
  · exact ⟨_, .of_deed rfl rfl⟩

section Writes

variable (keeps : call.Keeps fun _ => True) (writes : call.Writes calls)
include writes

theorem runHook_writes (hw : w.Sound) (usualLine : List Char) (h : Hook) :
    ∃ m, σ.Hooked calls usualLine d w h (σ.runHook call usualLine d w h) m := by
  cases h with
  | usual => exact ⟨_, .usual⟩
  | given r =>
    obtain ⟨m, called⟩ := writes r (.descriptor d) w hw
    exact ⟨m, .given called⟩

include keeps

/-- An invocation has the word of an invocation. -/
theorem bracket_writes (hw : w.Sound) :
    ∃ m, σ.Invoked calls d a w (σ.bracket call d a w) m := by
  obtain ⟨m₁, before⟩ := runHook_writes (σ := σ) (d := d) writes hw beforeLine d.before
  have leads₁ := runHook_leads (σ := σ) (d := d) keeps hw.within beforeLine d.before
  rcases h₁ : σ.runHook call beforeLine d w d.before with ⟨_ | _, w₁⟩ <;> rw [h₁] at before leads₁
  · simp only [bracket, h₁]
    exact ⟨_, .barred before⟩
  · have hw₁ := leads₁.sound hw
    obtain ⟨m₂, original⟩ := writes d.original (.arguments a) w₁ hw₁
    have leads₂ := callReference_leads (f := d.original) keeps hw₁.within (.arguments a)
    rcases h₂ : callReference call (.arguments a) w₁ d.original with ⟨outcome, w₂⟩
    rw [h₂] at original leads₂
    have hw₂ := leads₂.sound hw₁
    obtain ⟨m₃, after⟩ := runHook_writes (σ := σ) (d := d) writes hw₂ afterLine d.after
    rcases h₃ : σ.runHook call afterLine d w₂ d.after with ⟨_ | _, w₃⟩ <;> rw [h₃] at after <;>
      simp only [bracket, h₁, h₂, h₃]
    · exact ⟨_, .overruled before original after⟩
    · exact ⟨_, .ended before original after⟩

theorem invokeOn_writes (hw : w.Sound) (name : Value) :
    ∃ m, σ.Word calls w (σ.invokeOn call i name a w).2 m := by
  unfold invokeOn
  split
  · exact ⟨[], .nil⟩
  · exact ⟨[], .nil⟩
  · next d h =>
    obtain ⟨m, invoked⟩ := bracket_writes (σ := σ) (d := d) (a := a) keeps writes hw
    exact ⟨m, invoked.word (hw.exists_registered_of_lookup h)⟩

theorem createTraceOn_writes (hw : w.Sound) (hi : i < w.tracers.length) (name : Value)
    (f : Reference) : ∃ m, σ.Word calls w (σ.createTraceOn call i name f w).2 m := by
  rcases refuses_or_admits hi name f .usual .usual with refuses | ⟨s, rfl, admits⟩
  · obtain ⟨logs, h⟩ := createTraceOn_of_refuses (σ := σ) call refuses
    rw [h]
    exact ⟨[], .of_history_eq rfl⟩
  · rw [createTraceOn_of_admits admits]
    let d : Descriptor := .usual s f
    have created : (w.create i d).Sound := (hw.put admits).note fun _ => rfl
    obtain ⟨m, invoked⟩ := bracket_writes (σ := σ) (d := d) (a := ⟨[], []⟩) keeps writes created
    have word := invoked.word (created.exists_registered (find?_create (d := d) hi))
    have put : (w.put i d).history = w.history ++ [.registered i d] := rfl
    have traced : (w.create i d).history = (w.put i d).history ++ [.traced i s] := rfl
    exact ⟨_, .deed put rfl (.deed traced rfl word)⟩

theorem constructOn_writes (fs : List Reference) (hw : w.Sound) (hi : i < w.tracers.length) :
    ∃ m, σ.Word calls w (σ.constructOn call i fs w).2 m := by
  induction fs generalizing w with
  | nil => exact ⟨[], .nil⟩
  | cons f rest ih =>
    let name : Value := .text (f.traceName σ.namings)
    obtain ⟨m, word⟩ := createTraceOn_writes (σ := σ) keeps writes hw hi name f
    have leads := createTraceOn_leads (σ := σ) keeps hw.within trivial hi name f
    rw [constructOn]
    rcases h : σ.createTraceOn call i name f w with ⟨_ | _, w₁⟩ <;> rw [h] at word leads
    · exact ⟨m, word⟩
    · obtain ⟨m', word'⟩ := ih (leads.sound hw) (hi.trans_le leads.length_le)
      exact ⟨m ++ m', word.append word'⟩

/-- Every operation has a word. -/
theorem perform_writes (hw : w.Sound) (s : Step) : ∃ m, σ.Word calls w (σ.perform call w s).2 m := by
  cases s with
  | construct fs =>
    have made : Change (fun _ => True) w w.opened := .opened
    obtain ⟨m, word⟩ := constructOn_writes (σ := σ) (i := w.tracers.length) keeps writes fs
      (made.sound hw) (by simp)
    have opened : w.opened.history = w.history := rfl
    rw [perform]
    rcases h : σ.constructOn call w.tracers.length fs w.opened with ⟨_ | _, w₁⟩ <;> rw [h] at word
    · exact ⟨m, .silent opened word⟩
    · exact ⟨m ++ [], .silent opened (word.append (.of_history_eq rfl))⟩
  | createTrace name f => exact createTraceOn_writes keeps writes hw hw.isMade name f
  | register name f before after => exact registerOn_writes name f before after
  | invoke name a => exact invokeOn_writes keeps writes hw name
  | contains | size => exact ⟨[], .nil⟩
  | descriptor name =>
    rw [perform]
    split <;> exact ⟨[], .nil⟩

/-- So has what a function does. -/
theorem act_writes (hw : w.Sound) (p : Program) : ∃ m, σ.Word calls w (σ.act call p w).2 m := by
  induction p generalizing w with
  | finish outcome => exact ⟨[], .nil⟩
  | emit line next ih =>
    let emitted := w.record (.line line)
    have change : Change (fun _ => True) w emitted := .event _
    have line : emitted.history = w.history ++ [.event (.line line)] := rfl
    obtain ⟨m, word⟩ := ih _ emitted (change.sound hw)
    exact ⟨_, .deed line rfl word⟩
  | perform s next ih =>
    obtain ⟨m, word⟩ := perform_writes (σ := σ) keeps writes hw s
    have leads := perform_leads (σ := σ) keeps hw.within s
    rcases h : σ.perform call w s with ⟨outcome, w₁⟩
    rw [h] at word leads
    let ended := w₁.record (.step outcome)
    have change : Change (fun _ => True) w₁ ended := .event _
    have step : ended.history = w₁.history ++ [.event (.step outcome)] := rfl
    obtain ⟨m', word'⟩ := ih outcome ended (change.sound (leads.sound hw))
    simp only [act, h]
    exact ⟨_, word.append (.deed step rfl word')⟩

end Writes

/-- At every depth, calls have words. -/
theorem writes_callWithin (depth : Nat) :
    (σ.callWithin depth).Writes (σ.callWords depth) := by
  induction depth with
  | zero =>
    intro f input w _
    cases f <;> exact ⟨[], rfl, rfl⟩
  | succ depth ih =>
    intro f input w hw
    cases f with
    | plain v => exact ⟨[], rfl, rfl⟩
    | function id =>
      let called := w.record (.call id input)
      have change : Change (fun _ => True) w called := .event _
      obtain ⟨m, word⟩ := act_writes (σ := σ) (keeps_callWithin depth) ih (change.sound hw)
        (σ.behaviour id input called)
      exact ⟨_, rfl, m, rfl, word⟩

theorem runAll_writes (hw : w.Sound) (depth : Nat) (steps : List Step) :
    ∃ m, σ.Word (σ.callWords depth) w (σ.runAll depth steps w) m := by
  induction steps generalizing w with
  | nil => exact ⟨[], .nil⟩
  | cons s rest ih =>
    have keeps : (σ.callWithin depth).Keeps fun _ => True := keeps_callWithin depth
    obtain ⟨m, word⟩ := perform_writes (σ := σ) keeps (writes_callWithin depth) hw.fresh s
    have leads := perform_leads (σ := σ) keeps hw.fresh.within s
    obtain ⟨m', word'⟩ := ih (leads.sound hw.fresh)
    have fresh : w.fresh.history = w.history := rfl
    exact ⟨m ++ m', .silent fresh (word.append word')⟩

end Setting

/-- **Invocations are bracketed by their hooks.**  Every run has a word: all functions that are called
in it, at whatever depth, are called as the parts of invocations, which are properly nested.  Every
invocation of what stands under a name, in whatever world and at whatever depth, runs the hook
before, then the function with the arguments, then the hook after, each once, and comes to what the
function comes to unless a hook fails. -/
theorem invocations_nest (σ : Setting) (depth : Nat) :
    (∀ steps, ∃ m, σ.Word (σ.callWords depth) .start (σ.runAll depth steps .start) m ∧
      Reads m ⟨[], []⟩ ⟨(σ.runAll depth steps .start).history, []⟩) ∧
    ∀ w : World, w.Sound → ∀ i s d, (w.tracer i).find? s = some d → ∀ a,
      let invoked := σ.invokeOn (σ.callWithin depth) i (.text s) a w
      ∃ m, σ.Invoked (σ.callWords depth) d a w invoked m ∧ Spells w invoked.2 m := by
  have spell : (σ.callWords depth).Spell := Setting.callWords_spell depth
  refine ⟨fun steps => ?_, fun w hw i s d stands a => ?_⟩
  · obtain ⟨m, word⟩ := Setting.runAll_writes (σ := σ) World.sound_start depth steps
    exact ⟨m, word, word.spells spell []⟩
  · rw [Setting.invokeOn_of_find? stands]
    obtain ⟨m, invoked⟩ := Setting.bracket_writes (σ := σ) (d := d) (a := a)
      (Setting.keeps_callWithin depth) (Setting.writes_callWithin depth) hw
    exact ⟨m, invoked, invoked.spells spell (hw.exists_registered stands)⟩

/-- A function that fails after it invoked another one, which its hook before invokes as well, and the
hook after it. -/
def watched : Functions :=
  [(['f'], ⟨⟨none, none, ['f'], false⟩,
    [.step (.invoke (.text ['g']) ⟨[], []⟩), .raise .value (.text ['!'])]⟩),
   (['g'], ⟨⟨none, none, ['g'], false⟩, [.giveBack (.integer 1)]⟩),
   (['b'], ⟨⟨none, none, ['b'], false⟩, [.step (.invoke (.text ['g']) ⟨[], []⟩)]⟩),
   (['c'], ⟨⟨none, none, ['c'], false⟩, []⟩)]

theorem invocations_nest_watched :
    let σ := watched.setting
    let w := σ.runAll 3 [.register (.text ['g']) (.function ['g']) none none,
      .register (.text ['f']) (.function ['f']) (some (.function ['b'])) (some (.function ['c']))] .start
    let d : Descriptor := ⟨['f'], .function ['f'], .given (.function ['b']), .given (.function ['c'])⟩
    let a : Arguments := ⟨[.integer 2], []⟩
    let invoked := σ.invokeOn (σ.callWithin 3) 0 (.text ['f']) a w
    w.Sound ∧ (w.tracer 0).find? ['f'] = some d ∧ invoked.1 = .error (.raised .value ['!']) ∧
      ∃ m, σ.Invoked (σ.callWords 3) d a w invoked m ∧ Spells w invoked.2 m := by
  intro σ w d a invoked
  have sound : w.Sound := (Setting.runAll_sound World.sound_start 3 _).1
  obtain ⟨-, invocations⟩ := invocations_nest σ 3
  exact ⟨sound, rfl, rfl, invocations w sound 0 ['f'] d rfl a⟩

end CallTrace.Tracer
