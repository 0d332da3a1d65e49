import CallTrace.Emission

/-!
# Lines arrive

A line comes to stand where the sink that it is written on writes, behind all that stands there
already.  So what stands anywhere in the end is read off the writes of the history (`runAll_prints`);
and where all sinks are streams, these are what the operations sent (`writes_runAll`).

A sink is told to write on the stream it was given, or else on the standard error.  It does so, but
for one that was given a stream that counts as false: that one writes on the standard error, and
`lines_arrive` says which places this shows in.
-/

namespace CallTrace.Emission

/-- A line, and the sink that it is written on. -/
abbrev Line := Current × Value

/-- Where lines come to stand. -/
inductive Outlet
  | standardError
  | stream (name : List Char)
  deriving DecidableEq

/-- What stands there. -/
def State.printedAt (s : State) : Outlet → List Char
  | .standardError => s.standardError
  | .stream name => (s.streams.lookup name).getD []

/-- Where a sink is told to write: on the stream it was given, or else on the standard error. -/
def Sink.told? (id : List Char) : Sink → Option Outlet
  | .stream (.given name _) => some (.stream (name.getD id))
  | .stream .absent => some .standardError
  | .program _ | .logging .. => none

/-- The sink was given a stream that counts as false. -/
def Sink.IsDeaf : Sink → Prop
  | .stream (.given _ isFalsy) => isFalsy = true
  | .stream .absent | .program _ | .logging .. => False

/-- Where a sink writes. -/
def Sink.outlet? (id : List Char) : Sink → Option Outlet
  | .stream (.given name isFalsy) =>
    some (if isFalsy then .standardError else .stream (name.getD id))
  | .stream .absent => some .standardError
  | .program _ | .logging .. => none

section Places

variable (sinks : Sinks)

/-- Where a line is told to stand by the sink that it is written on. -/
def Current.told? (c : Current) : Option Outlet :=
  (currentSink sinks c).2.told? (currentSink sinks c).1

/-- Where a line comes to stand by the sink that it is written on. -/
def Current.outlet? (c : Current) : Option Outlet :=
  (currentSink sinks c).2.outlet? (currentSink sinks c).1

/-- The sink was given a stream that counts as false. -/
def Current.IsDeaf (c : Current) : Prop := (currentSink sinks c).2.IsDeaf

end Places

/-- The lines that are written. -/
def writes (history : List Deed) : List Line :=
  history.filterMap fun
    | .write target line => some (target, line)
    | _ => none

/-- The text of the lines that belong in one place, one below the other. -/
def textAt (place : Current → Option Outlet) (o : Outlet) (lines : List Line) : List Char :=
  (lines.filter fun l => place l.1 = some o).flatMap fun l => printed l.2

/-- The line that an operation sends, and the sink that it goes to. -/
def Step.sends (c : Current) : Step → Option Line
  | .setSink _ | .getSink => none
  | .emit line | .emitThrough line _ => some (c.resolved, line)
  | .write id line => some (.given id, line)

/-- The sink that is current after an operation. -/
def Step.next (c : Current) : Step → Current
  | .setSink id => .of id
  | .getSink | .emit _ | .emitThrough .. => c.resolved
  | .write .. => c

/-- The lines that operations send, one after the other. -/
def sent (c : Current) : List Step → List Line
  | [] => []
  | step :: steps => (step.sends c).toList ++ sent (step.next c) steps

/-! ## Text by place -/

section Text

variable {place other : Current → Option Outlet} {o : Outlet} {l : Line} {lines lines' : List Line}

@[simp]
theorem textAt_nil : textAt place o [] = [] := rfl

theorem textAt_cons : textAt place o (l :: lines) =
    (if place l.1 = some o then printed l.2 else []) ++ textAt place o lines := by
  by_cases h : place l.1 = some o <;> simp [textAt, h]

theorem textAt_append : textAt place o (lines ++ lines') =
    textAt place o lines ++ textAt place o lines' := by
  simp [textAt]

theorem writes_append {t t' : List Deed} : writes (t ++ t') = writes t ++ writes t' := by
  simp [writes]

theorem length_printed_pos (line : Value) : 0 < (printed line).length := by simp [printed]

/-- Fewer lines have less text. -/
theorem length_textAt_le (h : ∀ l ∈ lines, place l.1 = some o → other l.1 = some o) :
    (textAt place o lines).length ≤ (textAt other o lines).length := by
  induction lines with
  | nil => exact Nat.le_refl _
  | cons l lines ih =>
    have here := h l (by simp)
    have rest := ih fun l hl => h l (List.mem_cons_of_mem _ hl)
    rw [textAt_cons, textAt_cons]
    by_cases hp : place l.1 = some o
    · simp [hp, here hp, rest]
    · simp only [hp, if_false, List.nil_append, List.length_append]
      omega

/-- Of two places the one of which takes every line that the other takes, both have the same text only if
they take the same lines. -/
theorem textAt_eq_iff (h : ∀ l ∈ lines, place l.1 = some o → other l.1 = some o) :
    textAt place o lines = textAt other o lines ↔
      ∀ l ∈ lines, other l.1 = some o → place l.1 = some o := by
  induction lines with
  | nil => simp
  | cons l lines ih =>
    have later := fun l hl => h l (List.mem_cons_of_mem _ hl)
    have shorter := length_textAt_le later
    have here := h l (by simp)
    rw [textAt_cons, textAt_cons, List.forall_mem_cons, ← ih later]
    by_cases hp : place l.1 = some o
    · simp [hp, here hp]
    · by_cases ho : other l.1 = some o
      · -- the line is missing from a text that is no longer than the other one without it
        simp only [hp, ho, if_true, if_false, List.nil_append, forall_const, false_and, iff_false]
        intro he
        have := congrArg List.length he
        have := length_printed_pos l.2
        rw [List.length_append] at *
        omega
      · simp [hp, ho]

end Text

/-! ## Where lines come to stand -/

namespace Sink

variable {id name : List Char} {o : Outlet}

theorem streamName?_of_outlet? (sink : Sink) (h : sink.outlet? id = some (.stream name)) :
    sink.streamName? id = some name := by
  rcases sink with _ | (⟨_, isFalsy⟩ | _) | _
  · cases h
  · cases isFalsy with
    | false => simpa [outlet?, streamName?] using h
    | true => cases h
  · cases h
  · cases h

/-- A sink writes where it is told to, but for one that was given a stream that counts as false. -/
theorem outlet?_eq_told? (sink : Sink) (h : ¬sink.IsDeaf) : sink.outlet? id = sink.told? id := by
  rcases sink with _ | (⟨_, isFalsy⟩ | _) | _
  · rfl
  · have heard : isFalsy = false := by simpa [IsDeaf] using h
    simp [outlet?, told?, heard]
  · rfl
  · rfl

/-- That one was told to write on its stream, and it writes on the standard error. -/
theorem IsDeaf.outlet?_and_told? {sink : Sink} (h : sink.IsDeaf) (id : List Char) :
    sink.outlet? id = some .standardError ∧ ∃ name, sink.told? id = some (.stream name) := by
  rcases sink with _ | (⟨_, isFalsy⟩ | _) | _
  · cases h
  · cases h
    exact ⟨rfl, _, rfl⟩
  · cases h
  · cases h

end Sink

/-! ## What stands where -/

namespace State

/-- Adds text at a place. -/
def print (s : State) (text : List Char) : Outlet → State
  | .standardError => s.complain text
  | .stream name => s.append name text

/-- Every stream that a sink writes on is there. -/
def Holds (sinks : Sinks) (s : State) : Prop :=
  ∀ c name, Current.outlet? sinks c = some (.stream name) → name ∈ s.streams.map Prod.fst

variable {s : State} {name text : List Char}

theorem lookup_append (k : List Char) : (s.append name text).streams.lookup k =
    (s.streams.lookup k).map fun content => if k = name then content ++ text else content := by
  unfold append
  induction s.streams with
  | nil => rfl
  | cons p rest ih =>
    obtain ⟨k', content⟩ := p
    by_cases hk : k = k'
    · simp [hk]
    · simp only [List.map_cons, List.lookup_cons, beq_false_of_ne hk]
      exact ih

theorem names_append : (s.append name text).streams.map Prod.fst = s.streams.map Prod.fst := by
  simp [append, Function.comp_def]

theorem names_print (o : Outlet) : (s.print text o).streams.map Prod.fst = s.streams.map Prod.fst := by
  cases o with
  | standardError => rfl
  | stream name => exact names_append

/-- Text comes to stand where it is added, behind what stands there, and nowhere else. -/
theorem printedAt_print {o : Outlet} (h : ∀ name, o = .stream name → name ∈ s.streams.map Prod.fst)
    (o' : Outlet) :
    (s.print text o).printedAt o' = s.printedAt o' ++ if o = o' then text else [] := by
  cases o with
  | standardError => cases o' <;> simp [print, complain, printedAt]
  | stream name =>
    cases o' with
    | standardError => simp [print, append, printedAt]
    | stream k =>
      simp only [print, printedAt, lookup_append, Outlet.stream.injEq]
      cases hk : s.streams.lookup k with
      | none =>
        have absent : k ∉ s.streams.map Prod.fst := by
          intro hmem
          obtain ⟨p, hp, rfl⟩ := List.mem_map.1 hmem
          simpa using List.lookup_eq_none_iff.1 hk p hp
        have other : name ≠ k := fun he => absent (he ▸ h name rfl)
        simp [other]
      | some content =>
        by_cases he : k = name
        · simp [he]
        · simp [he, Ne.symm he]

/-- Where nothing is written yet, nothing stands. -/
theorem printedAt_start (sinks : Sinks) (o : Outlet) : (start sinks).printedAt o = [] := by
  cases o with
  | standardError => rfl
  | stream name =>
    have empty (names : List (List Char)) :
        ((names.map fun name => (name, ([] : List Char))).lookup name).getD [] = [] := by
      induction names with
      | nil => rfl
      | cons k names ih =>
        rw [List.map_cons, List.lookup_cons]
        split
        · rfl
        · exact ih
    exact empty _

/-- The streams of all sinks are there from the start. -/
theorem holds_start (sinks : Sinks) : (start sinks).Holds sinks := by
  intro c name h
  cases c with
  | unset | usual => cases h
  | given id =>
    simp only [Current.outlet?, currentSink] at h
    cases hs : sinks.lookup id with
    | none =>
      rw [hs] at h
      cases h
    | some sink =>
      rw [hs] at h
      obtain ⟨front, rest, heq, -⟩ := List.lookup_eq_some_iff.1 hs
      have mem : (id, sink) ∈ sinks := by simp [heq]
      simp only [start, List.map_map, Function.comp_def, List.map_id', List.mem_eraseDups,
        List.mem_filterMap]
      exact ⟨_, mem, sink.streamName?_of_outlet? h⟩

end State

/-! ## What one operation after the other prints -/

/-- From one state to the other the streams are the same, and to what stands anywhere the lines are added
that are written meanwhile. -/
structure Prints (sinks : Sinks) (s s' : State) : Prop where
  names : s'.streams.map Prod.fst = s.streams.map Prod.fst
  extended : ∃ t, s'.history = s.history ++ t ∧
    (s.Holds sinks → ∀ o, s'.printedAt o = s.printedAt o ++ textAt (Current.outlet? sinks) o (writes t))

section Prints

variable {sinks : Sinks} {s s' s'' : State} {emit : Emitter}

theorem Prints.of_eq (streams : s'.streams = s.streams)
    (standardError : s'.standardError = s.standardError) (history : s'.history = s.history) :
    Prints sinks s s' := by
  refine ⟨congrArg _ streams, [], by simp [history], fun _ o => ?_⟩
  cases o with
  | standardError => simpa [State.printedAt, writes] using standardError
  | stream name => simp [State.printedAt, writes, streams]

theorem Prints.trans (h : Prints sinks s s') (h' : Prints sinks s' s'') : Prints sinks s s'' := by
  obtain ⟨t, ht, added⟩ := h.extended
  obtain ⟨t', ht', added'⟩ := h'.extended
  refine ⟨h'.names.trans h.names, t ++ t', by simp [ht', ht], fun holds o => ?_⟩
  have holds' : s'.Holds sinks := fun c name hc => h.names ▸ holds c name hc
  rw [added' holds' o, added holds o, writes_append, textAt_append, List.append_assoc]

/-- An entry of the history other than a write that prints. -/
theorem prints_note {e : Deed} (h : ∀ o, textAt (Current.outlet? sinks) o (writes [e]) = []) :
    Prints sinks s (s.note e) :=
  ⟨rfl, [e], rfl, fun _ o => by rw [h o, List.append_nil]; rfl⟩

theorem prints_setSink (id : Option (List Char)) : Prints sinks s (setSink s id) :=
  (prints_note (e := .set id) fun _ => rfl).trans (.of_eq rfl rfl rfl)

theorem act_prints (emits : ∀ line s, Prints sinks s (emit line s).2) (p : Program) :
    Prints sinks s (act emit p s).2 := by
  induction p generalizing s with
  | finish outcome => exact .of_eq rfl rfl rfl
  | leave t next ih =>
    let left : State := { s with trail := s.trail ++ [t] }
    have first : Prints sinks s left := .of_eq rfl rfl rfl
    exact first.trans (ih left)
  | emit line next ih | emitThrough line value next ih => exact (emits line s).trans (ih _ _)
  | setSink id next ih => exact (prints_setSink id).trans (ih _ _)

theorem writeLog_prints (threshold : Int) (logger : List Char) (line level : Value) :
    Prints sinks s (writeLog threshold logger line s level).2 := by
  unfold writeLog
  split
  · exact .of_eq rfl rfl rfl
  · split <;> exact .of_eq rfl rfl rfl

/-- What is written on a stream comes to stand where the sink writes. -/
theorem exists_writeStream_eq (id : List Char) (line : Value) (target : Stream) :
    ∃ o, (Sink.stream target).outlet? id = some o ∧
      writeStream id line s target = s.print (printed line) o := by
  rcases target with ⟨_, isFalsy⟩ | _
  · cases isFalsy with
    | false => exact ⟨_, rfl, rfl⟩
    | true => exact ⟨_, rfl, rfl⟩
  · exact ⟨_, rfl, rfl⟩

theorem write_prints (emits : ∀ line s, Prints sinks s (emit line s).2) (threshold : Int)
    (target : Current) (line : Value) :
    Prints sinks s (write sinks threshold emit target line s).2 := by
  have ended {s' : State} : Prints sinks s' (s'.note .written) := prints_note fun _ => rfl
  have begun (silent : Current.outlet? sinks target = none) :
      Prints sinks s (s.note (.write target line)) :=
    prints_note fun o => by simp [writes, textAt, silent]
  cases hsink : (currentSink sinks target).2 with
  | program body =>
    have begun := begun (by simp [Current.outlet?, hsink, Sink.outlet?])
    simp only [write, writeOn, hsink]
    exact (begun.trans (act_prints emits _)).trans ended
  | logging logger level =>
    have begun := begun (by simp [Current.outlet?, hsink, Sink.outlet?])
    simp only [write, writeOn, hsink]
    exact (begun.trans (writeLog_prints ..)).trans ended
  | stream stream =>
    obtain ⟨o, ho, heq⟩ := exists_writeStream_eq (s := s.note (.write target line))
      (currentSink sinks target).1 line stream
    have there : Current.outlet? sinks target = some o := by simp [Current.outlet?, hsink, ho]
    simp only [write, writeOn, hsink, heq]
    refine ⟨State.names_print o, [.write target line, .written], ?_, fun holds o' => ?_⟩
    · cases o <;> simp [State.print, State.complain, State.append, State.note]
    · have stands : ((s.note (.write target line)).print (printed line) o).printedAt o' =
          s.printedAt o' ++ if o = o' then printed line else [] :=
        State.printedAt_print (s := s.note _) (fun name he => holds target name (he ▸ there)) o'
      have whole : textAt (Current.outlet? sinks) o' (writes [.write target line, .written]) =
          if o = o' then printed line else [] := by
        simp [writes, textAt_cons, there]
      rw [whole]
      exact stands

theorem emitWith_prints (emits : ∀ line s, Prints sinks s (emit line s).2) (threshold : Int)
    (line : Value) : Prints sinks s (emitWith sinks threshold emit line s).2 := by
  have begun : Prints sinks s (s.note (.emission line)) := prints_note fun _ => rfl
  rw [emitWith]
  split
  · exact begun
  · let raised : State := { (s.note (.emission line)).resolved with isWriting := true }
    have up : Prints sinks (s.note (.emission line)) raised := .of_eq rfl rfl rfl
    have written := write_prints (s := raised) emits threshold raised.current line
    exact ((begun.trans up).trans written).trans (.of_eq rfl rfl rfl)

theorem emit_prints (threshold : Int) (line : Value) :
    Prints sinks s (Emission.emit sinks threshold line s).2 :=
  have dropped (_ : Value) (s : State) : Prints sinks s s := .of_eq rfl rfl rfl
  emitWith_prints (fun line _ => emitWith_prints dropped threshold line) threshold line

theorem perform_prints (threshold : Int) (step : Step) :
    Prints sinks s (perform sinks threshold s step).2 := by
  cases step with
  | setSink id => exact prints_setSink id
  | getSink => exact .of_eq rfl rfl rfl
  | emit line | emitThrough line value => exact emit_prints threshold line
  | write id line => exact write_prints (fun line _ => emit_prints threshold line) threshold (.given id) line

theorem runAll_prints (threshold : Int) (steps : List Step) :
    Prints sinks s (runAll sinks threshold steps s) := by
  induction steps generalizing s with
  | nil => exact .of_eq rfl rfl rfl
  | cons step steps ih => exact (perform_prints threshold step).trans ih

end Prints

/-! ## The lines that were sent -/

section Sent

variable {sinks : Sinks} {threshold : Int} {s : State}

/-- Every sink is a stream. -/
def IsPlain (sinks : Sinks) : Prop := ∀ p ∈ sinks, ∃ target, p.2 = .stream target

theorem IsPlain.exists_stream (h : IsPlain sinks) (c : Current) :
    ∃ target, (currentSink sinks c).2 = .stream target := by
  cases c with
  | unset | usual => exact ⟨_, rfl⟩
  | given id =>
    simp only [currentSink]
    cases hs : sinks.lookup id with
    | none => exact ⟨_, rfl⟩
    | some sink =>
      obtain ⟨front, rest, heq, -⟩ := List.lookup_eq_some_iff.1 hs
      exact h (id, sink) (by simp [heq])

/-- A write on a stream is one write, and nothing else happens. -/
theorem write_of_isPlain (h : IsPlain sinks) (threshold : Int) (emit : Emitter) (target : Current)
    (line : Value) :
    let s' := (write sinks threshold emit target line s).2
    s'.current = s.current ∧ s'.isWriting = s.isWriting ∧
      writes s'.history = writes s.history ++ [(target, line)] := by
  obtain ⟨stream, hsink⟩ := h.exists_stream target
  obtain ⟨o, -, heq⟩ := exists_writeStream_eq (s := s.note (.write target line))
    (currentSink sinks target).1 line stream
  simp only [write, writeOn, hsink, heq]
  cases o <;> simp [State.print, State.complain, State.append, State.note, writes]

theorem emitWith_of_isPlain (h : IsPlain sinks) (emit : Emitter) (line : Value)
    (down : s.isWriting = false) :
    let s' := (emitWith sinks threshold emit line s).2
    s'.current = s.current.resolved ∧ s'.isWriting = false ∧
      writes s'.history = writes s.history ++ [(s.current.resolved, line)] := by
  let raised : State := { (s.note (.emission line)).resolved with isWriting := true }
  obtain ⟨current, -, lines⟩ := write_of_isPlain (s := raised) h threshold emit raised.current line
  have lowered : ¬(s.note (.emission line)).isWriting = true := ne_true_of_eq_false down
  have before : writes raised.history = writes s.history := by
    simp [raised, State.note, State.resolved, writes]
  rw [emitWith, if_neg lowered]
  exact ⟨current, rfl, lines.trans (by rw [before]; rfl)⟩

theorem perform_of_isPlain (h : IsPlain sinks) (threshold : Int) (step : Step)
    (down : s.isWriting = false) :
    let s' := (perform sinks threshold s step).2
    s'.current = step.next s.current ∧ s'.isWriting = false ∧
      writes s'.history = writes s.history ++ (step.sends s.current).toList := by
  cases step with
  | setSink id => exact ⟨rfl, down, by simp [perform, setSink, State.note, writes, Step.sends]⟩
  | getSink => exact ⟨rfl, down, by simp [perform, State.resolved, Step.sends]⟩
  | emit line | emitThrough line value => exact emitWith_of_isPlain h _ line down
  | write id line =>
    obtain ⟨current, kept, lines⟩ := write_of_isPlain (s := s) h threshold (emit sinks threshold)
      (.given id) line
    exact ⟨current, kept.trans down, lines⟩

/-- The lines that are written on streams are those that are sent. -/
theorem writes_runAll (h : IsPlain sinks) (steps : List Step) (down : s.isWriting = false) :
    writes (runAll sinks threshold steps s).history = writes s.history ++ sent s.current steps := by
  induction steps generalizing s with
  | nil => simp [runAll, sent]
  | cons step steps ih =>
    obtain ⟨current, down', lines⟩ := perform_of_isPlain h threshold step down
    have rest := ih down'
    rw [lines, current, List.append_assoc] at rest
    exact rest

end Sent

/-! ## Lines that are led astray -/

section Astray

variable {sinks : Sinks} {lines : List Line}

/-- On a stream there are the lines meant for it if and only if the stream counts as true wherever one of
them is written. -/
theorem textAt_stream_eq_iff (name : List Char) :
    textAt (Current.outlet? sinks) (.stream name) lines =
        textAt (Current.told? sinks) (.stream name) lines ↔
      ∀ l ∈ lines, Current.IsDeaf sinks l.1 → Current.told? sinks l.1 ≠ some (.stream name) := by
  have heard (l : Line) (h : ¬Current.IsDeaf sinks l.1) :
      Current.outlet? sinks l.1 = Current.told? sinks l.1 := Sink.outlet?_eq_told? _ h
  have strays (l : Line) (h : Current.IsDeaf sinks l.1) :
      Current.outlet? sinks l.1 ≠ some (.stream name) := fun ho => by
    cases (h.outlet?_and_told? _).1.symm.trans ho
  rw [textAt_eq_iff fun l _ ho => heard l (fun h => strays l h ho) ▸ ho]
  refine ⟨fun same l hl h ht => strays l h (same l hl ht), fun clear l hl ht => ?_⟩
  rw [heard l fun h => clear l hl h ht]
  exact ht

/-- On the standard error there are the lines meant for it if and only if none is written on a stream that
counts as false. -/
theorem textAt_standardError_eq_iff :
    textAt (Current.outlet? sinks) .standardError lines =
        textAt (Current.told? sinks) .standardError lines ↔
      ∀ l ∈ lines, ¬Current.IsDeaf sinks l.1 := by
  have heard (l : Line) (h : ¬Current.IsDeaf sinks l.1) :
      Current.outlet? sinks l.1 = Current.told? sinks l.1 := Sink.outlet?_eq_told? _ h
  have strays (l : Line) (h : Current.IsDeaf sinks l.1) :
      Current.outlet? sinks l.1 = some .standardError ∧
        ∃ name, Current.told? sinks l.1 = some (.stream name) := h.outlet?_and_told? _
  have meant (l : Line) (ht : Current.told? sinks l.1 = some .standardError) :
      ¬Current.IsDeaf sinks l.1 := fun h => by
    obtain ⟨-, name, hname⟩ := strays l h
    cases hname.symm.trans ht
  rw [eq_comm, textAt_eq_iff fun l _ ht => (heard l (meant l ht)).trans ht]
  refine ⟨fun same l hl h => meant l (same l hl (strays l h).1) h, fun clear l hl ho => ?_⟩
  rw [← heard l (clear l hl)]
  exact ho

end Astray

/-- **Lines arrive.**  After every run, what stands anywhere is the text of the lines that were written on
the sinks that write there, one below the other; and where every sink is a stream, these lines are the
ones that were sent.  On a stream there are the lines that were meant for it, and on the standard error
those that were meant for that, if and only if none of them was written on a sink whose stream counts
as false: that sink writes on the standard error. -/
theorem lines_arrive (sinks : Sinks) (threshold : Int) (steps : List Step) :
    let s := runAll sinks threshold steps (.start sinks)
    let lines := writes s.history
    (∀ o, s.printedAt o = textAt (Current.outlet? sinks) o lines) ∧
    (∀ name, s.printedAt (.stream name) = textAt (Current.told? sinks) (.stream name) lines ↔
      ∀ l ∈ lines, Current.IsDeaf sinks l.1 → Current.told? sinks l.1 ≠ some (.stream name)) ∧
    (s.printedAt .standardError = textAt (Current.told? sinks) .standardError lines ↔
      ∀ l ∈ lines, ¬Current.IsDeaf sinks l.1) ∧
    (IsPlain sinks → lines = sent .unset steps) := by
  intro s lines
  have stands (o : Outlet) : s.printedAt o = textAt (Current.outlet? sinks) o lines := by
    obtain ⟨-, t, whole, added⟩ : Prints sinks (.start sinks) s := runAll_prints threshold steps
    have all : s.history = t := whole
    have printed := added (State.holds_start sinks) o
    rw [State.printedAt_start, List.nil_append] at printed
    simpa [lines, all] using printed
  refine ⟨stands, fun name => ?_, ?_, fun h => ?_⟩
  · rw [stands]
    exact textAt_stream_eq_iff name
  · rw [stands]
    exact textAt_standardError_eq_iff
  · exact writes_runAll h steps rfl

/-- Two sinks that share a stream, and one with a stream of its own. -/
def sharedStream : Sinks :=
  [(['a'], .stream (.given (some ['t']) false)), (['b'], .stream (.given (some ['t']) false)),
   (['c'], .stream .memory)]

/-- Lines from both of them come to stand on the stream in the order of the operations. -/
theorem lines_arrive_shared :
    let line (c : Char) : Value := .text [c]
    let steps : List Step :=
      [.emit (line 'u'), .setSink (some ['a']), .emit (line 'v'), .setSink (some ['b']),
        .emitThrough (line 'w') .nothing, .write ['c'] (line 'x'), .write ['a'] (line 'y')]
    let s := runAll sharedStream 1 steps (.start sharedStream)
    IsPlain sharedStream ∧ writes s.history = sent .unset steps ∧
      s.printedAt (.stream ['t']) =
        textAt (Current.told? sharedStream) (.stream ['t']) (writes s.history) ∧
      s.printedAt (.stream ['t']) = "v\nw\ny\n".toList ∧ s.printedAt .standardError = "u\n".toList := by
  intro line steps s
  obtain ⟨-, streams, -, plain⟩ := lines_arrive sharedStream 1 steps
  have isPlain : IsPlain sharedStream := by simp [IsPlain, sharedStream]
  have lines := plain isPlain
  have heard : ∀ l ∈ writes s.history, ¬Current.IsDeaf sharedStream l.1 := by
    rw [lines]
    simp [steps, sent, Step.sends, Step.next, Current.resolved, Current.of, Current.IsDeaf,
      currentSink, sharedStream, List.lookup_cons, Sink.IsDeaf, Stream.memory]
  exact ⟨isPlain, lines, (streams ['t']).2 fun l hl h => absurd h (heard l hl), rfl, rfl⟩

/-- A sink whose stream counts as false leaves nothing on it, and its line is on the standard error. -/
theorem lines_arrive_falsy :
    let sinks : Sinks := [(['a'], .stream .falsy)]
    let steps : List Step := [.setSink (some ['a']), .emit (.text ['x'])]
    let s := runAll sinks 1 steps (.start sinks)
    textAt (Current.told? sinks) (.stream ['a']) (sent .unset steps) = "x\n".toList ∧
      s.printedAt (.stream ['a']) = [] ∧ s.printedAt .standardError = "x\n".toList :=
  ⟨rfl, rfl, rfl⟩

end CallTrace.Emission
