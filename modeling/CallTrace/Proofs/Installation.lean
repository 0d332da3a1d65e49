import CallTrace.Import.Hook
import Mathlib.Logic.Function.Basic

/-!
# At most one load hook

The list of finders is shared with other programs, which put finders of their own
into it and take any finder out of it, load hooks included.  A context whose hook
was taken out still keeps it in mind, and it or another context may put in a new
one.

`Sound` is what all this keeps: there is at most one marked finder, it is the one
that its owner keeps in mind, and what a context keeps in mind is a finder of its
own, older than the next one.  Putting in a hook is the only step that could break
it, and it is refused unless no finder is marked (`Sound.install`); other programs
do not mark finders, and taking one out leaves the others as they are.

From this, the context that has its hook in the list is the owner of the marked
finder (`Sound.isInstalled_iff`), and `hook_once` is the result for all runs.
-/

namespace CallTrace.Import.Finders

/-- What happens to the finders. -/
inductive Move
  /-- A context puts in its load hook, if there is none. -/
  | install (o : Owner)
  /-- Another program puts in a finder that is not marked, behind the first `i` ones. -/
  | insert (i number : Nat)
  /-- Another program takes out the finder behind the first `i` ones. -/
  | remove (i : Nat)

/-- The finders after a move. -/
def move (f : Finders) : Move → Finders
  | .install o => (f.install o).2
  | .insert i number => { f with list := f.list.take i ++ ⟨number, none⟩ :: f.list.drop i }
  | .remove i => { f with list := f.list.eraseIdx i }

/-- The finders after one move after the other. -/
def moveAll (f : Finders) (moves : List Move) : Finders := moves.foldl move f

/-- No load hook is in the list, and none has been. -/
def untouched (list : List Finder) : Finders := { start with list }

/-! ## The hook in the list -/

section Hook

variable {f : Finders} {finder : Finder}

theorem hook?_eq_none_iff : f.hook? = none ↔ ∀ finder ∈ f.list, finder.owner = none := by
  simp [hook?]

theorem countP_of_unmarked {list : List Finder} (unmarked : ∀ finder ∈ list, finder.owner = none) :
    list.countP (·.owner.isSome) = 0 := by
  rw [List.countP_eq_zero]
  intro finder mem
  simp [unmarked finder mem]

theorem mem_of_hook?_eq_some (h : f.hook? = some finder) :
    finder ∈ f.list ∧ finder.owner.isSome = true :=
  ⟨List.mem_of_find?_eq_some h, by simpa using List.find?_some h⟩

theorem install_of_hook? (o : Owner) (h : f.hook? = some finder) : f.install o = (false, f) := by
  simp [install, h]

/-- The finder that a context would put in next. -/
def nextFor (f : Finders) (o : Owner) : Finder := ⟨f.next, some o⟩

theorem install_of_no_hook (o : Owner) (h : f.hook? = none) :
    f.install o = (true, ⟨f.nextFor o :: f.list, Function.update f.own o (some (f.nextFor o)),
      f.next + 1⟩) := by
  have same : (fun other => if other = o then some (f.nextFor o) else f.own other) =
      Function.update f.own o (some (f.nextFor o)) := by
    funext other
    simp [Function.update_apply]
  rw [← same]
  simp [install, h, nextFor]

end Hook

/-! ## The invariant -/

/-- What contexts and other programs keep. -/
structure Sound (f : Finders) : Prop where
  once : f.list.countP (·.owner.isSome) ≤ 1
  /-- A marked finder is the one that its owner keeps in mind. -/
  kept : ∀ finder ∈ f.list, ∀ o, finder.owner = some o → f.own o = some finder
  owner_own : ∀ o finder, f.own o = some finder → finder.owner = some o
  older : ∀ o finder, f.own o = some finder → finder.number < f.next

namespace Sound

variable {f : Finders}

theorem hook_ne_next (sound : f.Sound) (o o' : Owner) : f.own o' ≠ some (f.nextFor o) := by
  intro h
  exact Nat.lt_irrefl _ (sound.older o' _ h)

theorem install (sound : f.Sound) (o : Owner) : (f.install o).2.Sound := by
  rcases h : f.hook? with _ | finder
  · have unmarked := hook?_eq_none_iff.mp h
    rw [install_of_no_hook o h]
    refine ⟨?_, ?_, ?_, ?_⟩
    · simp [countP_of_unmarked unmarked, nextFor]
    · intro finder mem o' owner
      rcases List.mem_cons.mp mem with rfl | mem
      · obtain rfl : o = o' := Option.some.inj owner
        simp
      · rw [unmarked finder mem] at owner
        cases owner
    · intro o' finder own
      rcases eq_or_ne o' o with rfl | ne
      · obtain rfl : f.nextFor o' = finder := by simpa using own
        rfl
      · exact sound.owner_own o' finder (by simpa [ne] using own)
    · intro o' finder own
      rcases eq_or_ne o' o with rfl | ne
      · obtain rfl : f.nextFor o' = finder := by simpa using own
        exact Nat.lt_succ_self f.next
      · exact Nat.lt_succ_of_lt (sound.older o' finder (by simpa [ne] using own))
  · rw [install_of_hook? o h]
    exact sound

/-- A finder that is not marked makes no difference. -/
theorem insert (sound : f.Sound) (i number : Nat) : (f.move (.insert i number)).Sound := by
  refine ⟨?_, ?_, sound.owner_own, sound.older⟩
  · have parted : f.list.countP (·.owner.isSome) = (f.list.take i).countP (·.owner.isSome) +
        (f.list.drop i).countP (·.owner.isSome) := by
      rw [← List.countP_append, List.take_append_drop]
    have once := sound.once
    rw [parted] at once
    simpa [Finders.move] using once
  · intro finder mem o owner
    rcases List.mem_append.mp mem with mem | mem
    · exact sound.kept finder (List.mem_of_mem_take mem) o owner
    · rcases List.mem_cons.mp mem with rfl | mem
      · cases owner
      · exact sound.kept finder (List.mem_of_mem_drop mem) o owner

/-- What is left of the list is as it was. -/
theorem remove (sound : f.Sound) (i : Nat) : (f.move (.remove i)).Sound := by
  have sublist : (f.list.eraseIdx i).Sublist f.list := List.eraseIdx_sublist f.list i
  exact ⟨Nat.le_trans sublist.countP_le sound.once,
    fun finder mem => sound.kept finder (sublist.subset mem), sound.owner_own, sound.older⟩

theorem move (sound : f.Sound) (m : Move) : (f.move m).Sound := by
  cases m with
  | install o => exact sound.install o
  | insert i number => exact sound.insert i number
  | remove i => exact sound.remove i

theorem moveAll (sound : f.Sound) (moves : List Move) : (f.moveAll moves).Sound := by
  induction moves generalizing f with
  | nil => exact sound
  | cons m moves ih => exact ih (sound.move m)

/-- Two marked finders of the list are one. -/
theorem eq_of_marked (sound : f.Sound) {finder finder' : Finder} (mem : finder ∈ f.list)
    (mem' : finder' ∈ f.list) (marked : finder.owner.isSome = true)
    (marked' : finder'.owner.isSome = true) : finder = finder' := by
  have filtered {x : Finder} (mem : x ∈ f.list) (marked : x.owner.isSome = true) :
      x ∈ f.list.filter (·.owner.isSome) := List.mem_filter.mpr ⟨mem, marked⟩
  have length : (f.list.filter (·.owner.isSome)).length ≤ 1 := by
    rw [← List.countP_eq_length_filter]
    exact sound.once
  rcases h : f.list.filter (·.owner.isSome) with _ | ⟨x, _ | ⟨y, rest⟩⟩
  · simpa [h] using filtered mem marked
  · have one := filtered mem marked
    have other := filtered mem' marked'
    rw [h, List.mem_singleton] at one other
    rw [one, other]
  · simp [h] at length

/-- The context that has its hook in the list is the owner of the marked finder. -/
theorem isInstalled_iff (sound : f.Sound) (o : Owner) :
    f.isInstalled o = true ↔ f.owner? = some o := by
  constructor
  · intro installed
    obtain ⟨finder, own, mem⟩ : ∃ finder, f.own o = some finder ∧ finder ∈ f.list := by
      simpa [isInstalled, Option.any_eq_true] using installed
    have owner := sound.owner_own o finder own
    rcases h : f.hook? with _ | found
    · rw [hook?_eq_none_iff.mp h finder mem] at owner
      cases owner
    · obtain ⟨found_mem, marked⟩ := mem_of_hook?_eq_some h
      obtain rfl := sound.eq_of_marked mem found_mem (by simp [owner]) marked
      simp [owner?, h, owner]
  · intro h
    obtain ⟨finder, hook, owner⟩ := Option.bind_eq_some_iff.mp h
    obtain ⟨mem, -⟩ := mem_of_hook?_eq_some hook
    simp [isInstalled, sound.kept finder mem o owner, mem]

/-- There is a hook if and only if some context has its hook in the list. -/
theorem isSome_hook?_iff (sound : f.Sound) :
    f.hook?.isSome = true ↔ ∃ o, f.isInstalled o = true := by
  simp only [sound.isInstalled_iff]
  rcases h : f.hook? with _ | finder
  · simp [owner?, h]
  · obtain ⟨o, owner⟩ := Option.isSome_iff_exists.mp (mem_of_hook?_eq_some h).2
    simp [owner?, h, owner]

end Sound

theorem sound_untouched {list : List Finder} (unmarked : ∀ finder ∈ list, finder.owner = none) :
    (untouched list).Sound := by
  have none_marked : (untouched list).list.countP (·.owner.isSome) = 0 := countP_of_unmarked unmarked
  refine ⟨Nat.le_trans (Nat.le_of_eq none_marked) (Nat.zero_le 1), ?_, ?_, ?_⟩
  · intro finder mem o owner
    rw [unmarked finder mem] at owner
    cases owner
  · intro o finder own
    cases own
  · intro o finder own
    cases own

/-- **There is at most one load hook.**  Whatever contexts and other programs do to a list that holds
none, at most one finder is marked; the context that has its hook in the list is its owner, if any.  A
context puts in its hook if and only if no finder is marked: then it is a new one, at the front, and is
what the context keeps in mind; else nothing changes. -/
theorem hook_once {list : List Finder} (unmarked : ∀ finder ∈ list, finder.owner = none)
    (moves : List Move) :
    let f := (untouched list).moveAll moves
    f.list.countP (·.owner.isSome) ≤ 1 ∧
    (∀ o, f.isInstalled o = true ↔ f.owner? = some o) ∧
    (f.hook?.isSome = true ↔ ∃ o, f.isInstalled o = true) ∧
    ∀ o,
      let (isNew, f') := f.install o
      (isNew = true ↔ ∀ finder ∈ f.list, finder.owner = none) ∧
      (isNew = true → ∃ finder : Finder, finder.owner = some o ∧ finder ∉ f.list ∧
        (∀ other, f.own other ≠ some finder) ∧ f'.list = finder :: f.list ∧
        f'.own = Function.update f.own o (some finder)) ∧
      (isNew = false → f' = f) := by
  intro f
  have sound : f.Sound := (sound_untouched unmarked).moveAll moves
  refine ⟨sound.once, sound.isInstalled_iff, sound.isSome_hook?_iff, fun o => ?_⟩
  rcases h : f.hook? with _ | found
  · have none_marked := hook?_eq_none_iff.mp h
    rw [install_of_no_hook o h]
    refine ⟨by simpa using none_marked, fun _ => ?_, by simp⟩
    refine ⟨f.nextFor o, rfl, fun mem => ?_, sound.hook_ne_next o, rfl, rfl⟩
    cases none_marked _ mem
  · obtain ⟨mem, marked⟩ := mem_of_hook?_eq_some h
    rw [install_of_hook? o h]
    refine ⟨?_, by simp, fun _ => rfl⟩
    constructor
    · intro isNew
      cases isNew
    · intro none_marked
      rw [none_marked found mem] at marked
      cases marked

theorem hook_once_takenOut :
    let list : List Finder := [⟨5, none⟩]
    let a : Owner := .named ['a']
    let b : Owner := .named ['b']
    -- the hook of one context is taken out, and the other one puts in its own
    let f := (untouched list).moveAll
      [.install a, .install b, .insert 0 7, .remove 1, .install b, .install a]
    (∀ finder ∈ list, finder.owner = none) ∧ f.own a = some ⟨0, some a⟩ ∧
      f.list = [⟨1, some b⟩, ⟨7, none⟩, ⟨5, none⟩] ∧ f.list.countP (·.owner.isSome) ≤ 1 ∧
      (f.isInstalled a = true ↔ f.owner? = some a) ∧
      (f.isInstalled b = true ↔ f.owner? = some b) ∧ (f.install a).2 = f := by
  intro list a b f
  have unmarked : ∀ finder ∈ list, finder.owner = none := by simp [list]
  obtain ⟨once, installed, -, installs⟩ := hook_once unmarked
    [.install a, .install b, .insert 0 7, .remove 1, .install b, .install a]
  exact ⟨unmarked, rfl, rfl, once, installed a, installed b, (installs a).2.2 rfl⟩

end CallTrace.Import.Finders
