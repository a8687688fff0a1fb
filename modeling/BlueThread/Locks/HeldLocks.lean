/-
What the held map of a thread says about the locks it owns.

The map has one entry for each identifier, and objects with one name share their
identifier. It is exact as long as no thread gives back one of two owned locks
with one identifier; `try_lock` lets a thread get into that position, because it
skips the test that `lock` makes.
-/

import BlueThread.Locks.Simulation

namespace BlueThread.Locks

open Lockdep LockProtocol Population

structure Precise (state : State) : Prop where
  exact : Exact state.view
  solo : ∀ (lock : Nat) (object : LockObject), state.objects[lock]? = some object →
    object.Checked → object.Solo

theorem Precise.initial (threads : Nat) : Precise (State.initial threads) where
  exact :=
    { accurate := by
        rintro actor target id _ ⟨object, found, _⟩
        cases found
      apart := by
        intro actor target releasing
        rw [initial_phase] at releasing
        cases releasing }
  solo lock object found := by cases found

theorem LockObject.Solo.released {object freed : LockObject} {tid : Tid} (solo : object.Solo)
    (released : releaseBy object tid = some freed) : ¬freed.OwnedBy tid := by
  unfold releaseBy at released
  split_ifs at released with owner reader
  · rw [Option.some.injEq] at released
    subst released
    rintro (impossible | member)
    · cases impossible
    · exact solo.exclusive tid owner member
  · rw [Option.some.injEq] at released
    subst released
    rintro (impossible | member)
    · exact owner impossible
    · exact solo.nodup.not_mem_erase member

section Step

variable {state next : State} {action : Action}

theorem Precise.careful (precise : Precise state) {taken : Move Tid Nat Nat}
    (origin : Origin state action taken)
    (apart : ∀ tid lock, action = .unlock tid lock ∨ action = .unlockShared tid lock →
      Apart state.view tid lock) : Careful state.view taken := by
  cases taken with
  | release tid lock => exact apart tid lock origin
  | drop tid lock again =>
      cases again with
      | false => rfl
      | true =>
          obtain ⟨object, freed, found, checked, released, remains⟩ := origin rfl
          exact absurd remains ((precise.solo lock object found checked).released released)
  | _ => trivial

theorem Precise.fresh (precise : Precise state) (consistent : Consistent state) {tid : Tid}
    {lock : Nat} {object : LockObject} (found : state.objects[lock]? = some object)
    (checked : object.Checked) (wanting : state.view.phase tid = .wanting lock) :
    ¬object.OwnedBy tid := by
  intro owned
  obtain ⟨id, _, carries⟩ := consistent.carries found checked
  have engaged : state.view.Engaged tid lock := Or.inl ((owns_iff found).mpr ⟨checked, owned⟩)
  exact precise.exact.fresh_of_wanting consistent.sound wanting carries engaged carries

theorem Precise.step_solo (precise : Precise state) (consistent : Consistent state)
    (effect : Effect state action next) {lock : Nat} {object : LockObject}
    (found : next.objects[lock]? = some object) (checked : object.Checked) : object.Solo := by
  have appended {new : LockObject} (fresh : new.owner = none ∧ new.readers = [])
      (present : (state.objects ++ [new])[lock]? = some object) : object.Solo := by
    rcases getElem?_append_cases present with kept | ⟨_, rfl⟩
    · exact precise.solo lock object kept checked
    · refine ⟨?_, ?_⟩
      · rw [fresh.2]
        exact List.nodup_nil
      · intro tid owner
        rw [fresh.1] at owner
        cases owner
  cases effect with
  | control waiters flag => exact precise.solo lock object found checked
  | @update waiters tid place before after tables old pc atPlace thread update =>
      rcases getElem?_set_cases atPlace found with ⟨rfl, rfl⟩ | ⟨_, kept⟩
      · have wasChecked := update.tag.checked.mp checked
        exact update.solo wasChecked (precise.solo place before atPlace wasChecked)
          (fun wanting => precise.fresh consistent atPlace wasChecked wanting)
      · exact precise.solo lock object kept checked
  | createUnchecked kind name => exact appended ⟨rfl, rfl⟩ found
  | create same registered => exact appended ⟨rfl, rfl⟩ found
  | createFailed failed => exact precise.solo lock object found checked
  | destroyUnchecked atPlace unchecked unowned untouched =>
      exact precise.solo lock object (getElem?_of_retired atPlace found checked).2 checked
  | destroy atPlace isChecked atId unowned untouched =>
      exact precise.solo lock object (getElem?_of_retired atPlace found checked).2 checked

theorem Precise.step (precise : Precise state) (consistent : Consistent state)
    (effect : Effect state action next)
    (apart : ∀ tid lock, action = .unlock tid lock ∨ action = .unlockShared tid lock →
      Apart state.view tid lock) : Precise next := by
  refine ⟨?_, fun _ _ found checked => precise.step_solo consistent effect found checked⟩
  cases effect.simulates consistent with
  | stutter same => exact same ▸ precise.exact
  | move taken enabled result origin =>
      rw [result]
      exact precise.exact.apply consistent.sound enabled (precise.careful origin apart)

end Step

/-- The key set of the held map is the set of identifiers of the owned locks. -/
def State.HeldAccurate (state : State) (tid : Tid) : Prop :=
  ∀ id, id ∈ (state.tables.heldLocks tid).keys ↔
    ∃ (lock : Nat) (object : LockObject), state.objects[lock]? = some object ∧
      object.Checked ∧ object.OwnedBy tid ∧ object.id = some id

theorem Precise.heldAccurate {state : State} (precise : Precise state)
    (consistent : Consistent state) {tid : Tid} (idle : state.threads[tid]? = some .idle) :
    state.HeldAccurate tid := by
  have quiet := phase_quiet idle
  intro id
  constructor
  · intro held
    obtain ⟨lock, carries, recorded⟩ := consistent.sound.recorded tid id held
    rcases recorded with ⟨⟨object, found, checked, owned⟩, _⟩ | parked
    · exact ⟨lock, object, found, checked, owned, ((carries_iff found id).mp carries).2⟩
    · rw [quiet] at parked
      cases parked
  · rintro ⟨lock, object, found, checked, owned, atId⟩
    have recorded : state.view.Recorded tid lock :=
      State.recorded_of_phase ((owns_iff found).mpr ⟨checked, owned⟩) quiet nofun nofun
    exact precise.exact.accurate tid lock id recorded ⟨object, found, checked, atId⟩

/-! ### The discipline that keeps it exact -/

def State.OwnsTwin (state : State) (tid : Tid) (lock : Nat) : Prop :=
  ∃ other < state.objects.length, other ≠ lock ∧
    ∃ one ∈ state.objects[lock]?, ∃ two ∈ state.objects[other]?,
      one.Checked ∧ two.Checked ∧ two.OwnedBy tid ∧ two.id = one.id

instance (state : State) (tid : Tid) (lock : Nat) : Decidable (state.OwnsTwin tid lock) :=
  inferInstanceAs (Decidable (∃ other < state.objects.length, other ≠ lock ∧
    ∃ one ∈ state.objects[lock]?, ∃ two ∈ state.objects[other]?,
      one.Checked ∧ two.Checked ∧ two.OwnedBy tid ∧ two.id = one.id))

def NoTwinUnlock (state : State) : Action → Prop
  | .unlock tid lock => ¬state.OwnsTwin tid lock
  | .unlockShared tid lock => ¬state.OwnsTwin tid lock
  | _ => True

theorem apart_of_noTwin {state : State} {tid : Tid} {lock : Nat}
    (alone : ¬state.OwnsTwin tid lock) : Apart state.view tid lock := by
  rintro other different ⟨two, atOther, _, owned⟩ id ⟨one, atLock, oneChecked, oneId⟩
    ⟨present, atPresent, twoChecked, twoId⟩
  rw [atOther, Option.some.injEq] at atPresent
  subst atPresent
  obtain ⟨small, _⟩ := List.getElem?_eq_some_iff.mp atOther
  exact alone ⟨other, small, different, one, atLock, two, atOther, oneChecked, twoChecked,
    owned, twoId.trans oneId.symm⟩

instance (state : State) (action : Action) : Decidable (NoTwinUnlock state action) :=
  match action with
  | .unlock _ _ => inferInstanceAs (Decidable (¬_))
  | .unlockShared _ _ => inferInstanceAs (Decidable (¬_))
  | .create _ _ _ | .destroy _ | .lock _ _ _ | .tryLock _ _ | .lockShared _ _ _ | .wait _ _ _
  | .wake _ | .deadlockError _ | .advance _ _ => inferInstanceAs (Decidable True)

theorem reachable_precise {discipline : State → Action → Prop}
    (unused : ∀ state action, discipline state action → DestroysUnused state action)
    (alone : ∀ state action, Runs.Reachable system discipline state →
      discipline state action → NoTwinUnlock state action)
    {state : State} (reached : Runs.Reachable system discipline state) : Precise state := by
  apply reached.invariant
  · rintro current ⟨threads, rfl⟩
    exact Precise.initial threads
  · intro current action following before precise permitted taken
    have consistent := reachable_consistent unused before
    have effect := step_effect consistent (unused current action permitted) taken
    apply precise.step consistent effect
    rintro tid lock (rfl | rfl)
    · exact apart_of_noTwin (alone current _ before permitted)
    · exact apart_of_noTwin (alone current _ before permitted)

theorem heldLocks_accurate {state : State} {tid : Tid}
    (reached : Runs.Reachable system
      (fun state action => Contract state action ∧ NoTwinUnlock state action) state)
    (idle : state.threads[tid]? = some .idle) : state.HeldAccurate tid :=
  (reachable_precise (fun _ _ permitted => permitted.1.destroysUnused)
    (fun _ _ _ => And.right) reached).heldAccurate
    (reachable_consistent (fun _ _ permitted => permitted.1.destroysUnused) reached) idle

/-- The steps of an uncontended `lock` of a checked mutex. -/
def lockRun (tid : Tid) (lock : Nat) : List Action :=
  .lock tid lock ⟨0, []⟩ :: List.replicate 5 (.advance tid ⟨0, []⟩)

/-- The steps of a successful `try_lock` of a checked mutex. -/
def tryLockRun (tid : Tid) (lock : Nat) : List Action :=
  .tryLock tid lock :: List.replicate 4 (.advance tid ⟨0, []⟩)

/-- The steps of an `unlock` of a checked mutex by its owner. -/
def unlockRun (tid : Tid) (lock : Nat) : List Action :=
  .unlock tid lock :: List.replicate 6 (.advance tid ⟨0, []⟩)

theorem heldLocks_accurate_after_lock :
    ∃ state, Runs.Reachable system
        (fun state action => Contract state action ∧ NoTwinUnlock state action) state ∧
      (state.tables.heldLocks 0).keys = [0] ∧ state.threads[0]? = some .idle ∧
      state.HeldAccurate 0 := by
  obtain ⟨state, reached, passed⟩ := Runs.exists_of_replay
    (fun state action => Contract state action ∧ NoTwinUnlock state action)
    (show system.initial (State.initial 1) from ⟨1, rfl⟩)
    ([.create .mutex [120] true, .create .mutex [120] true] ++ lockRun 0 0)
    (fun state : State => decide ((state.tables.heldLocks 0).keys = [0] ∧
      state.threads[0]? = some Pc.idle)) (by decide +kernel)
  obtain ⟨keys, idle⟩ := of_decide_eq_true passed
  exact ⟨state, reached, keys, idle, heldLocks_accurate reached idle⟩

/-- A program that only uses checked `BlueMutex` objects, and unlocks what it
owns. -/
def MutexUse (state : State) : Action → Prop
  | .create kind _ lockdep => kind = .mutex ∧ lockdep = true
  | .lock _ _ _ => True
  | .tryLock _ _ => True
  | .unlock tid lock => ∀ object ∈ state.object? lock, object.owner = some tid
  | .advance _ _ => True
  | _ => False

instance (state : State) (action : Action) : Decidable (MutexUse state action) :=
  match action with
  | .create _ _ _ => inferInstanceAs (Decidable (_ ∧ _))
  | .unlock _ _ => inferInstanceAs (Decidable (∀ object ∈ _, _))
  | .lock _ _ _ | .tryLock _ _ | .advance _ _ => inferInstanceAs (Decidable True)
  | .destroy _ | .lockShared _ _ _ | .unlockShared _ _ | .wait _ _ _ | .wake _
  | .deadlockError _ => inferInstanceAs (Decidable False)

/-- Two mutexes with one name: the thread locks the first, takes the second with
`try_lock`, and unlocks the first. It still owns the second, and nothing is
recorded. -/
theorem heldLocks_inaccurate_after_twin_unlock :
    ¬∀ state, Runs.Reachable system MutexUse state → ∀ tid : Tid,
      state.threads[tid]? = some .idle → state.HeldAccurate tid := by
  intro accurate
  obtain ⟨state, reached, passed⟩ := Runs.exists_of_replay MutexUse
    (show system.initial (State.initial 1) from ⟨1, rfl⟩)
    ([.create .mutex [120] true, .create .mutex [120] true] ++ lockRun 0 0 ++ tryLockRun 0 1 ++
      unlockRun 0 0)
    (fun state : State => decide ((state.tables.heldLocks 0).keys = [] ∧
      state.threads[0]? = some Pc.idle ∧ ∃ object ∈ state.object? 1, object.Checked ∧
        object.OwnedBy 0 ∧ object.id = some 0)) (by decide +kernel)
  obtain ⟨keys, idle, object, present, checked, owned, atId⟩ := of_decide_eq_true passed
  have found := (object?_eq_some.mp present).1
  have recorded := (accurate state reached 0 idle 0).mpr ⟨1, object, found, checked, owned, atId⟩
  rw [keys] at recorded
  cases recorded

end BlueThread.Locks
