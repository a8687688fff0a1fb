/-
Acquisition orders around condition waits.

A thread that wakes up inside `condition_variable::wait` takes its mutex again
without `_will_lock`, so the order from the other locks it owns is not recorded
at that point. It is there anyway if the mutex was the last lock taken when the
wait began.
-/

import BlueThread.Locks.Deadlock

namespace BlueThread.Locks

open Lockdep LockProtocol

/-- The matrix has the edge between the identifiers of two checked objects. -/
def State.OrderRecorded (state : State) (first second : Nat) : Prop :=
  ∃ (one two : LockObject) (left right : Nat),
    (state.objects[first]? = some one ∧ one.Checked ∧ one.id = some left) ∧
      (state.objects[second]? = some two ∧ two.Checked ∧ two.id = some right) ∧
      state.tables.Follows left right

theorem orderRecorded_of_before {state : State} {first second : Nat}
    (before : Before state.view first second) : state.OrderRecorded first second := by
  obtain ⟨left, right, ⟨one, atFirst⟩, ⟨two, atSecond⟩, edge⟩ := before
  exact ⟨one, two, left, right, atFirst, atSecond, edge⟩

/-- Locks are taken with `lock` or `lock_shared`, and given back and waited with
by their owner. -/
def AnnouncedUse (state : State) : Action → Prop
  | .tryLock _ _ => False
  | .unlock tid lock => ∀ object ∈ state.object? lock, object.owner = some tid
  | .wait tid _ lock => ∀ object ∈ state.object? lock, object.owner = some tid
  | _ => True

instance (state : State) (action : Action) : Decidable (AnnouncedUse state action) :=
  match action with
  | .tryLock _ _ => inferInstanceAs (Decidable False)
  | .unlock _ _ => inferInstanceAs (Decidable (∀ object ∈ _, _))
  | .wait _ _ _ => inferInstanceAs (Decidable (∀ object ∈ _, _))
  | .create _ _ _ | .destroy _ | .lock _ _ _ | .lockShared _ _ _ | .unlockShared _ _
  | .wake _ | .deadlockError _ | .advance _ _ => inferInstanceAs (Decidable True)

def State.OwnsLater (state : State) (tid : Tid) (lock : Nat) : Prop :=
  ∃ other < state.objects.length, other ≠ lock ∧
    ∃ one ∈ state.object? lock, ∃ two ∈ state.object? other,
      one.Checked ∧ two.Checked ∧ two.OwnedBy tid ∧
        ∃ left ∈ one.id, ∃ right ∈ two.id, follows state.tables left right = true

instance (state : State) (tid : Tid) (lock : Nat) : Decidable (state.OwnsLater tid lock) :=
  inferInstanceAs (Decidable (∃ other < state.objects.length, other ≠ lock ∧
    ∃ one ∈ state.object? lock, ∃ two ∈ state.object? other,
      one.Checked ∧ two.Checked ∧ two.OwnedBy tid ∧
        ∃ left ∈ one.id, ∃ right ∈ two.id, follows state.tables left right = true))

def WaitsOnLast (state : State) : Action → Prop
  | .wait tid _ lock => ¬state.OwnsLater tid lock
  | _ => True

instance (state : State) (action : Action) : Decidable (WaitsOnLast state action) :=
  match action with
  | .wait _ _ _ => inferInstanceAs (Decidable (¬_))
  | .create _ _ _ | .destroy _ | .lock _ _ _ | .tryLock _ _ | .lockShared _ _ _ | .unlock _ _
  | .unlockShared _ _ | .wake _ | .deadlockError _ | .advance _ _ =>
      inferInstanceAs (Decidable True)

section Step

variable {state next : State} {action : Action}

theorem owns_of_carries {tid : Tid} {lock id : Nat} (carries : state.view.carries lock id)
    (owned : ∀ object ∈ state.object? lock, object.OwnedBy tid) : state.Owns tid lock := by
  obtain ⟨object, found, checked, _⟩ := carries
  exact ⟨object, found, checked, owned object (object?_eq_some.mpr ⟨found, checked.1⟩)⟩

theorem owns_of_unlock (contract : Contract state action) (announced : AnnouncedUse state action)
    {tid : Tid} {lock id : Nat}
    (unlocks : action = .unlock tid lock ∨ action = .unlockShared tid lock)
    (carries : state.view.carries lock id) : state.Owns tid lock := by
  rcases unlocks with rfl | rfl
  · exact owns_of_carries carries (fun object member => Or.inl (announced object member))
  · exact owns_of_carries carries (fun object member => Or.inr (contract object member))

theorem notBefore_of_waitsOnLast {tid : Tid} {cond lock other : Nat}
    (last : WaitsOnLast state (.wait tid cond lock)) (different : other ≠ lock)
    (owns : state.Owns tid other) : ¬Before state.view lock other := by
  rintro ⟨left, right, ⟨one, atLock, oneChecked, oneId⟩, ⟨two, atOther, twoChecked, twoId⟩, edge⟩
  obtain ⟨small, _⟩ := List.getElem?_eq_some_iff.mp atOther
  have owned := ((owns_iff atOther).mp owns).2
  exact last ⟨other, small, different, one, object?_eq_some.mpr ⟨atLock, oneChecked.1⟩, two,
    object?_eq_some.mpr ⟨atOther, twoChecked.1⟩, oneChecked, twoChecked, owned, left, oneId,
    right, twoId, edge⟩

theorem announced_of_origin {taken : Move Tid Nat Nat} (contract : Contract state action)
    (announced : AnnouncedUse state action) (last : WaitsOnLast state action)
    (enabled : state.view.Enabled taken) (origin : Origin state action taken) :
    Announced state.view taken := by
  cases taken with
  | seize tid lock =>
      obtain rfl : action = .tryLock tid lock := origin
      cases announced
  | release tid lock =>
      obtain ⟨id, carries⟩ := enabled.2
      exact owns_of_unlock contract announced origin carries
  | resolve tid lock =>
      obtain ⟨cond, rfl⟩ := origin
      obtain ⟨id, carries⟩ := enabled.2
      refine ⟨owns_of_carries carries (fun object member => Or.inl (announced object member)), ?_⟩
      intro other different owns
      exact notBefore_of_waitsOnLast last different owns
  | _ => trivial

theorem Precise.step_lined (precise : Precise state) (lined : Lined state.view)
    (consistent : Consistent state) (contract : Contract state action)
    (announced : AnnouncedUse state action) (last : WaitsOnLast state action)
    (effect : Effect state action next) : Precise next ∧ Lined next.view := by
  refine ⟨?_, ?_⟩
  · apply precise.step consistent effect
    intro tid lock unlocks other different otherOwns id targetCarries otherCarries
    have owns := owns_of_unlock contract announced unlocks targetCarries
    exact lined.apart owns other different otherOwns id targetCarries otherCarries
  · cases effect.simulates consistent with
    | stutter same => exact same ▸ lined
    | move taken enabled result origin =>
        rw [result]
        exact lined.apply consistent.sound precise.exact enabled
          (announced_of_origin contract announced last enabled origin)

end Step

theorem initial_lined (threads : Nat) : Lined (State.initial threads).view where
  solitary := by
    rintro actor first second id _ _ ⟨object, found, _⟩
    cases found
  linear := by
    intro actor left right held
    cases held
  announced := by
    intro actor target id held _ _ isHeld
    cases isHeld
  waiting := by
    intro actor target id held _ _ isHeld
    cases isHeld

/-- The discipline under which every blocking acquisition is recorded. -/
def OrderedUse (state : State) (action : Action) : Prop :=
  Contract state action ∧ AnnouncedUse state action ∧ WaitsOnLast state action

instance (state : State) (action : Action) : Decidable (OrderedUse state action) :=
  inferInstanceAs (Decidable (_ ∧ _ ∧ _))

theorem reachable_lined {state : State} (reached : Runs.Reachable system OrderedUse state) :
    Precise state ∧ Lined state.view := by
  apply reached.invariant
  · rintro current ⟨threads, rfl⟩
    exact ⟨Precise.initial threads, initial_lined threads⟩
  · rintro current action following before ⟨precise, lined⟩ ⟨contract, announced, last⟩ taken
    have consistent := reachable_consistent (fun _ _ permitted => permitted.1.destroysUnused) before
    exact precise.step_lined lined consistent contract announced last
      (step_effect consistent contract.destroysUnused taken)

/-- Blocked in `lock` or `lock_shared`, or taking the mutex again in a wait. -/
def State.BlockedOn (state : State) (tid : Tid) (lock : Nat) : Prop :=
  state.Checks lock ∧ ((∃ mode, state.threads[tid]? = some (.acquiring lock mode)) ∨
    ∃ cond, state.threads[tid]? = some (.condAcquiring cond lock))

theorem acquisition_recorded {state : State} {tid : Tid} {lock other : Nat}
    (reached : Runs.Reachable system OrderedUse state) (blocked : state.BlockedOn tid lock)
    (owns : state.Owns tid other) (different : other ≠ lock) :
    state.OrderRecorded other lock := by
  have consistent := reachable_consistent (fun _ _ permitted => permitted.1.destroysUnused) reached
  obtain ⟨precise, lined⟩ := reachable_lined reached
  obtain ⟨⟨object, found, checked⟩, ⟨mode, thread⟩ | ⟨cond, thread⟩⟩ := blocked
  · have wanting : state.view.phase tid = .wanting lock :=
      phase_checked found checked thread rfl
    exact orderRecorded_of_before
      (precise.exact.before_of_wanting consistent.sound wanting owns)
  · have parked : state.view.phase tid = .parked lock :=
      phase_checked found checked thread rfl
    exact orderRecorded_of_before
      (lined.before_of_parked consistent.sound precise.exact parked owns different)

/-- The steps of a `wait` on a checked mutex until the thread is blocked. -/
def waitRun (tid : Tid) (cond lock : Nat) : List Action :=
  .wait tid cond lock :: List.replicate 5 (.advance tid ⟨0, []⟩)

/-- The second mutex is taken first. The thread then waits with the first one,
which another thread holds when the waiter wakes up. -/
theorem acquisition_recorded_on_wake :
    ∃ state, Runs.Reachable system OrderedUse state ∧ state.BlockedOn 0 0 ∧ state.Owns 0 1 ∧
      state.Owns 1 0 ∧ state.OrderRecorded 1 0 := by
  obtain ⟨state, reached, passed⟩ := Runs.exists_of_replay OrderedUse
    (show system.initial (State.initial 2) from ⟨2, rfl⟩)
    ([.create .mutex [109] true, .create .mutex [120] true] ++ lockRun 0 1 ++ lockRun 0 0 ++
      waitRun 0 0 0 ++ lockRun 1 0 ++ [.wake 0])
    (fun state : State => decide (state.threads[0]? = some (Pc.condAcquiring 0 0) ∧
      (∃ object ∈ state.object? 0, object.Checked ∧ object.OwnedBy 1) ∧
      ∃ object ∈ state.object? 1, object.Checked ∧ object.OwnedBy 0)) (by decide +kernel)
  obtain ⟨thread, ⟨first, atFirst, checked, owned⟩, second, atSecond, rest⟩ :=
    of_decide_eq_true passed
  have found := (object?_eq_some.mp atFirst).1
  have blocked : state.BlockedOn 0 0 := ⟨⟨first, found, checked⟩, Or.inr ⟨0, thread⟩⟩
  have owns : state.Owns 0 1 := ⟨second, (object?_eq_some.mp atSecond).1, rest⟩
  exact ⟨state, reached, blocked, owns, ⟨first, found, checked, owned⟩,
    acquisition_recorded reached blocked owns (by decide)⟩

/-- A program that uses checked `BlueMutex` objects with distinct names and
condition waits, and unlocks and waits with what it owns. -/
def WaitUse (state : State) : Action → Prop
  | .create kind name lockdep =>
      kind = .mutex ∧ lockdep = true ∧ DistinctNames state (.create kind name lockdep)
  | .lock _ _ _ => True
  | .unlock tid lock => ∀ object ∈ state.object? lock, object.owner = some tid
  | .wait tid _ lock => ∀ object ∈ state.object? lock, object.owner = some tid
  | .wake _ => True
  | .advance _ _ => True
  | _ => False

instance (state : State) (action : Action) : Decidable (WaitUse state action) :=
  match action with
  | .create _ _ _ => inferInstanceAs (Decidable (_ ∧ _ ∧ _))
  | .unlock _ _ => inferInstanceAs (Decidable (∀ object ∈ _, _))
  | .wait _ _ _ => inferInstanceAs (Decidable (∀ object ∈ _, _))
  | .lock _ _ _ | .wake _ | .advance _ _ => inferInstanceAs (Decidable True)
  | .destroy _ | .tryLock _ _ | .lockShared _ _ _ | .unlockShared _ _
  | .deadlockError _ => inferInstanceAs (Decidable False)

/-- The first mutex is taken first. The thread waits with it while it owns the
second one, and is then blocked on it in the order that was never recorded. -/
theorem acquisition_unrecorded_on_wake :
    ¬∀ state, Runs.Reachable system WaitUse state → ∀ (tid : Tid) (lock other : Nat),
      state.BlockedOn tid lock → state.Owns tid other → other ≠ lock →
        state.OrderRecorded other lock := by
  intro recorded
  obtain ⟨state, reached, passed⟩ := Runs.exists_of_replay WaitUse
    (show system.initial (State.initial 2) from ⟨2, rfl⟩)
    ([.create .mutex [109] true, .create .mutex [120] true] ++ lockRun 0 0 ++ lockRun 0 1 ++
      waitRun 0 0 0 ++ lockRun 1 0 ++ [.wake 0])
    (fun state : State => decide (state.threads[0]? = some (Pc.condAcquiring 0 0) ∧
      (∃ object ∈ state.object? 0, object.Checked ∧ object.id = some 0 ∧ object.OwnedBy 1) ∧
      (∃ object ∈ state.object? 1, object.Checked ∧ object.id = some 1 ∧ object.OwnedBy 0) ∧
      follows state.tables 1 0 = false)) (by decide +kernel)
  obtain ⟨thread, ⟨first, atFirst, firstChecked, firstId, _⟩,
    ⟨second, atSecond, secondChecked, secondId, owned⟩, unordered⟩ := of_decide_eq_true passed
  have firstFound := (object?_eq_some.mp atFirst).1
  have secondFound := (object?_eq_some.mp atSecond).1
  obtain ⟨one, two, left, right, ⟨atOne, _, leftId⟩, ⟨atTwo, _, rightId⟩, edge⟩ :=
    recorded state reached 0 0 1 ⟨⟨first, firstFound, firstChecked⟩, Or.inr ⟨0, thread⟩⟩
      ⟨second, secondFound, secondChecked, owned⟩ (by decide)
  rw [secondFound, Option.some.injEq] at atOne
  rw [firstFound, Option.some.injEq] at atTwo
  rw [← atOne, secondId, Option.some.injEq] at leftId
  rw [← atTwo, firstId, Option.some.injEq] at rightId
  rw [← leftId, ← rightId, Tables.Follows, unordered] at edge
  cases edge

end BlueThread.Locks
