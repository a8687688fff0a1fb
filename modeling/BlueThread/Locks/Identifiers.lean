/-
The identifier tables in every state of the program.

The invariant of `Lockdep.Registry` counts references against live objects; the
hint is carried along next to it.
-/

import BlueThread.Lockdep.FreeIds
import BlueThread.Locks.Simulation

namespace BlueThread.Locks

open Lockdep PackedBits

/-! ### Runs -/

theorem Effect.hintVacant {state next : State} {action : Action} (consistent : Consistent state)
    (vacant : state.tables.HintVacant) (effect : Effect state action next) :
    next.tables.HintVacant := by
  cases effect with
  | control waiters flag => exact vacant
  | update waiters found thread update =>
      obtain ⟨tree, traces, held, same⟩ := update.frame
      rw [same]
      exact vacant
  | createUnchecked kind name => exact vacant
  | @create kind name tables id same registered =>
      have kept := lockdepRegisterHeld_hintVacant consistent.registry vacant name
      rw [registered] at kept
      exact kept
  | @createFailed name tables failed =>
      have kept := lockdepRegisterHeld_hintVacant consistent.registry vacant name
      rw [failed] at kept
      exact kept
  | destroyUnchecked found unchecked unowned untouched => exact vacant
  | @destroy lock id object found checked atId unowned untouched =>
      have present := carriers_positive ⟨object, found, checked, atId⟩
      exact lockdepUnregister_hintVacant consistent.registry present vacant

theorem reachable_hintVacant {state : State}
    (reached : Runs.Reachable system DestroysUnused state) : state.tables.HintVacant := by
  apply reached.invariant
  · rintro current ⟨threads, rfl⟩ id hint
    cases hint
  · intro current action following before vacant unused taken
    have consistent := reachable_consistent (fun _ _ permitted => permitted) before
    exact (step_effect consistent unused taken).hintVacant consistent vacant

/-- What the five identifier structures say about each other and about the lock
objects. -/
structure State.IdentifiersAgree (state : State) : Prop where
  referenced : ∀ id, id < maxLocks →
    ((state.tables.idToName id).isSome = true ↔ (state.tables.lockRef id).isSome = true)
  marked : state.tables.lockIdsBitmapInitialized = true → ∀ id, id < maxLocks →
    ((state.tables.idToName id).isSome = true ↔
      testBit state.tables.lockIdsBitmap id = false)
  counted : ∀ id count, state.tables.lockRef id = some count →
    1 ≤ count ∧ count = (state.carriers id : Int)
  below : ∀ id, (state.tables.idToName id).isSome = true → id < state.tables.currentMaxId
  bounded : state.tables.currentMaxId ≤ maxLocks
  hinted : ∀ id, state.tables.lastFreeLockId = some id →
    id < maxLocks ∧ state.tables.idToName id = none
  thrown : ∀ name, state.tables.nameToId (cStr name) = none →
    ((∃ result, lockdepRegister state.tables name = .threw result) ↔
        ∀ id, id < maxLocks → (state.tables.idToName id).isSome = true) ∧
      ∀ result, lockdepRegister state.tables name = .threw result → result = state.tables

theorem identifiers_agree {state : State}
    (reached : Runs.Reachable system DestroysUnused state) : state.IdentifiersAgree := by
  have registry := (reachable_consistent (fun _ _ permitted => permitted) reached).registry
  have vacant := reachable_hintVacant reached
  refine ⟨?_, ?_, ?_, registry.below, registry.bounded, ?_, ?_⟩
  · intro id _
    have named := registry.named id
    rw [Tables.Registered] at named
    rw [named, registry.counted]
    by_cases unused : state.carriers id = 0
    · simp [unused]
    · simp [unused]
  · intro started id small
    rw [registry.free started id small]
    cases state.tables.idToName id <;> simp
  · intro id count atId
    rw [registry.counted] at atId
    split at atId
    · cases atId
    · rename_i used
      rw [Option.some.injEq] at atId
      subst atId
      refine ⟨?_, rfl⟩
      omega
  · intro id hint
    exact ⟨registry.hinted id hint, vacant id hint⟩
  · intro name missed
    exact lockdepRegister_missed registry missed

/-- Two mutexes with one name, a shared mutex with another one, and a fourth
object that came and went: its identifier is the hint. -/
theorem identifiers_agree_after_destroy :
    ∃ state, Runs.Reachable system DestroysUnused state ∧ state.carriers 0 = 2 ∧
      state.carriers 1 = 1 ∧ state.tables.lastFreeLockId = some 2 ∧ state.IdentifiersAgree := by
  obtain ⟨state, reached, passed⟩ := Runs.exists_of_replay DestroysUnused
    (show system.initial (State.initial 1) from ⟨1, rfl⟩)
    [.create .mutex [120] true, .create .mutex [120] true, .create .sharedMutex [121] true,
      .create .mutex [122] true, .destroy 3]
    (fun state : State => decide (state.carriers 0 = 2 ∧ state.carriers 1 = 1 ∧
      state.tables.lastFreeLockId = some 2)) (by decide +kernel)
  obtain ⟨twice, once, hint⟩ := of_decide_eq_true passed
  exact ⟨state, reached, twice, once, hint, identifiers_agree reached⟩

end BlueThread.Locks
