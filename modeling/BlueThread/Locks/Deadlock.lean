/-
The recorded order, and what it rules out.

The matrix of recorded orders is an acyclic relation between registered
identifiers in every reachable state, whatever the names are, and
`lockdep_will_lock` refuses exactly what would close a cycle in it. If the names of
the checked objects are distinct C strings, then identifiers stand for objects,
the held maps are exact, and no ring of threads can wait for each other.
-/

import BlueThread.Lockdep.Decision
import BlueThread.Locks.HeldLocks

namespace BlueThread.Locks

open Lockdep LockProtocol Relation BlueThread.Digraph

theorem lockTree_ordered {state : State} (reached : Runs.Reachable system Contract state) :
    (∀ id, ¬TransGen state.tables.Follows id id) ∧
      (∀ left right, state.tables.Follows left right →
        (state.tables.Registered left ∧ left < state.tables.currentMaxId) ∧
          (state.tables.Registered right ∧ right < state.tables.currentMaxId)) ∧
      ∀ left right, (∃ trace, state.tables.lockTreeBacktrace left right = some trace) ↔
        state.tables.Follows left right := by
  have consistent := reachable_consistent (fun _ _ permitted => permitted.destroysUnused) reached
  refine ⟨consistent.order.acyclic, ?_, ?_⟩
  · intro left right edge
    obtain ⟨leftKnown, rightKnown⟩ := consistent.order.registered left right edge
    exact ⟨⟨leftKnown, consistent.registry.below left leftKnown⟩,
      ⟨rightKnown, consistent.registry.below right rightKnown⟩⟩
  · intro left right
    rw [← Option.isSome_iff_exists, consistent.order.traced]

theorem lockTree_ordered_after_nesting :
    ∃ state, Runs.Reachable system Contract state ∧ state.tables.Follows 0 1 ∧
      ¬TransGen state.tables.Follows 1 1 ∧ state.tables.Registered 1 ∧
      ∃ trace, state.tables.lockTreeBacktrace 0 1 = some trace := by
  obtain ⟨state, reached, passed⟩ := Runs.exists_of_replay Contract
    (show system.initial (State.initial 1) from ⟨1, rfl⟩)
    ([.create .mutex [120] true, .create .mutex [121] true] ++ lockRun 0 0 ++ lockRun 0 1)
    (fun state => follows state.tables 0 1) (by decide +kernel)
  obtain ⟨acyclic, ends, traced⟩ := lockTree_ordered reached
  exact ⟨state, reached, passed, acyclic 1, (ends 0 1 passed).2.1, (traced 0 1).mpr passed⟩

/-! ### What `lockdep_will_lock` decides -/

/-- The last conjunct runs the loop over the held entries in any order. -/
theorem lockdepWillLock_exact {state : State}
    (reached : Runs.Reachable system DestroysUnused state) (tid : Tid) {id : Nat}
    (registered : state.tables.Registered id) (name : Name) (trace : BackTrace) :
    (lockdepWillLock state.tables tid name (some id) trace = .aborted ↔
        id ∈ (state.tables.heldLocks tid).keys ∨
          ∃ held ∈ (state.tables.heldLocks tid).keys, TransGen state.tables.Follows id held) ∧
      (¬(id ∈ (state.tables.heldLocks tid).keys ∨
          ∃ held ∈ (state.tables.heldLocks tid).keys, TransGen state.tables.Follows id held) →
        ∃ result, lockdepWillLock state.tables tid name (some id) trace = .returned result id ∧
          (∃ tree traces, result =
            { state.tables with lockTree := tree, lockTreeBacktrace := traces }) ∧
          ∀ left right, result.Follows left right ↔ state.tables.Follows left right ∨
            (left ∈ (state.tables.heldLocks tid).keys ∧ right = id)) ∧
      ∀ visited, visited.Perm (state.tables.heldLocks tid).entries →
        willLockLoop id trace visited state.tables =
          lockdepWillLock state.tables tid name (some id) trace := by
  have consistent := reachable_consistent (fun _ _ permitted => permitted) reached
  have heldKnown : ∀ held ∈ (state.tables.heldLocks tid).keys, state.tables.Registered held :=
    fun _ member => consistent.held_registered member
  have conflicts : (id ∈ (state.tables.heldLocks tid).keys ∨
      ∃ held ∈ (state.tables.heldLocks tid).keys, TransGen state.tables.Follows id held) ↔
      ∃ held ∈ (state.tables.heldLocks tid).keys, Conflicts state.tables id held := by
    constructor
    · rintro (member | ⟨held, member, path⟩)
      · exact ⟨id, member, Or.inl rfl⟩
      · exact ⟨held, member, Or.inr path⟩
    · rintro ⟨held, member, same | path⟩
      · exact Or.inl (same ▸ member)
      · exact Or.inr ⟨held, member, path⟩
  have call : lockdepWillLock state.tables tid name (some id) trace =
      willLockLoop id trace (state.tables.heldLocks tid).entries state.tables := rfl
  rw [conflicts, call]
  refine ⟨?_, ?_, ?_⟩
  · rcases willLockLoop_decides id trace state.carriers (state.tables.heldLocks tid).entries
        state.tables consistent.registry consistent.order registered heldKnown with
      ⟨aborted, conflict⟩ | ⟨result, returned, _, clean⟩
    · exact ⟨fun _ => conflict, fun _ => aborted⟩
    · rw [returned]
      constructor
      · nofun
      · rintro ⟨held, member, conflict⟩
        exact absurd conflict (clean held member)
  · intro noConflict
    rcases willLockLoop_decides id trace state.carriers (state.tables.heldLocks tid).entries
        state.tables consistent.registry consistent.order registered heldKnown with
      ⟨_, conflict⟩ | ⟨result, returned, extended, _⟩
    · exact absurd conflict noConflict
    · refine ⟨result, returned, extended.only, ?_⟩
      intro left right
      rw [extended.edges, and_comm (a := right = id)]
      rfl
  · intro visited rearranged
    exact willLockLoop_perm consistent.registry consistent.order registered heldKnown rearranged

/-- The order of two mutexes is on record, and their taker, who holds the second
one only, asks for the first one again. -/
theorem lockdepWillLock_exact_reversed :
    ∃ state, Runs.Reachable system DestroysUnused state ∧
      0 ∉ (state.tables.heldLocks 0).keys ∧
      lockdepWillLock state.tables 0 [120] (some 0) ⟨0, []⟩ = .aborted := by
  obtain ⟨state, reached, passed⟩ := Runs.exists_of_replay DestroysUnused
    (show system.initial (State.initial 1) from ⟨1, rfl⟩)
    ([.create .mutex [120] true, .create .mutex [121] true] ++ lockRun 0 0 ++ lockRun 0 1 ++
      unlockRun 0 0)
    (fun state => decide ((state.tables.idToName 0).isSome = true ∧
      0 ∉ (state.tables.heldLocks 0).keys ∧ 1 ∈ (state.tables.heldLocks 0).keys ∧
      follows state.tables 0 1 = true)) (by decide +kernel)
  obtain ⟨registered, released, held, edge⟩ := of_decide_eq_true passed
  refine ⟨state, reached, released, ?_⟩
  exact (lockdepWillLock_exact reached 0 registered [120] ⟨0, []⟩).1.mpr
    (Or.inr ⟨1, held, .single edge⟩)

/-! ### Distinct names -/

/-- New checked objects get a name without NUL that no live one has. -/
def DistinctNames (state : State) : Action → Prop
  | .create _ name true =>
      0 ∉ name ∧ ∀ object ∈ state.objects, object.Checked → object.lockName ≠ name
  | _ => True

instance (state : State) (action : Action) : Decidable (DistinctNames state action) :=
  match action with
  | .create _ _ true => inferInstanceAs (Decidable (_ ∧ _))
  | .create _ _ false | .destroy _ | .lock _ _ _ | .tryLock _ _ | .lockShared _ _ _
  | .unlock _ _ | .unlockShared _ _ | .wait _ _ _ | .wake _ | .deadlockError _
  | .advance _ _ => inferInstanceAs (Decidable True)

structure Distinctive (state : State) : Prop where
  named : ∀ (lock id : Nat) (object : LockObject), state.objects[lock]? = some object →
    object.Checked → object.id = some id → state.tables.idToName id = some object.lockName
  separate : ∀ first second id, state.view.carries first id → state.view.carries second id →
    first = second

section Step

variable {state next : State} {action : Action}

theorem Distinctive.fresh (distinctive : Distinctive state) (consistent : Consistent state)
    {name : Name} {tables : Tables} {id : Nat} (clean : 0 ∉ name)
    (unused : ∀ object ∈ state.objects, object.Checked → object.lockName ≠ name)
    (registered : lockdepRegisterHeld state.tables name = (tables, some id)) :
    state.carriers id = 0 ∧ tables.idToName id = some name := by
  rcases lockdepRegisterHeld_source consistent.registry registered with
    ⟨known, carried⟩ | ⟨_, vacant, entered⟩
  · exfalso
    rw [cStr_of_noNul clean] at known
    have stored := consistent.registry.inverse name id known
    have positive : 0 < state.carriers id := Nat.pos_of_ne_zero carried
    obtain ⟨object, member, counted⟩ : ∃ object ∈ state.objects, object.share id ≠ 0 := by
      by_contra none
      apply carried
      apply Population.total_eq_zero
      intro object member
      by_contra counted
      exact none ⟨object, member, counted⟩
    obtain ⟨lock, found⟩ := List.mem_iff_getElem?.mp member
    have checked : object.Checked ∧ object.id = some id := by
      by_contra other
      exact counted (if_neg other)
    have name := distinctive.named lock id object found checked.1 checked.2
    rw [stored, Option.some.injEq] at name
    exact unused object member checked.1 name.symm
  · exact ⟨vacant, entered⟩

theorem Distinctive.step (distinctive : Distinctive state) (consistent : Consistent state)
    (effect : Effect state action next) (names : DistinctNames state action) :
    Distinctive next := by
  refine ⟨effect.labels consistent distinctive.named ?_, ?_⟩
  · rintro kind name id rfl registered
    exact (distinctive.fresh consistent names.1 names.2 registered).2
  · rintro first second id ⟨one, atFirst, oneChecked, oneId⟩ ⟨two, atSecond, twoChecked, twoId⟩
    have carriedBefore {lock : Nat} {before after : LockObject}
        (atBefore : state.objects[lock]? = some before) (tag : SameTag before after)
        (checked : after.Checked) (atId : after.id = some id) :
        state.view.carries lock id :=
      ⟨before, atBefore, tag.checked.mp checked, tag.id ▸ atId⟩
    rcases effect.object_source atFirst oneChecked with
      ⟨before, atBefore, tag⟩ | ⟨last, kind, name, fresh, rfl, rfl, registered⟩
    · have firstCarries := carriedBefore atBefore tag oneChecked oneId
      rcases effect.object_source atSecond twoChecked with
        ⟨other, atOther, otherTag⟩ | ⟨_, kind, name, fresh, rfl, rfl, registered⟩
      · exact distinctive.separate first second id firstCarries
          (carriedBefore atOther otherTag twoChecked twoId)
      · cases twoId
        exact absurd (distinctive.fresh consistent names.1 names.2 registered).1
          (carriers_positive firstCarries)
    · cases oneId
      rcases effect.object_source atSecond twoChecked with
        ⟨other, atOther, otherTag⟩ | ⟨otherLast, _⟩
      · have secondCarries := carriedBefore atOther otherTag twoChecked twoId
        exact absurd (distinctive.fresh consistent names.1 names.2 registered).1
          (carriers_positive secondCarries)
      · omega

theorem Distinctive.alone (distinctive : Distinctive state) (consistent : Consistent state)
    (tid : Tid) (lock : Nat) : ¬state.OwnsTwin tid lock := by
  rintro ⟨other, _, different, one, atLock, two, atOther, oneChecked, twoChecked, _, same⟩
  obtain ⟨id, atId, carries⟩ := consistent.carries atLock oneChecked
  exact different (distinctive.separate other lock id
    ⟨two, atOther, twoChecked, same.trans atId⟩ carries)

end Step

theorem Distinctive.initial (threads : Nat) : Distinctive (State.initial threads) where
  named lock id object found := by cases found
  separate := by
    rintro first second id ⟨object, found, _⟩
    cases found

theorem reachable_distinctive {discipline : State → Action → Prop}
    (unused : ∀ state action, discipline state action → DestroysUnused state action)
    (names : ∀ state action, discipline state action → DistinctNames state action)
    {state : State} (reached : Runs.Reachable system discipline state) : Distinctive state := by
  apply reached.invariant
  · rintro current ⟨threads, rfl⟩
    exact Distinctive.initial threads
  · intro current action following before distinctive permitted taken
    have consistent := reachable_consistent unused before
    have effect := step_effect consistent (unused current action permitted) taken
    exact distinctive.step consistent effect (names current action permitted)

/-! ### No ring of waiting threads -/

/-- Blocked in `pthread_mutex_lock`, `pthread_rwlock_wrlock` or
`pthread_rwlock_rdlock` of a checked object. -/
def State.Acquiring (state : State) (tid : Tid) (lock : Nat) : Prop :=
  state.Checks lock ∧ ∃ mode, state.threads[tid]? = some (.acquiring lock mode)

theorem no_deadlock {state : State}
    (reached : Runs.Reachable system
      (fun state action => Contract state action ∧ DistinctNames state action) state) :
    ¬CircularWait state.Acquiring state.Owns := by
  have consistent := reachable_consistent (fun _ _ permitted => permitted.1.destroysUnused) reached
  have precise : Precise state := by
    apply reachable_precise (fun _ _ permitted => permitted.1.destroysUnused) _ reached
    intro current action before permitted
    have distinctive := reachable_distinctive
      (fun _ _ permitted => permitted.1.destroysUnused) (fun _ _ => And.right) before
    have alone := distinctive.alone
      (reachable_consistent (fun _ _ permitted => permitted.1.destroysUnused) before)
    cases action with
    | unlock tid lock => exact alone tid lock
    | unlockShared tid lock => exact alone tid lock
    | _ => trivial
  rintro ⟨length, member, wanted, ring⟩
  apply precise.exact.no_circularWait consistent.sound
  refine ⟨length, member, wanted, fun index => ⟨?_, (ring index).2⟩⟩
  obtain ⟨⟨object, found, checked⟩, mode, thread⟩ := (ring index).1
  exact phase_checked found checked thread rfl

/-- The first thread owns both mutexes, the second one is blocked on the first
mutex, and the two do not wait for each other. -/
theorem no_deadlock_while_blocked :
    ∃ state, Runs.Reachable system
        (fun state action => Contract state action ∧ DistinctNames state action) state ∧
      state.Acquiring 1 0 ∧ state.Owns 0 0 ∧ state.Owns 0 1 ∧
      ¬CircularWait state.Acquiring state.Owns := by
  obtain ⟨state, reached, passed⟩ := Runs.exists_of_replay
    (fun state action => Contract state action ∧ DistinctNames state action)
    (show system.initial (State.initial 2) from ⟨2, rfl⟩)
    ([.create .mutex [120] true, .create .mutex [121] true] ++ lockRun 0 0 ++
      [.lock 1 0 ⟨0, []⟩, .advance 1 ⟨0, []⟩] ++ lockRun 0 1)
    (fun state : State => decide (state.threads[1]? = some (Pc.acquiring 0 .exclusive) ∧
      (∃ object ∈ state.object? 0, object.Checked ∧ object.OwnedBy 0) ∧
      ∃ object ∈ state.object? 1, object.Checked ∧ object.OwnedBy 0)) (by decide +kernel)
  obtain ⟨thread, ⟨first, atFirst, checked, owned⟩, second, atSecond, rest⟩ :=
    of_decide_eq_true passed
  have found := (object?_eq_some.mp atFirst).1
  exact ⟨state, reached, ⟨⟨first, found, checked⟩, .exclusive, thread⟩,
    ⟨first, found, checked, owned⟩, ⟨second, (object?_eq_some.mp atSecond).1, rest⟩,
    no_deadlock reached⟩

end BlueThread.Locks
