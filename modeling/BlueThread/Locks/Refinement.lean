/-
The lock objects refine the protocol of `Locks.Protocol`.

Every step of the program is one move of the protocol or is invisible in the
view. The invariant of the tables and the invariant of the protocol are carried
along together: a call into the checker terminates because the recorded order is
acyclic, and it is a legal move because the tables answer reachability.
-/

import BlueThread.Locks.View

namespace BlueThread.Locks

open Lockdep LockProtocol Population

/-- What callers promise. Destroying an object that is in use and giving back a
pthread rwlock that is not held are undefined; unlocking somebody else's
error-checking mutex is not, and is left to the program. -/
def Contract (state : State) : Action → Prop
  | .destroy lock =>
      (∀ object ∈ state.object? lock, object.owner = none ∧ object.readers = []) ∧
        ∀ pc ∈ state.threads, pc.target ≠ some lock
  | .unlock tid lock =>
      ∀ object ∈ state.object? lock, object.kind = .sharedMutex → object.owner = some tid
  | .unlockShared tid lock => ∀ object ∈ state.object? lock, tid ∈ object.readers
  | _ => True

instance (state : State) (action : Action) : Decidable (Contract state action) :=
  match action with
  | .destroy _ => inferInstanceAs (Decidable (_ ∧ _))
  | .unlock _ _ => inferInstanceAs (Decidable (∀ object ∈ _, _ → _))
  | .unlockShared _ _ => inferInstanceAs (Decidable (∀ object ∈ _, _))
  | .create _ _ _ | .lock _ _ _ | .tryLock _ _ | .lockShared _ _ _ | .wait _ _ _ | .wake _
  | .deadlockError _ | .advance _ _ => inferInstanceAs (Decidable True)

/-- The part of the contract that the tables rely on. -/
def DestroysUnused (state : State) : Action → Prop
  | .destroy lock => Contract state (.destroy lock)
  | _ => True

theorem Contract.destroysUnused {state : State} {action : Action}
    (contract : Contract state action) : DestroysUnused state action := by
  cases action with
  | destroy lock => exact contract
  | _ => trivial

theorem DestroysUnused.apart {state : State} {lock : Nat} {object : LockObject}
    (unused : DestroysUnused state (.destroy lock)) (present : state.object? lock = some object) :
    (∀ other, ¬object.OwnedBy other) ∧
      ∀ (other : Tid) (pc : Pc), state.threads[other]? = some pc → pc.target ≠ some lock := by
  obtain ⟨owner, readers⟩ := unused.1 object present
  constructor
  · intro other
    simp [LockObject.OwnedBy, owner, readers]
  · intro other pc thread
    exact unused.2 pc (List.mem_of_getElem? thread)

instance (state : State) (action : Action) : Decidable (DestroysUnused state action) :=
  match action with
  | .destroy lock => inferInstanceAs (Decidable (Contract state (.destroy lock)))
  | .create _ _ _ | .lock _ _ _ | .tryLock _ _ | .lockShared _ _ _ | .unlock _ _
  | .unlockShared _ _ | .wait _ _ _ | .wake _ | .deadlockError _ | .advance _ _ =>
      inferInstanceAs (Decidable True)

def Origin (state : State) (action : Action) : Move Tid Nat Nat → Prop
  | .seize tid lock => action = .tryLock tid lock
  | .release tid lock => action = .unlock tid lock ∨ action = .unlockShared tid lock
  | .resolve tid lock => ∃ cond, action = .wait tid cond lock
  | .drop tid lock again =>
      again = true → ∃ object freed, state.objects[lock]? = some object ∧ object.Checked ∧
        releaseBy object tid = some freed ∧ freed.OwnedBy tid
  | _ => True

inductive Simulates (state : State) (action : Action) (next : State) : Prop
  | stutter (same : next.view = state.view)
  | move (taken : Move Tid Nat Nat) (enabled : state.view.Enabled taken)
      (result : next.view = state.view.apply taken) (origin : Origin state action taken)

structure LockObject.Solo (object : LockObject) : Prop where
  nodup : object.readers.Nodup
  exclusive : ∀ tid, object.owner = some tid → tid ∉ object.readers

structure Update (state : State) (action : Action) (tid : Tid) (lock : Nat)
    (object : LockObject) (tables : Tables) (after : LockObject) (pc : Pc) : Prop where
  tag : SameTag object after
  frame : ∃ tree traces held, tables =
    { state.tables with lockTree := tree, lockTreeBacktrace := traces, heldLocks := held }
  order : LockOrder tables
  target : pc.target = none ∨ pc.target = some lock
  settled : ∀ mode, pc = .locked lock mode → object.Checked
  solo : object.Checked → object.Solo →
    (state.view.phase tid = .wanting lock → ¬object.OwnedBy tid) → after.Solo
  simulates : Simulates state action (state.update tables lock after tid pc)

/-! ### Steps on one object -/

section Steps

variable {state : State} {action : Action} {tid lock : Nat} {object after : LockObject}
  {old pc : Pc}

theorem phase_quiet (thread : state.threads[tid]? = some .idle) :
    state.view.phase tid = .quiet := by
  rw [view_phase thread, phaseOf_idle]

theorem phase_checked (found : state.objects[lock]? = some object) (checked : object.Checked)
    (thread : state.threads[tid]? = some old) (target : old.target = some lock) :
    state.view.phase tid = old.phase := by
  rw [view_phase thread, phaseOf_checked found checked target]

theorem Update.unchecked (order : LockOrder state.tables)
    (found : state.objects[lock]? = some object) (thread : state.threads[tid]? = some old)
    (about : old.target = none ∨ old.target = some lock) (unchecked : ¬object.Checked)
    (tag : SameTag object after) (target : pc.target = none ∨ pc.target = some lock)
    (unsettled : ∀ mode, pc ≠ .locked lock mode) :
    Update state action tid lock object state.tables after pc where
  tag := tag
  frame := ⟨_, _, _, rfl⟩
  order := order
  target := target
  settled mode same := absurd same (unsettled mode)
  solo checked := absurd checked unchecked
  simulates := by
    apply Simulates.stutter
    have unowned : (fun other one =>
        if one = lock then object.Checked ∧ after.OwnedBy other else state.Owns other one) =
        state.Owns := by
      funext other one
      split
      · rename_i atLock
        subst one
        simp [owns_iff found, unchecked]
      · rfl
    have quiet : state.view.phase tid = .quiet := by
      rw [view_phase thread, phaseOf_unchecked found unchecked about]
    rw [view_update found thread tag, unowned, phaseOf_unchecked found unchecked target,
      ← quiet, Function.update_eq_self]
    rfl

theorem Update.relabel (order : LockOrder state.tables)
    (found : state.objects[lock]? = some object) (thread : state.threads[tid]? = some old)
    (tag : SameTag object after) (owner : after.owner = object.owner)
    (readers : after.readers = object.readers)
    (target : pc.target = none ∨ pc.target = some lock)
    (unsettled : ∀ mode, pc ≠ .locked lock mode)
    (same : state.phaseOf pc = state.phaseOf old) :
    Update state action tid lock object state.tables after pc where
  tag := tag
  frame := ⟨_, _, _, rfl⟩
  order := order
  target := target
  settled mode same := absurd same (unsettled mode)
  solo := by
    intro _ solo _
    refine ⟨?_, ?_⟩
    · rw [readers]
      exact solo.nodup
    · rw [owner, readers]
      exact solo.exclusive
  simulates := by
    apply Simulates.stutter
    have owned (other : Tid) : after.OwnedBy other ↔ object.OwnedBy other := by
      unfold LockObject.OwnedBy
      rw [owner, readers]
    rw [view_update found thread tag, owns_same found owned, same, ← view_phase thread,
      Function.update_eq_self]
    rfl

theorem Update.enter (order : LockOrder state.tables)
    (found : state.objects[lock]? = some object) (thread : state.threads[tid]? = some old)
    (target : pc.target = none ∨ pc.target = some lock)
    (unsettled : ∀ mode, pc ≠ .locked lock mode) (taken : Move Tid Nat Nat)
    (enabled : state.view.Enabled taken)
    (result : state.view.apply taken = state.view.enter tid (state.phaseOf pc))
    (origin : Origin state action taken) :
    Update state action tid lock object state.tables object pc where
  tag := .refl object
  frame := ⟨_, _, _, rfl⟩
  order := order
  target := target
  settled mode same := absurd same (unsettled mode)
  solo _ solo _ := solo
  simulates := by
    apply Simulates.move taken enabled _ origin
    rw [view_update found thread (.refl object), owns_same found (fun _ => Iff.rfl), result]
    rfl

theorem Update.granted {mode : Mode} (order : LockOrder state.tables)
    (found : state.objects[lock]? = some object) (thread : state.threads[tid]? = some old)
    (checked : object.Checked) (granted : grantTo object tid mode = some after)
    (target : pc.target = none ∨ pc.target = some lock)
    (shared : mode = .shared → state.view.phase tid = .wanting lock)
    (taken : Move Tid Nat Nat) (enabled : state.view.Enabled taken)
    (result : state.view.apply taken =
      (state.view.acquire tid lock).enter tid (state.phaseOf pc))
    (origin : Origin state action taken) :
    Update state action tid lock object state.tables after pc := by
  obtain ⟨tag, owned, vacant⟩ := grantTo_spec granted
  refine ⟨tag, ⟨_, _, _, rfl⟩, order, target, fun _ _ => checked, ?_, ?_⟩
  · intro _ solo fresh
    cases mode with
    | exclusive =>
        rw [grantTo] at granted
        split at granted
        · rename_i free
          rw [Option.some.injEq] at granted
          subst granted
          refine ⟨solo.nodup, ?_⟩
          intro other _
          simp [free.2]
        · cases granted
    | shared =>
        have absent := fresh (shared rfl)
        rw [grantTo] at granted
        split at granted
        · rename_i free
          rw [Option.some.injEq] at granted
          subst granted
          refine ⟨List.nodup_cons.mpr ⟨fun member => absent (Or.inr member), solo.nodup⟩, ?_⟩
          intro other owner
          change object.owner = some other at owner
          rw [free] at owner
          cases owner
        · cases granted
  · apply Simulates.move taken enabled _ origin
    rw [view_update found thread tag, owns_granted found checked owned, result]
    rfl

theorem Update.released (order : LockOrder state.tables)
    (found : state.objects[lock]? = some object) (thread : state.threads[tid]? = some old)
    (checked : object.Checked) (released : releaseBy object tid = some after)
    (target : pc.target = none ∨ pc.target = some lock)
    (unsettled : ∀ mode, pc ≠ .locked lock mode) (again : Bool)
    (remains : ∀ other, after.OwnedBy other ↔
      object.OwnedBy other ∧ (other = tid → again = true))
    (taken : Move Tid Nat Nat) (enabled : state.view.Enabled taken)
    (result : state.view.apply taken =
      (state.view.relinquish tid lock again).enter tid (state.phaseOf pc))
    (origin : Origin state action taken) :
    Update state action tid lock object state.tables after pc := by
  have tag := (releaseBy_spec released).1
  refine ⟨tag, ⟨_, _, _, rfl⟩, order, target, fun mode same => absurd same (unsettled mode),
    ?_, ?_⟩
  · intro _ solo _
    unfold releaseBy at released
    split_ifs at released with owner reader
    · rw [Option.some.injEq] at released
      subst released
      exact ⟨solo.nodup, nofun⟩
    · rw [Option.some.injEq] at released
      subst released
      refine ⟨solo.nodup.erase tid, ?_⟩
      intro other atOwner member
      exact solo.exclusive other atOwner (List.mem_of_mem_erase member)
  · apply Simulates.move taken enabled _ origin
    rw [view_update found thread tag, owns_released found checked remains, result]
    rfl

end Steps

/-! ### What one action can do -/

structure Consistent (state : State) : Prop where
  sound : Sound state.view
  registry : Registry state.tables state.carriers
  order : LockOrder state.tables
  identified : ∀ (lock : Nat) (object : LockObject), state.objects[lock]? = some object →
    object.Checked → ∃ id, object.id = some id
  placed : ∀ (tid : Tid) (pc : Pc) (lock : Nat), state.threads[tid]? = some pc →
    pc.target = some lock → lock < state.objects.length
  settled : ∀ (tid : Tid) (lock : Nat) (mode : Mode),
    state.threads[tid]? = some (.locked lock mode) → state.Checks lock

/-- Every result of an action. A condition wait also writes `waiter_mutex`, which
no invariant looks at. -/
inductive Effect (state : State) (action : Action) : State → Prop
  | control (waiters : Nat → Option Nat) (flag : Bool) :
      Effect state action { state with waiterMutex := waiters, aborted := flag }
  | update (waiters : Nat → Option Nat) {tid : Tid} {lock : Nat} {object after : LockObject}
      {tables : Tables} {old pc : Pc} (found : state.objects[lock]? = some object)
      (thread : state.threads[tid]? = some old)
      (update : Update state action tid lock object tables after pc) :
      Effect state action { state.update tables lock after tid pc with waiterMutex := waiters }
  | createUnchecked (kind : Kind) (name : Name) :
      Effect state action
        { state with objects := state.objects ++ [newObject kind name none false] }
  | create {kind : Kind} {name : Name} {tables : Tables} {id : Nat}
      (same : action = .create kind name true)
      (registered : lockdepRegisterHeld state.tables name = (tables, some id)) :
      Effect state action
        { state with
          tables := tables
          objects := state.objects ++ [newObject kind name (some id) true] }
  | createFailed {name : Name} {tables : Tables}
      (failed : lockdepRegisterHeld state.tables name = (tables, none)) :
      Effect state action (state.setTables tables)
  | destroyUnchecked {lock : Nat} {object : LockObject}
      (found : state.objects[lock]? = some object) (unchecked : object.lockdep = false)
      (unowned : ∀ other, ¬object.OwnedBy other)
      (untouched : ∀ (other : Tid) (pc : Pc), state.threads[other]? = some pc →
        pc.target ≠ some lock) :
      Effect state action (state.setObject lock { object with live := false })
  | destroy {lock id : Nat} {object : LockObject} (found : state.objects[lock]? = some object)
      (checked : object.Checked) (atId : object.id = some id)
      (unowned : ∀ other, ¬object.OwnedBy other)
      (untouched : ∀ (other : Tid) (pc : Pc), state.threads[other]? = some pc →
        pc.target ≠ some lock) :
      Effect state action
        ((state.setTables (lockdepUnregister state.tables (some id))).setObject lock
          { object with live := false })

theorem newObject_unowned (kind : Kind) (name : Name) (id : Option Nat) (lockdep : Bool)
    (other : Tid) : ¬(newObject kind name id lockdep).OwnedBy other := by
  simp [newObject, LockObject.OwnedBy]

section Effects

variable {state next : State} {action : Action}

theorem Simulates.sound (simulates : Simulates state action next) (sound : Sound state.view) :
    Sound next.view := by
  cases simulates with
  | stutter same => exact same ▸ sound
  | move taken enabled result _ => exact result ▸ sound.apply enabled

theorem carriers_append (tables : Tables) (new : LockObject) (id : Nat) :
    State.carriers { state with tables := tables, objects := state.objects ++ [new] } id =
      state.carriers id + new.share id := by
  unfold State.carriers
  rw [total_append, total_cons, total_nil, Nat.add_zero]

theorem carriers_shared {lock id : Nat} {object : LockObject}
    (found : state.objects[lock]? = some object) (checked : object.Checked)
    (atId : object.id = some id) :
    1 < state.carriers id ↔ ∃ other, other ≠ lock ∧ state.view.carries other id := by
  have one : object.share id = 1 := if_pos ⟨checked, atId⟩
  constructor
  · intro several
    obtain ⟨other, present, apart, atOther, counted⟩ :=
      exists_other (LockObject.share id) found (by rw [one]; exact several)
    refine ⟨other, apart, present, atOther, ?_⟩
    by_contra different
    exact counted (if_neg different)
  · rintro ⟨other, apart, present, atOther, carries⟩
    have both := add_le_total (LockObject.share id) found atOther apart
    have another : present.share id = 1 := if_pos carries
    unfold State.carriers
    omega

theorem carriers_positive {lock id : Nat} (carries : state.view.carries lock id) :
    state.carriers id ≠ 0 := by
  obtain ⟨object, found, checked⟩ := carries
  have counted := le_total (LockObject.share id) found
  have one : object.share id = 1 := if_pos checked
  unfold State.carriers
  omega

theorem carried_after {lock id carried : Nat} {object : LockObject}
    (consistent : Consistent state) (found : state.objects[lock]? = some object)
    (checked : object.Checked) (atId : object.id = some id)
    (before : state.view.Carried carried) :
    (state.carriers id = 1 → carried ≠ id) ↔
      ∃ other, state.view.carries other carried ∧ other ≠ lock := by
  have here : state.view.carries lock id := ⟨object, found, checked, atId⟩
  have shared := carriers_shared found checked atId
  have positive := carriers_positive here
  constructor
  · intro survives
    by_cases same : carried = id
    · have several : 1 < state.carriers id := by
        have notLast : state.carriers id ≠ 1 := fun last => survives last same
        omega
      obtain ⟨other, apart, carries⟩ := shared.mp several
      exact ⟨other, same ▸ carries, apart⟩
    · obtain ⟨other, carries⟩ := before
      refine ⟨other, carries, ?_⟩
      rintro rfl
      exact same (consistent.sound.functional other carried id carries here)
  · rintro ⟨other, carries, apart⟩ last rfl
    have several := shared.mpr ⟨other, apart, carries⟩
    omega

theorem Effect.simulates (consistent : Consistent state) (effect : Effect state action next) :
    Simulates state action next := by
  cases effect with
  | control waiters flag => exact .stutter rfl
  | update waiters found thread update =>
      cases update.simulates with
      | stutter same => exact .stutter same
      | move taken enabled result origin => exact .move taken enabled result origin
  | createUnchecked kind name =>
      apply Simulates.stutter
      rw [view_append state.tables consistent.placed (newObject_unowned _ _ _ _)]
      simp only [newObject, LockObject.Checked, Bool.false_eq_true, and_false, false_and,
        or_false]
      rfl
  | @create kind name tables id same registered =>
      have frame := lockdepRegisterHeld_frame consistent.registry name
      rw [registered] at frame
      have vacant : state.objects[state.objects.length]? = none :=
        List.getElem?_eq_none (Nat.le_refl _)
      refine .move (.create state.objects.length id) ⟨?_, ?_, ?_⟩ ?_ trivial
      · rintro other ⟨object, found, _⟩
        rw [vacant] at found
        cases found
      · rintro other ⟨object, found, _⟩
        rw [vacant] at found
        cases found
      · intro other about
        obtain ⟨carried, object, found, _⟩ := consistent.sound.mentioned other _ about
        rw [vacant] at found
        cases found
      · rw [view_append tables consistent.placed (newObject_unowned _ _ _ _), frame.held]
        have edges : tables.Follows = state.tables.Follows := by
          unfold Tables.Follows follows
          rw [frame.tree]
        rw [edges]
        simp only [newObject, LockObject.Checked, and_self, true_and, Option.some.injEq]
        simp only [eq_comm (a := id)]
        rfl
  | @createFailed name tables failed =>
      have frame := lockdepRegisterHeld_frame consistent.registry name
      rw [failed] at frame
      apply Simulates.stutter
      have edges : tables.Follows = state.tables.Follows := by
        unfold Tables.Follows follows
        rw [frame.tree]
      change ({ state.view with
        held := fun other id => id ∈ (tables.heldLocks other).keys
        follows := tables.Follows } : LockProtocol.State Tid Nat Nat) = _
      rw [edges, frame.held]
      rfl
  | @destroyUnchecked lock object found unchecked unowned untouched =>
      apply Simulates.stutter
      have elsewhere : (fun one id => state.view.carries one id ∧ one ≠ lock) =
          state.view.carries := by
        funext one id
        refine propext ⟨And.left, fun carries => ⟨carries, ?_⟩⟩
        rintro rfl
        have checked := ((carries_iff found id).mp carries).1.2
        rw [unchecked] at checked
        cases checked
      change ((state.setTables state.tables).setObject lock { object with live := false }).view = _
      rw [view_retire state.tables found unowned untouched, elsewhere]
      rfl
  | @destroy lock id object found checked atId unowned untouched =>
      have carries : state.view.carries lock id := ⟨object, found, checked, atId⟩
      have present := carriers_positive carries
      refine .move (.destroy lock) ⟨?_, ?_⟩ ?_ trivial
      · intro other owns
        exact unowned other ((owns_iff found).mp owns).2
      · intro other about
        obtain ⟨pc, thread, target⟩ := target_of_about about
        exact untouched other pc thread target
      · rw [view_retire _ found unowned untouched,
          lockdepUnregister_held consistent.registry present]
        have edges : (lockdepUnregister state.tables (some id)).Follows =
            (state.view.apply (.destroy lock)).follows := by
          funext left right
          rw [lockdepUnregister_follows consistent.registry consistent.order present]
          refine propext (and_congr_right fun edge => ?_)
          obtain ⟨leftCarried, rightCarried⟩ := consistent.sound.carried left right edge
          rw [← carried_after consistent found checked atId leftCarried,
            ← carried_after consistent found checked atId rightCarried]
          exact ⟨fun apart => ⟨fun last => (apart last).1, fun last => (apart last).2⟩,
            fun apart last => ⟨apart.1 last, apart.2 last⟩⟩
        rw [edges]
        rfl

theorem Effect.registry (consistent : Consistent state) (effect : Effect state action next) :
    Registry next.tables next.carriers := by
  have registry := consistent.registry
  cases effect with
  | control waiters flag => exact registry
  | @update waiters tid lock object after tables old pc found thread update =>
      obtain ⟨tree, traces, held, same⟩ := update.frame
      have counts : State.carriers { state.update tables lock after tid pc with
          waiterMutex := waiters } = state.carriers := by
        funext id
        apply total_set_same _ found
        simp only [LockObject.share, update.tag.checked, update.tag.id]
      rw [counts]
      change Registry tables state.carriers
      rw [same]
      exact registry.frame tree traces held
  | createUnchecked kind name =>
      have counts : State.carriers
          { state with objects := state.objects ++ [newObject kind name none false] } =
          state.carriers := by
        funext other
        rw [carriers_append]
        simp [LockObject.share, newObject, LockObject.Checked]
      rw [counts]
      exact registry
  | @create kind name tables id same registered =>
      have counts : State.carriers
          { state with
            tables := tables
            objects := state.objects ++ [newObject kind name (some id) true] } =
          gain state.carriers id := by
        funext other
        rw [carriers_append, gain, Function.update_apply]
        simp only [LockObject.share, newObject, LockObject.Checked, and_self, true_and,
          Option.some.injEq, eq_comm (a := id)]
        split
        · rename_i same
          rw [same]
        · rfl
      rw [counts]
      exact lockdepRegisterHeld_registry registry registered
  | createFailed failed => exact lockdepRegisterHeld_failed registry failed
  | @destroyUnchecked lock object found unchecked unowned untouched =>
      have counts : (state.setObject lock { object with live := false }).carriers =
          state.carriers := by
        funext id
        apply total_set_same _ found
        simp [LockObject.share, LockObject.Checked, unchecked]
      rw [counts]
      exact registry
  | @destroy lock id object found checked atId unowned untouched =>
      have carries : state.view.carries lock id := ⟨object, found, checked, atId⟩
      have counts : State.carriers
          ((state.setTables (lockdepUnregister state.tables (some id))).setObject lock
            { object with live := false }) = lose state.carriers id := by
        funext other
        have moved := total_set (LockObject.share other) { object with live := false } found
        have gone : LockObject.share other { object with live := false } = 0 := by
          simp [LockObject.share, LockObject.Checked]
        rw [gone, Nat.add_zero] at moved
        rw [lose, Function.update_apply]
        split
        · rename_i same
          subst other
          have one : object.share id = 1 := if_pos ⟨checked, atId⟩
          rw [one] at moved
          exact Nat.eq_sub_of_add_eq moved
        · rename_i apart
          have none : object.share other = 0 := by
            apply if_neg
            rintro ⟨_, same⟩
            rw [atId, Option.some.injEq] at same
            exact apart same.symm
          rw [none] at moved
          exact moved
      rw [counts]
      exact lockdepUnregister_registry registry (carriers_positive carries)

theorem Effect.order (consistent : Consistent state) (effect : Effect state action next) :
    LockOrder next.tables := by
  have order := consistent.order
  cases effect with
  | control waiters flag => exact order
  | update waiters found thread update => exact update.order
  | createUnchecked kind name => exact order
  | @create kind name tables id same registered =>
      have after := order.register consistent.registry name
      rw [registered] at after
      exact after
  | @createFailed name tables failed =>
      have after := order.register consistent.registry name
      rw [failed] at after
      exact after
  | destroyUnchecked found unchecked unowned untouched => exact order
  | @destroy lock id object found checked atId unowned untouched =>
      have carries : state.view.carries lock id := ⟨object, found, checked, atId⟩
      exact order.unregister consistent.registry (carriers_positive carries)

theorem getElem?_of_retired {lock place : Nat} {old object : LockObject}
    (atPlace : state.objects[place]? = some old)
    (found : (state.objects.set place { old with live := false })[lock]? = some object)
    (checked : object.Checked) : place ≠ lock ∧ state.objects[lock]? = some object := by
  rcases getElem?_set_cases atPlace found with ⟨_, rfl⟩ | kept
  · cases checked.1
  · exact kept

theorem Effect.object_source (effect : Effect state action next) {lock : Nat}
    {object : LockObject} (found : next.objects[lock]? = some object)
    (checked : object.Checked) :
    (∃ before, state.objects[lock]? = some before ∧ SameTag before object) ∨
      (lock = state.objects.length ∧ ∃ kind name id, action = .create kind name true ∧
        object = newObject kind name (some id) true ∧
        lockdepRegisterHeld state.tables name = (next.tables, some id)) := by
  cases effect with
  | control waiters flag => exact Or.inl ⟨object, found, .refl object⟩
  | @update waiters tid place before after tables old pc atPlace thread update =>
      left
      rcases getElem?_set_cases atPlace found with ⟨rfl, rfl⟩ | ⟨_, kept⟩
      · exact ⟨before, atPlace, update.tag⟩
      · exact ⟨object, kept, .refl object⟩
  | createUnchecked kind name =>
      rcases getElem?_append_cases found with kept | ⟨_, rfl⟩
      · exact Or.inl ⟨object, kept, .refl object⟩
      · cases checked.2
  | @create kind name tables id same registered =>
      rcases getElem?_append_cases found with kept | ⟨last, rfl⟩
      · exact Or.inl ⟨object, kept, .refl object⟩
      · exact Or.inr ⟨last, kind, name, id, same, rfl, registered⟩
  | createFailed failed => exact Or.inl ⟨object, found, .refl object⟩
  | destroyUnchecked atPlace unchecked unowned untouched =>
      exact Or.inl ⟨object, (getElem?_of_retired atPlace found checked).2, .refl object⟩
  | destroy atPlace isChecked atId unowned untouched =>
      exact Or.inl ⟨object, (getElem?_of_retired atPlace found checked).2, .refl object⟩

theorem Effect.thread_source (effect : Effect state action next) {tid : Tid} {pc : Pc}
    (thread : next.threads[tid]? = some pc) :
    state.threads[tid]? = some pc ∨
      ∀ lock, pc.target = some lock → lock < state.objects.length ∧
        ∀ mode, pc = .locked lock mode → next.Checks lock := by
  cases effect with
  | @update waiters actor place object after tables old new found atActor update =>
      obtain ⟨inside, _⟩ := List.getElem?_eq_some_iff.mp found
      rcases getElem?_set_cases atActor thread with ⟨rfl, rfl⟩ | ⟨_, kept⟩
      · right
        intro lock target
        have atPlace : lock = place := by
          rcases update.target with none | about
          · rw [none] at target
            cases target
          · rw [about, Option.some.injEq] at target
            exact target.symm
        subst atPlace
        refine ⟨inside, ?_⟩
        intro mode settled
        refine ⟨after, ?_, update.tag.checked.mpr (update.settled mode settled)⟩
        exact List.getElem?_set_self inside
      · exact Or.inl kept
  | _ => exact Or.inl thread

theorem Effect.length_le (effect : Effect state action next) :
    state.objects.length ≤ next.objects.length := by
  cases effect with
  | control waiters flag => exact Nat.le_refl _
  | update waiters found thread update => exact Nat.le_of_eq List.length_set.symm
  | createUnchecked kind name =>
      exact (List.length_append ▸ Nat.le_add_right _ _ : _ ≤ (state.objects ++ _).length)
  | create same registered =>
      exact (List.length_append ▸ Nat.le_add_right _ _ : _ ≤ (state.objects ++ _).length)
  | createFailed failed => exact Nat.le_refl _
  | destroyUnchecked found unchecked unowned untouched =>
      exact Nat.le_of_eq List.length_set.symm
  | destroy found checked atId unowned untouched => exact Nat.le_of_eq List.length_set.symm

theorem Effect.checks_kept (effect : Effect state action next) {lock : Nat} {tid : Tid}
    {pc : Pc} (checks : state.Checks lock) (thread : state.threads[tid]? = some pc)
    (target : pc.target = some lock) : next.Checks lock := by
  obtain ⟨object, found, checked⟩ := checks
  have retired {place : Nat} {old : LockObject}
      (untouched : ∀ (other : Tid) (pc : Pc), state.threads[other]? = some pc →
        pc.target ≠ some place) :
      (state.objects.set place { old with live := false })[lock]? = some object := by
    have apart : place ≠ lock := by
      rintro rfl
      exact untouched tid pc thread target
    rw [List.getElem?_set_ne apart]
    exact found
  have below := (List.getElem?_eq_some_iff.mp found).1
  cases effect with
  | control waiters flag => exact ⟨object, found, checked⟩
  | update waiters atPlace atActor update =>
      exact (getElem?_set_tag atPlace LockObject.Checked update.tag.checked).mpr
        ⟨object, found, checked⟩
  | createUnchecked kind name =>
      exact ⟨object, (List.getElem?_append_left below).trans found, checked⟩
  | create same registered =>
      exact ⟨object, (List.getElem?_append_left below).trans found, checked⟩
  | createFailed failed => exact ⟨object, found, checked⟩
  | destroyUnchecked atPlace unchecked unowned untouched =>
      exact ⟨object, retired untouched, checked⟩
  | destroy atPlace isChecked atId unowned untouched =>
      exact ⟨object, retired untouched, checked⟩

theorem Effect.label_kept (consistent : Consistent state) (effect : Effect state action next)
    {lock id : Nat} {before after : LockObject} (atBefore : state.objects[lock]? = some before)
    (atAfter : next.objects[lock]? = some after) (tag : SameTag before after)
    (checked : before.Checked) (atId : before.id = some id)
    (stored : state.tables.idToName id = some before.lockName) :
    next.tables.idToName id = some before.lockName := by
  have registry := consistent.registry
  cases effect with
  | control waiters flag => exact stored
  | update waiters found thread update =>
      obtain ⟨tree, traces, held, rfl⟩ := update.frame
      exact stored
  | createUnchecked kind name => exact stored
  | @create kind name tables new same registered =>
      have frame := lockdepRegisterHeld_frame registry name
      rw [registered] at frame
      exact frame.kept id _ stored
  | @createFailed name tables failed =>
      have frame := lockdepRegisterHeld_frame registry name
      rw [failed] at frame
      exact frame.kept id _ stored
  | destroyUnchecked found unchecked unowned untouched => exact stored
  | @destroy place gone object found isChecked goneId unowned untouched =>
      have elsewhere := (getElem?_of_retired found atAfter (tag.checked.mpr checked)).1
      have present := carriers_positive ⟨object, found, isChecked, goneId⟩
      change (lockdepUnregister state.tables (some gone)).idToName id = _
      rw [lockdepUnregister_idToName registry present, if_neg]
      · exact stored
      · -- The object that stays carries the identifier, so the one destroyed is not the last.
        rintro ⟨last, rfl⟩
        have several := (carriers_shared found isChecked goneId).mpr
          ⟨lock, Ne.symm elsewhere, before, atBefore, checked, atId⟩
        omega

/-- A step keeps every checked object's name at its identifier if it does so for
the object it creates. -/
theorem Effect.labels (consistent : Consistent state) (effect : Effect state action next)
    (named : ∀ (lock id : Nat) (object : LockObject), state.objects[lock]? = some object →
      object.Checked → object.id = some id → state.tables.idToName id = some object.lockName)
    (fresh : ∀ (kind : Kind) (name : Name) (id : Nat), action = .create kind name true →
      lockdepRegisterHeld state.tables name = (next.tables, some id) →
      next.tables.idToName id = some name) :
    ∀ (lock id : Nat) (object : LockObject), next.objects[lock]? = some object →
      object.Checked → object.id = some id →
      next.tables.idToName id = some object.lockName := by
  intro lock id object found checked atId
  rcases effect.object_source found checked with
    ⟨before, atBefore, tag⟩ | ⟨_, kind, name, new, created, rfl, registered⟩
  · have old := tag.checked.mp checked
    have same : before.id = some id := tag.id ▸ atId
    rw [tag.lockName]
    exact effect.label_kept consistent atBefore found tag old same
      (named lock id before atBefore old same)
  · cases atId
    exact fresh kind name id created registered

theorem Effect.consistent (consistent : Consistent state) (effect : Effect state action next) :
    Consistent next := by
  refine ⟨(effect.simulates consistent).sound consistent.sound, effect.registry consistent,
    effect.order consistent, ?_, ?_, ?_⟩
  · intro lock object found checked
    rcases effect.object_source found checked with
      ⟨before, atBefore, tag⟩ | ⟨_, kind, name, id, _, rfl, _⟩
    · obtain ⟨id, atId⟩ := consistent.identified lock before atBefore (tag.checked.mp checked)
      exact ⟨id, tag.id ▸ atId⟩
    · exact ⟨id, rfl⟩
  · intro tid pc lock thread target
    have grown := effect.length_le
    rcases effect.thread_source thread with before | stepped
    · have below := consistent.placed tid pc lock before target
      omega
    · have below := (stepped lock target).1
      omega
  · intro tid lock mode thread
    rcases effect.thread_source thread with before | stepped
    · exact effect.checks_kept (consistent.settled tid lock mode before) before rfl
    · exact (stepped lock rfl).2 mode rfl

end Effects

end BlueThread.Locks
