/-
Every function of the lock model has one of the effects of `Locks.Refinement`.

One lemma for each step function, then one for the transition function, then
the induction over runs. The calls into the checker are the steps that need the
invariant: it makes `lockdep_will_lock` return or abort, and it makes the
identifiers of live objects known.
-/

import BlueThread.Locks.Refinement

namespace BlueThread.Locks

open Lockdep LockProtocol Population

section Calls

variable {state next : State} {action : Action} {tid lock : Nat} {object : LockObject}
  {old pc : Pc} {trace : BackTrace}

theorem setPc_eq_update (found : state.objects[lock]? = some object) (tables : Tables)
    (tid : Tid) (pc : Pc) :
    (state.setTables tables).setPc tid pc = state.update tables lock object tid pc := by
  unfold State.update State.setObject State.setTables State.setPc
  simp only [set_same found]

theorem Effect.setPc (found : state.objects[lock]? = some object)
    (thread : state.threads[tid]? = some old)
    (update : Update state action tid lock object state.tables object pc) :
    Effect state action (state.setPc tid pc) := by
  change Effect state action ((state.setTables state.tables).setPc tid pc)
  rw [setPc_eq_update found]
  exact .update state.waiterMutex found thread update

theorem Consistent.carries (consistent : Consistent state)
    (found : state.objects[lock]? = some object) (checked : object.Checked) :
    ∃ id, object.id = some id ∧ state.view.carries lock id := by
  obtain ⟨id, atId⟩ := consistent.identified lock object found checked
  exact ⟨id, atId, object, found, checked, atId⟩

theorem Consistent.registered (consistent : Consistent state) {id : Nat}
    (carries : state.view.carries lock id) : state.tables.Registered id :=
  (consistent.registry.named id).mpr (carriers_positive carries)

theorem Consistent.held_registered (consistent : Consistent state) {id : Nat}
    (held : state.view.held tid id) : state.tables.Registered id := by
  obtain ⟨target, carries, _⟩ := consistent.sound.recorded tid id held
  exact consistent.registered carries

/-- `_will_lock` on a checked object aborts or extends the order; it never throws,
and the object keeps its identifier. -/
theorem Consistent.willLock_cases (consistent : Consistent state)
    (found : state.objects[lock]? = some object) (checked : object.Checked)
    (tid : Tid) (trace : BackTrace) (pc : Pc) :
    ∃ id, state.view.carries lock id ∧
      (willLock state tid lock object trace pc = some state.abort ∨
        ∃ result, willLock state tid lock object trace pc =
            some (state.update result lock object tid pc) ∧
          Extended state.tables result id (state.tables.heldLocks tid).keys ∧
          ∀ held, state.view.held tid held → ¬Conflicts state.tables id held) := by
  obtain ⟨id, atId, carries⟩ := consistent.carries found checked
  have decided := willLockLoop_decides id trace state.carriers
    (state.tables.heldLocks tid).entries state.tables consistent.registry consistent.order
    (consistent.registered carries) (fun held member => consistent.held_registered member)
  have call : lockdepWillLock state.tables tid object.lockName object.id trace =
      willLockLoop id trace (state.tables.heldLocks tid).entries state.tables := by
    rw [atId]
    rfl
  have same : { object with id := some id } = object := by
    rw [← atId]
  unfold willLock
  rw [if_pos checked.2, call]
  refine ⟨id, carries, ?_⟩
  rcases decided with ⟨aborted, _⟩ | ⟨result, returned, extended, clean⟩
  · rw [aborted]
    exact Or.inl rfl
  · rw [returned]
    simp only [same]
    exact Or.inr ⟨result, rfl, extended, clean⟩

theorem willLock_effect (consistent : Consistent state)
    (found : state.objects[lock]? = some object) (live : object.live = true)
    (thread : state.threads[tid]? = some .idle) (trace : BackTrace)
    (target : pc.target = some lock) (wanting : pc.phase = .wanting lock)
    (done : willLock state tid lock object trace pc = some next) :
    Effect state action next := by
  have unsettled : ∀ mode, pc ≠ .locked lock mode := by
    rintro mode rfl
    cases wanting
  by_cases lockdep : object.lockdep = true
  · have checked : object.Checked := ⟨live, lockdep⟩
    obtain ⟨id, carries, aborted | ⟨result, returned, extended, clean⟩⟩ :=
      consistent.willLock_cases found checked tid trace pc
    · rw [aborted, Option.some.injEq] at done
      subst done
      exact .control state.waiterMutex true
    · rw [returned, Option.some.injEq] at done
      subst done
      obtain ⟨tree, traces, only⟩ := extended.only
      refine .update state.waiterMutex found thread
        ⟨.refl object, ⟨tree, traces, state.tables.heldLocks, only⟩, extended.order,
          Or.inr target, fun mode impossible => absurd impossible (unsettled mode),
          fun _ solo _ => solo, ?_⟩
      refine .move (.intend tid lock id) ⟨phase_quiet thread, carries, ?_⟩ ?_ trivial
      · intro held isHeld
        exact ⟨fun equal => clean held isHeld (Or.inl equal),
          fun path => clean held isHeld (Or.inr path)⟩
      · have edges : result.Follows =
            Digraph.insertInto state.tables.Follows (state.view.held tid) id := by
          funext left right
          rw [extended.edges]
          exact propext (or_congr Iff.rfl and_comm)
        have held : result.heldLocks = state.tables.heldLocks := by
          rw [only]
        rw [view_update found thread (.refl object), owns_same found (fun _ => Iff.rfl),
          phaseOf_checked found checked target, wanting, edges, held]
        rfl
  · rw [willLock, if_neg lockdep, Option.some.injEq] at done
    subst done
    exact .setPc found thread (.unchecked consistent.order found thread (Or.inl rfl)
      (fun checked => lockdep checked.2) (.refl object) (Or.inr target) unsettled)

theorem ofBooks_target (lock : Nat) (after : After) (books : List Book) :
    (Pc.ofBooks lock after books).target = none ∨
      (Pc.ofBooks lock after books).target = some lock := by
  cases books with
  | nil =>
      cases after with
      | finish => exact Or.inl rfl
      | willUnlock => exact Or.inr rfl
      | condWait cond => exact Or.inr rfl
  | cons next rest => exact Or.inr rfl

theorem ofBooks_unsettled (lock : Nat) (after : After) (books : List Book) (mode : Mode) :
    Pc.ofBooks lock after books ≠ .locked lock mode := by
  cases books with
  | nil => cases after <;> exact nofun
  | cons next rest => exact nofun

theorem phaseOf_ofBooks (found : state.objects[lock]? = some object) (checked : object.Checked)
    (after : After) (books : List Book) :
    state.phaseOf (.ofBooks lock after books) = after.phase lock := by
  cases books with
  | nil =>
      cases after with
      | finish => exact phaseOf_idle
      | willUnlock => exact phaseOf_checked found checked rfl
      | condWait cond => exact phaseOf_checked found checked rfl
  | cons next rest => exact phaseOf_checked found checked rfl

theorem Book.run_spec {next : Book} {rest after : List Book} {changed : LockObject}
    (ran : next.run tid object rest = some (changed, after)) :
    SameTag object changed ∧ changed.owner = object.owner ∧
      changed.readers = object.readers := by
  cases next <;> simp only [Book.run] at ran <;> try split_ifs at ran
  all_goals
    simp only [Option.some.injEq, Prod.mk.injEq] at ran
    obtain ⟨rfl, _⟩ := ran
    exact ⟨⟨rfl, rfl, rfl, rfl⟩, rfl, rfl⟩

theorem advanceBook_effect (consistent : Consistent state)
    (found : state.objects[lock]? = some object) (next : Book) (rest : List Book)
    (after : After) (thread : state.threads[tid]? = some (.book lock next rest after)) :
    Effect state action (advanceBook state tid lock object next rest after) := by
  unfold advanceBook
  split
  · rename_i changed remaining ran
    obtain ⟨tag, owner, readers⟩ := Book.run_spec ran
    refine .update state.waiterMutex found thread (.relabel consistent.order found thread tag
      owner readers (ofBooks_target lock after remaining)
      (ofBooks_unsettled lock after remaining) ?_)
    have target : (Pc.book lock next rest after).target = some lock := rfl
    by_cases checked : object.Checked
    · rw [phaseOf_ofBooks found checked, phaseOf_checked found checked target]
      rfl
    · rw [phaseOf_unchecked found checked (ofBooks_target lock after remaining),
        phaseOf_unchecked found checked (Or.inr target)]
  · exact .control state.waiterMutex true

theorem acquired_effect {mode : Mode} {owned : LockObject} (consistent : Consistent state)
    (found : state.objects[lock]? = some object) (live : object.live = true)
    (thread : state.threads[tid]? = some old)
    (about : old.target = none ∨ old.target = some lock)
    (granted : grantTo object tid mode = some owned)
    (shared : mode = .shared → object.Checked → state.view.phase tid = .wanting lock)
    (taken : Move Tid Nat Nat)
    (legal : object.Checked → state.view.Enabled taken ∧
      state.view.apply taken = (state.view.acquire tid lock).enter tid (.grabbed lock) ∧
      Origin state action taken) :
    Effect state action ((state.setObject lock owned).setPc tid (acquiredPc lock object mode)) := by
  by_cases lockdep : object.lockdep = true
  · have checked : object.Checked := ⟨live, lockdep⟩
    obtain ⟨enabled, result, origin⟩ := legal checked
    have next : acquiredPc lock object mode = .locked lock mode := if_pos lockdep
    have target : (Pc.locked lock mode).target = some lock := rfl
    rw [next]
    refine .update state.waiterMutex found thread
      (.granted consistent.order found thread checked granted (Or.inr target)
        (fun isShared => shared isShared checked) taken enabled ?_ origin)
    rw [result, phaseOf_checked found checked target]
    rfl
  · have next : acquiredPc lock object mode =
        .ofBooks lock .finish (postLock object.kind mode object.lockdep) := if_neg lockdep
    rw [next]
    exact .update state.waiterMutex found thread
      (.unchecked consistent.order found thread about (fun checked => lockdep checked.2)
        (grantTo_spec granted).1 (ofBooks_target _ _ _) (ofBooks_unsettled _ _ _))

theorem grab_effect {mode : Mode} {owned : LockObject} (consistent : Consistent state)
    (found : state.objects[lock]? = some object) (live : object.live = true)
    (thread : state.threads[tid]? = some old) (target : old.target = some lock)
    (wanting : old.phase = .wanting lock) (granted : grantTo object tid mode = some owned) :
    Effect state action
      ((state.setObject lock owned).setPc tid (acquiredPc lock object mode)) := by
  have phase (checked : object.Checked) : state.view.phase tid = .wanting lock := by
    rw [phase_checked found checked thread target, wanting]
  exact acquired_effect consistent found live thread (Or.inr target) granted
    (fun _ checked => phase checked) (.grab tid lock)
    (fun checked => ⟨phase checked, rfl, trivial⟩)

theorem tryLock_effect (consistent : Consistent state)
    (found : state.objects[lock]? = some object) (live : object.live = true)
    (thread : state.threads[tid]? = some .idle) (origin : action = .tryLock tid lock) :
    Effect state action (tryLock state tid lock object) := by
  unfold tryLock
  split
  · rename_i owned granted
    refine acquired_effect consistent found live thread (Or.inl rfl) granted nofun
      (.seize tid lock) ?_
    intro checked
    obtain ⟨id, _, carries⟩ := consistent.carries found checked
    refine ⟨⟨phase_quiet thread, ⟨id, carries⟩, ?_⟩, rfl, origin⟩
    intro owns
    exact (grantTo_spec granted).2.2 rfl tid ((owns_iff found).mp owns).2
  · exact .control state.waiterMutex state.aborted

theorem Consistent.settled_checked {mode : Mode} (consistent : Consistent state)
    (found : state.objects[lock]? = some object)
    (thread : state.threads[tid]? = some (.locked lock mode)) : object.Checked := by
  obtain ⟨present, atLock, checked⟩ := consistent.settled tid lock mode thread
  rw [found, Option.some.injEq] at atLock
  exact atLock ▸ checked

theorem Consistent.advanceLocked_eq {mode : Mode} (consistent : Consistent state)
    (found : state.objects[lock]? = some object)
    (thread : state.threads[tid]? = some (.locked lock mode)) (trace : BackTrace) :
    ∃ id, state.view.carries lock id ∧
      advanceLocked state tid lock object mode trace = some (state.update
        { state.tables with
          heldLocks := Function.update state.tables.heldLocks tid
            ((state.tables.heldLocks tid).assign id trace) }
        lock object tid (.ofBooks lock .finish (postLock object.kind mode object.lockdep))) := by
  obtain ⟨id, atId, carries⟩ :=
    consistent.carries found (consistent.settled_checked found thread)
  have same : { object with id := some id } = object := by
    rw [← atId]
  refine ⟨id, carries, ?_⟩
  simp only [advanceLocked, lockdepLocked, atId, ensureId, same]
  rfl

theorem advanceLocked_effect {mode : Mode} (consistent : Consistent state)
    (found : state.objects[lock]? = some object) (trace : BackTrace)
    (thread : state.threads[tid]? = some (.locked lock mode))
    (done : advanceLocked state tid lock object mode trace = some next) :
    Effect state action next := by
  have checked := consistent.settled_checked found thread
  obtain ⟨id, carries, recorded⟩ := consistent.advanceLocked_eq found thread trace
  rw [recorded, Option.some.injEq] at done
  subst done
  have target : (Pc.locked lock mode).target = some lock := rfl
  refine .update state.waiterMutex found thread
    ⟨.refl object, ⟨_, _, _, rfl⟩, consistent.order.transfer rfl rfl (fun _ known => known),
      ofBooks_target _ _ _, fun _ impossible => absurd impossible (ofBooks_unsettled _ _ _ _),
      fun _ solo _ => solo, ?_⟩
  refine .move (.record tid lock id)
    ⟨phase_checked found checked thread target, carries⟩ ?_ trivial
  have held (other : Tid) (one : Nat) :
      one ∈ (Function.update state.tables.heldLocks tid
        ((state.tables.heldLocks tid).assign id trace) other).keys ↔
        state.view.held other one ∨ (other = tid ∧ one = id) := by
    by_cases atTid : other = tid
    · subst other
      rw [Function.update_self, OrderedMap.mem_keys_assign]
      simp only [true_and]
      exact or_comm
    · rw [Function.update_of_ne atTid]
      simp only [atTid, false_and, or_false]
      rfl
  rw [view_update found thread (.refl object), owns_same found (fun _ => Iff.rfl),
    phaseOf_ofBooks found checked]
  simp only [held]
  rfl

theorem willUnlock_effect (consistent : Consistent state)
    (found : state.objects[lock]? = some object) (live : object.live = true)
    (thread : state.threads[tid]? = some (.willUnlock lock)) :
    Effect state action
      ((state.setTables (if object.lockdep then lockdepWillUnlock state.tables tid object.id
        else state.tables)).setPc tid (.unlocking lock)) := by
  have before : (Pc.willUnlock lock).target = some lock := rfl
  have after : (Pc.unlocking lock).target = some lock := rfl
  by_cases lockdep : object.lockdep = true
  · have checked : object.Checked := ⟨live, lockdep⟩
    obtain ⟨id, atId, carries⟩ := consistent.carries found checked
    rw [if_pos lockdep, atId, lockdepWillUnlock, setPc_eq_update found]
    refine .update state.waiterMutex found thread
      ⟨.refl object, ⟨_, _, _, rfl⟩, consistent.order.transfer rfl rfl (fun _ known => known),
        Or.inr after, nofun, fun _ solo _ => solo, ?_⟩
    refine .move (.unrecord tid lock id)
      ⟨phase_checked found checked thread before, carries⟩ ?_ trivial
    have held (other : Tid) (one : Nat) :
        one ∈ (Function.update state.tables.heldLocks tid
          ((state.tables.heldLocks tid).erase id) other).keys ↔
          state.view.held other one ∧ ¬(other = tid ∧ one = id) := by
      by_cases atTid : other = tid
      · subst other
        rw [Function.update_self, OrderedMap.mem_keys_erase]
        simp only [true_and]
        exact and_comm
      · rw [Function.update_of_ne atTid]
        simp only [atTid, false_and, not_false_eq_true, and_true]
        rfl
    rw [view_update found thread (.refl object), owns_same found (fun _ => Iff.rfl),
      phaseOf_checked found checked after]
    simp only [held]
    rfl
  · rw [if_neg lockdep]
    exact .setPc found thread (.unchecked consistent.order found thread (Or.inr before)
      (fun checked => lockdep checked.2) (.refl object) (Or.inr after) nofun)

theorem advanceUnlocking_effect (consistent : Consistent state)
    (found : state.objects[lock]? = some object)
    (thread : state.threads[tid]? = some (.unlocking lock)) :
    Effect state action (advanceUnlocking state tid lock object) := by
  have target : (Pc.unlocking lock).target = some lock := rfl
  unfold advanceUnlocking
  split
  · rename_i freed released
    obtain ⟨tag, _, remains⟩ := releaseBy_spec released
    by_cases checked : object.Checked
    · refine .update state.waiterMutex found thread
        (.released consistent.order found thread checked released (Or.inl rfl) nofun
          (decide (freed.OwnedBy tid)) remains (.drop tid lock (decide (freed.OwnedBy tid)))
          (phase_checked found checked thread target) ?_ ?_)
      · rw [phaseOf_idle]
        rfl
      · intro again
        exact ⟨object, freed, found, checked, released, of_decide_eq_true again⟩
    · exact .update state.waiterMutex found thread
        (.unchecked consistent.order found thread (Or.inr target) checked tag (Or.inl rfl) nofun)
  · rename_i failed
    split
    · exact .control state.waiterMutex true
    · by_cases checked : object.Checked
      · refine .setPc found thread (.enter consistent.order found thread (Or.inl rfl) nofun
          (.drop tid lock false) (phase_checked found checked thread target) ?_ nofun)
        have kept : state.view.relinquish tid lock false = state.view := by
          ext other one
          · rfl
          · refine ⟨And.left, fun owns => ⟨owns, ?_⟩⟩
            rintro ⟨rfl, rfl⟩
            exact absurd ((owns_iff found).mp owns).2 (releaseBy_none failed)
          · rfl
          · rfl
          · rfl
        rw [phaseOf_idle]
        change (state.view.relinquish tid lock false).enter tid .quiet = _
        rw [kept]
      · exact .setPc found thread (.unchecked consistent.order found thread (Or.inr target)
          checked (.refl object) (Or.inl rfl) nofun)

theorem condWait_effect {cond : Nat} (consistent : Consistent state)
    (found : state.objects[lock]? = some object)
    (thread : state.threads[tid]? = some (.condWait cond lock))
    (done : advance state tid trace object (.condWait cond lock) = some next) :
    Effect state action next := by
  have before : (Pc.condWait cond lock).target = some lock := rfl
  have after : (Pc.condBlocked cond lock).target = some lock := rfl
  rw [advance] at done
  split at done
  · rename_i freed released
    rw [Option.some.injEq] at done
    subst done
    obtain ⟨tag, owns, remains⟩ := releaseBy_spec released
    by_cases checked : object.Checked
    · refine .update state.waiterMutex found thread
        (.released consistent.order found thread checked released (Or.inr after) nofun
          (decide (freed.OwnedBy tid)) remains (.park tid lock (decide (freed.OwnedBy tid)))
          ⟨phase_checked found checked thread before, (owns_iff found).mpr ⟨checked, owns⟩⟩
          ?_ trivial)
      rw [phaseOf_checked found checked after]
      rfl
    · exact .update state.waiterMutex found thread
        (.unchecked consistent.order found thread (Or.inr before) checked tag (Or.inr after) nofun)
  · rw [Option.some.injEq] at done
    subst done
    by_cases checked : object.Checked
    · refine .setPc found thread (.enter consistent.order found thread (Or.inl rfl) nofun
        (.giveUp tid lock) (Or.inr (phase_checked found checked thread before)) ?_ trivial)
      rw [phaseOf_idle]
      rfl
    · exact .setPc found thread (.unchecked consistent.order found thread (Or.inr before)
        checked (.refl object) (Or.inl rfl) nofun)

theorem condAcquiring_effect {cond : Nat} {owned : LockObject} (consistent : Consistent state)
    (found : state.objects[lock]? = some object)
    (thread : state.threads[tid]? = some (.condAcquiring cond lock))
    (granted : grantTo object tid .exclusive = some owned) (books : List Book) :
    Effect state action
      ((state.setObject lock owned).setPc tid (.ofBooks lock .finish books)) := by
  have target : (Pc.condAcquiring cond lock).target = some lock := rfl
  by_cases checked : object.Checked
  · refine .update state.waiterMutex found thread
      (.granted consistent.order found thread checked granted (ofBooks_target _ _ _) nofun
        (.unpark tid lock) (phase_checked found checked thread target) ?_ trivial)
    rw [phaseOf_ofBooks found checked]
    rfl
  · exact .update state.waiterMutex found thread
      (.unchecked consistent.order found thread (Or.inr target) checked
        (grantTo_spec granted).1 (ofBooks_target _ _ _) (ofBooks_unsettled _ _ _))

theorem advance_effect (consistent : Consistent state)
    (found : state.objects[lock]? = some object) (live : object.live = true)
    (trace : BackTrace) (thread : state.threads[tid]? = some old)
    (target : old.target = some lock) (done : advance state tid trace object old = some next) :
    Effect state action next := by
  cases old with
  | idle => cases target
  | tryLock other =>
      cases target
      rw [advance] at done
      split at done
      · rename_i owned granted
        rw [Option.some.injEq] at done
        subst done
        exact grab_effect consistent found live thread rfl rfl granted
      · rw [Option.some.injEq] at done
        subst done
        exact .setPc found thread (.relabel consistent.order found thread (.refl object) rfl rfl
          (Or.inr rfl) nofun rfl)
  | acquiring other mode =>
      cases target
      rw [advance] at done
      split at done
      · rename_i owned granted
        rw [Option.some.injEq] at done
        subst done
        exact grab_effect consistent found live thread rfl rfl granted
      · cases done
  | locked other mode =>
      cases target
      exact advanceLocked_effect consistent found trace thread done
  | book other next rest after =>
      cases target
      rw [advance, Option.some.injEq] at done
      subst done
      exact advanceBook_effect consistent found next rest after thread
  | willUnlock other =>
      cases target
      rw [advance, Option.some.injEq] at done
      subst done
      exact willUnlock_effect consistent found live thread
  | unlocking other =>
      cases target
      rw [advance, Option.some.injEq] at done
      subst done
      exact advanceUnlocking_effect consistent found thread
  | condWait cond other =>
      cases target
      exact condWait_effect consistent found thread done
  | condBlocked cond other => cases done
  | condAcquiring cond other =>
      cases target
      rw [advance] at done
      split at done
      · rename_i owned granted
        rw [Option.some.injEq] at done
        subst done
        exact condAcquiring_effect consistent found thread granted _
      · cases done

theorem release_effect (consistent : Consistent state)
    (found : state.objects[lock]? = some object)
    (thread : state.threads[tid]? = some .idle) (books : List Book)
    (origin : action = .unlock tid lock ∨ action = .unlockShared tid lock) :
    Effect state action (state.setPc tid (.ofBooks lock .willUnlock books)) := by
  by_cases checked : object.Checked
  · obtain ⟨id, _, carries⟩ := consistent.carries found checked
    refine .setPc found thread (.enter consistent.order found thread (ofBooks_target _ _ _)
      (ofBooks_unsettled _ _ _) (.release tid lock) ⟨phase_quiet thread, id, carries⟩ ?_ origin)
    rw [phaseOf_ofBooks found checked]
    rfl
  · exact .setPc found thread (.unchecked consistent.order found thread (Or.inl rfl) checked
      (.refl object) (ofBooks_target _ _ _) (ofBooks_unsettled _ _ _))

theorem wait_effect {cond : Nat} (consistent : Consistent state)
    (found : state.objects[lock]? = some object)
    (thread : state.threads[tid]? = some .idle) (origin : action = .wait tid cond lock) :
    Effect state action (wait state tid cond lock object) := by
  unfold wait
  split_ifs
  · have moved (waiters : Nat → Option Nat) (books : List Book) : Effect state action
        { state.setPc tid (.ofBooks lock (.condWait cond) books) with waiterMutex := waiters } := by
      change Effect state action { (state.setTables state.tables).setPc tid
        (.ofBooks lock (.condWait cond) books) with waiterMutex := waiters }
      rw [setPc_eq_update found]
      refine .update waiters found thread ?_
      by_cases checked : object.Checked
      · obtain ⟨id, _, carries⟩ := consistent.carries found checked
        refine .enter consistent.order found thread (ofBooks_target _ _ _)
          (ofBooks_unsettled _ _ _) (.resolve tid lock) ⟨phase_quiet thread, id, carries⟩ ?_
          ⟨cond, origin⟩
        rw [phaseOf_ofBooks found checked]
        rfl
      · exact .unchecked consistent.order found thread (Or.inl rfl) checked
          (.refl object) (ofBooks_target _ _ _) (ofBooks_unsettled _ _ _)
    exact moved _ _
  · exact .control _ true
  · exact .control state.waiterMutex true

end Calls

section Transitions

variable {state next : State} {action : Action}

theorem create_effect {kind : Kind} {name : Name} {lockdep : Bool}
    (done : create state kind name lockdep = some next) :
    Effect state (.create kind name lockdep) next := by
  cases lockdep with
  | false =>
      rw [create, Option.some.injEq] at done
      subst done
      exact .createUnchecked kind name
  | true =>
      cases registered : lockdepRegisterHeld state.tables name with
      | mk tables found =>
          cases found with
          | some id =>
              simp only [create, lockdepRegister, registered, Option.some.injEq] at done
              subst done
              exact .create rfl registered
          | none =>
              simp only [create, lockdepRegister, registered, Option.some.injEq] at done
              subst done
              exact .createFailed registered

theorem object?_eq_some {lock : Nat} {object : LockObject} :
    state.object? lock = some object ↔
      state.objects[lock]? = some object ∧ object.live = true := by
  unfold State.object?
  cases state.objects[lock]? with
  | none => simp
  | some present =>
      simp only [Option.some.injEq]
      split
      · rename_i live
        constructor
        · rintro ⟨⟩
          exact ⟨rfl, live⟩
        · rintro ⟨rfl, _⟩
          rfl
      · rename_i dead
        simp only [reduceCtorEq, false_iff]
        rintro ⟨rfl, live⟩
        exact dead live

theorem callee?_eq_some {tid : Tid} {lock : Nat} {object : LockObject}
    (called : state.callee? tid lock = some object) :
    state.threads[tid]? = some .idle ∧ state.objects[lock]? = some object ∧
      object.live = true := by
  unfold State.callee? at called
  split at called
  · rename_i idle
    exact ⟨idle, object?_eq_some.mp called⟩
  · cases called

theorem destroy_effect {lock : Nat} {object : LockObject} (consistent : Consistent state)
    (present : state.object? lock = some object)
    (unused : DestroysUnused state (.destroy lock)) :
    Effect state (.destroy lock) (destroy state lock object) := by
  obtain ⟨found, live⟩ := object?_eq_some.mp present
  obtain ⟨unowned, untouched⟩ := unused.apart present
  unfold destroy
  split
  · exact .control state.waiterMutex true
  · split
    · exact .control state.waiterMutex true
    · by_cases lockdep : object.lockdep = true
      · have checked : object.Checked := ⟨live, lockdep⟩
        obtain ⟨id, atId, _⟩ := consistent.carries found checked
        have effect : Effect state (.destroy lock) _ :=
          .destroy found checked atId unowned untouched
        rw [← atId] at effect
        simp only [if_pos lockdep]
        exact effect
      · simp only [if_neg lockdep]
        exact .destroyUnchecked found (Bool.eq_false_iff.mpr lockdep) unowned untouched

theorem stepLive_effect (consistent : Consistent state) (unused : DestroysUnused state action)
    (done : stepLive state action = some next) : Effect state action next := by
  cases action with
  | create kind name lockdep => exact create_effect done
  | destroy lock =>
      obtain ⟨object, present, rfl⟩ := Option.map_eq_some_iff.mp done
      exact destroy_effect consistent present unused
  | lock tid lock trace =>
      obtain ⟨object, called, locked⟩ := Option.bind_eq_some_iff.mp done
      obtain ⟨thread, found, live⟩ := callee?_eq_some called
      cases kind : object.kind with
      | mutex =>
          rw [kind] at locked
          exact willLock_effect consistent found live thread trace rfl rfl locked
      | sharedMutex =>
          rw [kind] at locked
          exact willLock_effect consistent found live thread trace rfl rfl locked
  | tryLock tid lock =>
      obtain ⟨object, called, locked⟩ := Option.bind_eq_some_iff.mp done
      obtain ⟨thread, found, live⟩ := callee?_eq_some called
      split_ifs at locked
      rw [Option.some.injEq] at locked
      subst locked
      exact tryLock_effect consistent found live thread rfl
  | lockShared tid lock trace =>
      obtain ⟨object, called, locked⟩ := Option.bind_eq_some_iff.mp done
      obtain ⟨thread, found, live⟩ := callee?_eq_some called
      split_ifs at locked
      exact willLock_effect consistent found live thread trace rfl rfl locked
  | unlock tid lock =>
      obtain ⟨object, called, rfl⟩ := Option.map_eq_some_iff.mp done
      obtain ⟨thread, found, live⟩ := callee?_eq_some called
      exact release_effect consistent found thread _ (Or.inl rfl)
  | unlockShared tid lock =>
      obtain ⟨object, called, unlocked⟩ := Option.bind_eq_some_iff.mp done
      obtain ⟨thread, found, live⟩ := callee?_eq_some called
      split_ifs at unlocked
      rw [Option.some.injEq] at unlocked
      subst unlocked
      exact release_effect consistent found thread _ (Or.inr rfl)
  | wait tid cond lock =>
      obtain ⟨object, called, waited⟩ := Option.bind_eq_some_iff.mp done
      obtain ⟨thread, found, live⟩ := callee?_eq_some called
      split_ifs at waited
      rw [Option.some.injEq] at waited
      subst waited
      exact wait_effect consistent found thread rfl
  | wake tid =>
      rw [stepLive] at done
      split at done
      · rename_i cond lock thread
        rw [Option.some.injEq] at done
        subst done
        have below := consistent.placed tid _ lock thread rfl
        have found := List.getElem?_eq_getElem below
        exact .setPc found thread (.relabel consistent.order found thread (.refl _) rfl rfl
          (Or.inr rfl) nofun rfl)
      · cases done
  | deadlockError tid =>
      rw [stepLive] at done
      split at done
      · rename_i lock mode thread
        obtain ⟨object, present, refused⟩ := Option.bind_eq_some_iff.mp done
        obtain ⟨found, live⟩ := object?_eq_some.mp present
        split_ifs at refused
        rw [Option.some.injEq] at refused
        subst refused
        have target : (Pc.acquiring lock mode).target = some lock := rfl
        by_cases checked : object.Checked
        · refine .setPc found thread (.enter consistent.order found thread (Or.inl rfl) nofun
            (.giveUp tid lock) (Or.inl (phase_checked found checked thread target)) ?_ trivial)
          rw [phaseOf_idle]
          rfl
        · exact .setPc found thread (.unchecked consistent.order found thread (Or.inr target)
            checked (.refl object) (Or.inl rfl) nofun)
      · cases done
  | advance tid trace =>
      obtain ⟨pc, thread, rest⟩ := Option.bind_eq_some_iff.mp done
      obtain ⟨object, present, advanced⟩ := Option.bind_eq_some_iff.mp rest
      obtain ⟨lock, target, atLock⟩ := Option.bind_eq_some_iff.mp present
      obtain ⟨found, live⟩ := object?_eq_some.mp atLock
      exact advance_effect consistent found live trace thread target advanced

theorem step_effect (consistent : Consistent state) (unused : DestroysUnused state action)
    (done : step state action = some next) : Effect state action next := by
  unfold step at done
  split at done
  · cases done
  · exact stepLive_effect consistent unused done

end Transitions

/-! ### Runs -/

theorem initial_thread {threads : Nat} {tid : Tid} {pc : Pc}
    (thread : (State.initial threads).threads[tid]? = some pc) : pc = .idle :=
  List.eq_of_mem_replicate (List.mem_of_getElem? thread)

theorem initial_phase (threads : Nat) (tid : Tid) :
    (State.initial threads).view.phase tid = .quiet := by
  change (((State.initial threads).threads[tid]?).map _).getD Phase.quiet = _
  cases thread : (State.initial threads).threads[tid]? with
  | none => rfl
  | some pc =>
      rw [initial_thread thread]
      exact phaseOf_idle

theorem Consistent.initial (threads : Nat) : Consistent (State.initial threads) where
  sound :=
    { acyclic := LockOrder.initial.acyclic
      carried := by
        intro left right edge
        have known := (LockOrder.initial.registered left right edge).1
        cases known
      functional := by
        rintro target left right ⟨object, found, _⟩
        cases found
      mentioned := by
        intro actor target about
        rw [initial_phase] at about
        cases about
      owned := by
        rintro actor target ⟨object, found, _⟩
        cases found
      grabbed := by
        intro actor target grabbed
        rw [initial_phase] at grabbed
        cases grabbed
      recorded := by
        intro actor id held
        cases held
      checked := by
        intro actor target id wanting
        rw [initial_phase] at wanting
        cases wanting }
  registry := Registry.initial
  order := LockOrder.initial
  identified lock object found := by cases found
  placed tid pc lock thread target := by
    rw [initial_thread thread] at target
    cases target
  settled tid lock mode thread := by cases initial_thread thread

theorem reachable_consistent {discipline : State → Action → Prop}
    (unused : ∀ state action, discipline state action → DestroysUnused state action)
    {state : State} (reached : Runs.Reachable system discipline state) : Consistent state := by
  apply reached.invariant
  · rintro current ⟨threads, rfl⟩
    exact Consistent.initial threads
  · intro current action following _ consistent permitted taken
    exact (step_effect consistent (unused current action permitted) taken).consistent consistent

end BlueThread.Locks
