/-
What one action does to the lock objects and to the threads.

The protocol view forgets the debug counters. Here every action is read as at
most one move of one thread on one object, with the object before and after it,
so that facts about the counters, the owner and the program counters can be
proved by cases on the move. The tables do not matter for it, except that a
consistent checker never throws out of a lock call.
-/

import BlueThread.Locks.Simulation

namespace BlueThread.Locks

open Lockdep Population

/-- The thread that acts; a constructor or a destructor acts on behalf of nobody. -/
def Action.actor : Action → Option Tid
  | .create _ _ _ => none
  | .destroy _ => none
  | .lock tid _ _ => some tid
  | .tryLock tid _ => some tid
  | .lockShared tid _ _ => some tid
  | .unlock tid _ => some tid
  | .unlockShared tid _ => some tid
  | .wait tid _ _ => some tid
  | .wake tid => some tid
  | .deadlockError tid => some tid
  | .advance tid _ => some tid

/-- The calls that give a lock back, in the mode they give back, and what follows
their bookkeeping. -/
inductive Leaves (tid : Tid) (lock : Nat) (object : LockObject) :
    Action → Mode → After → Prop
  | unlock : Leaves tid lock object (.unlock tid lock) .exclusive .willUnlock
  | unlockShared (shared : object.kind = .sharedMutex) :
      Leaves tid lock object (.unlockShared tid lock) .shared .willUnlock
  | wait (cond : Nat) (mutex : object.kind = .mutex) :
      Leaves tid lock object (.wait tid cond lock) .exclusive (.condWait cond)

inductive Wants (lock : Nat) (object : LockObject) : Pc → Mode → Prop
  | tries (mutex : object.kind = .mutex) : Wants lock object .idle .exclusive
  | triesFirst : Wants lock object (.tryLock lock) .exclusive
  | acquires (mode : Mode) : Wants lock object (.acquiring lock mode) mode
  | returns (cond : Nat) : Wants lock object (.condAcquiring cond lock) .exclusive

/-- A move of a thread on an object: the program counter before, the object
after, the program counter after. -/
inductive LockMove (action : Action) (tid : Tid) (lock : Nat) (object : LockObject) :
    Pc → LockObject → Pc → Prop
  | call (mutex : object.kind = .mutex) :
      LockMove action tid lock object .idle object (.tryLock lock)
  | callShared (mode : Mode) (shared : object.kind = .sharedMutex) :
      LockMove action tid lock object .idle object (.acquiring lock mode)
  | block : LockMove action tid lock object (.tryLock lock) object (.acquiring lock .exclusive)
  | refuse (mode : Mode) : LockMove action tid lock object (.acquiring lock mode) object .idle
  | grant {old pc : Pc} {mode : Mode} {owned : LockObject} (wants : Wants lock object old mode)
      (granted : grantTo object tid mode = some owned)
      (goes : pc = .locked lock mode ∨
        pc = .ofBooks lock .finish (postLock object.kind mode object.lockdep)) :
      LockMove action tid lock object old owned pc
  | settle (mode : Mode) :
      LockMove action tid lock object (.locked lock mode) object
        (.ofBooks lock .finish (postLock object.kind mode object.lockdep))
  | book {next : Book} {rest remaining : List Book} {after : After} {changed : LockObject}
      (ran : next.run tid object rest = some (changed, remaining)) :
      LockMove action tid lock object (.book lock next rest after) changed
        (.ofBooks lock after remaining)
  | leave {mode : Mode} {after : After} (leaves : Leaves tid lock object action mode after) :
      LockMove action tid lock object .idle object
        (.ofBooks lock after (preUnlock object.kind mode object.lockdep))
  | unrecord : LockMove action tid lock object (.willUnlock lock) object (.unlocking lock)
  | unlock {freed : LockObject} (released : releaseBy object tid = some freed) :
      LockMove action tid lock object (.unlocking lock) freed .idle
  | park {freed : LockObject} (cond : Nat) (released : releaseBy object tid = some freed) :
      LockMove action tid lock object (.condWait cond lock) freed (.condBlocked cond lock)
  | fail {old : Pc} (inside : old = .unlocking lock ∨ ∃ cond, old = .condWait cond lock)
      (failed : releaseBy object tid = none) : LockMove action tid lock object old object .idle
  | wake (cond : Nat) :
      LockMove action tid lock object (.condBlocked cond lock) object (.condAcquiring cond lock)

inductive Touch (state : State) (action : Action) (next : State) : Prop
  | same (objects : next.objects = state.objects) (threads : next.threads = state.threads)
  | create {kind : Kind} {name : Name} {id : Option Nat} {lockdep : Bool}
      (objects : next.objects = state.objects ++ [newObject kind name id lockdep])
      (threads : next.threads = state.threads)
  | destroy {lock : Nat} {object : LockObject} (found : state.objects[lock]? = some object)
      (objects : next.objects = state.objects.set lock { object with live := false })
      (threads : next.threads = state.threads)
  | move {tid : Tid} {lock : Nat} {object after : LockObject} {old pc : Pc}
      (actor : action.actor = some tid) (found : state.objects[lock]? = some object)
      (thread : state.threads[tid]? = some old)
      (moved : LockMove action tid lock object old after pc)
      (objects : next.objects = state.objects.set lock after)
      (threads : next.threads = state.threads.set tid pc)

section Steps

variable {state next : State} {action : Action} {tid lock : Nat} {object : LockObject} {old pc : Pc}

theorem Touch.stay (actor : action.actor = some tid) (found : state.objects[lock]? = some object)
    (thread : state.threads[tid]? = some old)
    (moved : LockMove action tid lock object old object pc) (objects : next.objects = state.objects)
    (threads : next.threads = state.threads.set tid pc) : Touch state action next :=
  .move actor found thread moved (objects.trans (Population.set_same found).symm) threads

theorem create_touch {kind : Kind} {name : Name} {lockdep : Bool}
    (done : create state kind name lockdep = some next) : Touch state action next := by
  cases lockdep with
  | false =>
      cases done
      exact .create rfl rfl
  | true =>
      cases registered : lockdepRegister state.tables name with
      | returned tables id =>
          simp only [create, registered, Option.some.injEq] at done
          subst done
          exact .create rfl rfl
      | threw tables =>
          simp only [create, registered, Option.some.injEq] at done
          subst done
          exact .same rfl rfl
      | aborted =>
          simp only [create, registered, Option.some.injEq] at done
          subst done
          exact .same rfl rfl
      | diverged =>
          simp only [create, registered] at done
          cases done

theorem destroy_touch (found : state.objects[lock]? = some object) :
    Touch state action (destroy state lock object) := by
  unfold destroy
  split
  · exact .same rfl rfl
  · split
    · exact .same rfl rfl
    · exact .destroy found rfl rfl

theorem willLock_touch (consistent : Consistent state) (actor : action.actor = some tid)
    (found : state.objects[lock]? = some object) (live : object.live = true)
    (thread : state.threads[tid]? = some .idle) {trace : BackTrace}
    (moved : LockMove action tid lock object .idle object pc)
    (done : willLock state tid lock object trace pc = some next) : Touch state action next := by
  by_cases lockdep : object.lockdep = true
  · obtain ⟨_, _, aborted | ⟨result, returned, _⟩⟩ :=
      consistent.willLock_cases found ⟨live, lockdep⟩ tid trace pc
    · rw [aborted, Option.some.injEq] at done
      subst done
      exact .same rfl rfl
    · rw [returned, Option.some.injEq] at done
      subst done
      exact .move actor found thread moved rfl rfl
  · rw [willLock, if_neg lockdep, Option.some.injEq] at done
    subst done
    exact .stay actor found thread moved rfl rfl

theorem acquiredPc_cases (mode : Mode) :
    acquiredPc lock object mode = .locked lock mode ∨
      acquiredPc lock object mode =
        .ofBooks lock .finish (postLock object.kind mode object.lockdep) := by
  unfold acquiredPc
  split
  · exact Or.inl rfl
  · exact Or.inr rfl

theorem grant_touch {mode : Mode} {owned : LockObject} (actor : action.actor = some tid)
    (found : state.objects[lock]? = some object) (thread : state.threads[tid]? = some old)
    (wants : Wants lock object old mode) (granted : grantTo object tid mode = some owned) :
    Touch state action
      ((state.setObject lock owned).setPc tid (acquiredPc lock object mode)) :=
  .move actor found thread (.grant wants granted (acquiredPc_cases mode)) rfl rfl

theorem advanceLocked_touch {mode : Mode} (consistent : Consistent state)
    (actor : action.actor = some tid) (found : state.objects[lock]? = some object)
    (thread : state.threads[tid]? = some (.locked lock mode)) {trace : BackTrace}
    (done : advanceLocked state tid lock object mode trace = some next) :
    Touch state action next := by
  obtain ⟨_, _, recorded⟩ := consistent.advanceLocked_eq found thread trace
  rw [recorded, Option.some.injEq] at done
  subst done
  exact .move actor found thread (.settle mode) rfl rfl

theorem advance_touch (consistent : Consistent state) (actor : action.actor = some tid)
    (found : state.objects[lock]? = some object) (thread : state.threads[tid]? = some old)
    (target : old.target = some lock) {trace : BackTrace}
    (done : advance state tid trace object old = some next) : Touch state action next := by
  cases old with
  | idle => cases target
  | tryLock other =>
      cases target
      rw [advance] at done
      split at done
      · rename_i owned granted
        cases done
        exact grant_touch actor found thread .triesFirst granted
      · cases done
        exact .stay actor found thread .block rfl rfl
  | acquiring other mode =>
      cases target
      rw [advance] at done
      split at done
      · rename_i owned granted
        cases done
        exact grant_touch actor found thread (.acquires mode) granted
      · cases done
  | locked other mode =>
      cases target
      exact advanceLocked_touch consistent actor found thread done
  | book other next rest after =>
      cases target
      rw [advance, Option.some.injEq] at done
      subst done
      unfold advanceBook
      split
      · rename_i changed remaining ran
        exact .move actor found thread (.book ran) rfl rfl
      · exact .same rfl rfl
  | willUnlock other =>
      cases target
      rw [advance, Option.some.injEq] at done
      subst done
      exact .stay actor found thread .unrecord rfl rfl
  | unlocking other =>
      cases target
      rw [advance, Option.some.injEq] at done
      subst done
      unfold advanceUnlocking
      split
      · rename_i freed released
        exact .move actor found thread (.unlock released) rfl rfl
      · rename_i failed
        split
        · exact .same rfl rfl
        · exact .stay actor found thread (.fail (Or.inl rfl) failed) rfl rfl
  | condWait cond other =>
      cases target
      rw [advance] at done
      split at done
      · rename_i freed released
        cases done
        exact .move actor found thread (.park cond released) rfl rfl
      · rename_i failed
        cases done
        exact .stay actor found thread (.fail (Or.inr ⟨cond, rfl⟩) failed) rfl rfl
  | condBlocked cond other => cases done
  | condAcquiring cond other =>
      cases target
      rw [advance] at done
      split at done
      · rename_i owned granted
        cases done
        exact .move actor found thread (.grant (.returns cond) granted (Or.inr rfl)) rfl rfl
      · cases done

theorem wait_touch {cond : Nat} (found : state.objects[lock]? = some object)
    (thread : state.threads[tid]? = some .idle) (mutex : object.kind = .mutex)
    (asked : action = .wait tid cond lock) :
    Touch state action (wait state tid cond lock object) := by
  subst asked
  unfold wait
  split_ifs
  · exact .stay rfl found thread (.leave (.wait cond mutex)) rfl rfl
  · exact .same rfl rfl
  · exact .same rfl rfl

theorem stepLive_touch (consistent : Consistent state)
    (done : stepLive state action = some next) : Touch state action next := by
  cases action with
  | create kind name lockdep => exact create_touch done
  | destroy lock =>
      obtain ⟨object, present, rfl⟩ := Option.map_eq_some_iff.mp done
      exact destroy_touch (object?_eq_some.mp present).1
  | lock tid lock trace =>
      obtain ⟨object, called, locked⟩ := Option.bind_eq_some_iff.mp done
      obtain ⟨thread, found, live⟩ := callee?_eq_some called
      cases kind : object.kind with
      | mutex =>
          rw [kind] at locked
          exact willLock_touch consistent rfl found live thread (.call kind) locked
      | sharedMutex =>
          rw [kind] at locked
          exact willLock_touch consistent rfl found live thread (.callShared .exclusive kind) locked
  | tryLock tid lock =>
      obtain ⟨object, called, locked⟩ := Option.bind_eq_some_iff.mp done
      obtain ⟨thread, found, _⟩ := callee?_eq_some called
      split_ifs at locked with mutex
      cases locked
      unfold tryLock
      split
      · rename_i owned granted
        exact grant_touch rfl found thread (.tries mutex) granted
      · exact .same rfl rfl
  | lockShared tid lock trace =>
      obtain ⟨object, called, locked⟩ := Option.bind_eq_some_iff.mp done
      obtain ⟨thread, found, live⟩ := callee?_eq_some called
      split_ifs at locked with shared
      exact willLock_touch consistent rfl found live thread (.callShared .shared shared) locked
  | unlock tid lock =>
      obtain ⟨object, called, rfl⟩ := Option.map_eq_some_iff.mp done
      obtain ⟨thread, found, _⟩ := callee?_eq_some called
      exact .stay rfl found thread (.leave .unlock) rfl rfl
  | unlockShared tid lock =>
      obtain ⟨object, called, unlocked⟩ := Option.bind_eq_some_iff.mp done
      obtain ⟨thread, found, _⟩ := callee?_eq_some called
      split_ifs at unlocked with shared
      cases unlocked
      exact .stay rfl found thread (.leave (.unlockShared shared)) rfl rfl
  | wait tid cond lock =>
      obtain ⟨object, called, waited⟩ := Option.bind_eq_some_iff.mp done
      obtain ⟨thread, found, _⟩ := callee?_eq_some called
      split_ifs at waited with mutex
      cases waited
      exact wait_touch found thread mutex rfl
  | wake tid =>
      rw [stepLive] at done
      split at done
      · rename_i cond lock thread
        cases done
        have found := List.getElem?_eq_getElem (consistent.placed tid _ lock thread rfl)
        exact .stay rfl found thread (.wake cond) rfl rfl
      · cases done
  | deadlockError tid =>
      rw [stepLive] at done
      split at done
      · rename_i lock mode thread
        obtain ⟨object, present, refused⟩ := Option.bind_eq_some_iff.mp done
        obtain ⟨found, _⟩ := object?_eq_some.mp present
        split_ifs at refused
        cases refused
        exact .stay rfl found thread (.refuse mode) rfl rfl
      · cases done
  | advance tid trace =>
      obtain ⟨pc, thread, rest⟩ := Option.bind_eq_some_iff.mp done
      obtain ⟨object, present, advanced⟩ := Option.bind_eq_some_iff.mp rest
      obtain ⟨lock, target, atLock⟩ := Option.bind_eq_some_iff.mp present
      exact advance_touch consistent rfl (object?_eq_some.mp atLock).1 thread target advanced

theorem step_touch (consistent : Consistent state) (done : step state action = some next) :
    Touch state action next := by
  unfold step at done
  split at done
  · cases done
  · exact stepLive_touch consistent done

end Steps

/-! ### What moves leave alone -/

section Frames

variable {action : Action} {tid other : Tid} {lock : Nat} {object after : LockObject} {old pc : Pc}
  {mode : Mode}

theorem grantTo_kind (granted : grantTo object tid mode = some after) :
    after.kind = object.kind := by
  cases mode with
  | exclusive =>
      rw [grantTo] at granted
      split at granted <;> cases granted
      rfl
  | shared =>
      rw [grantTo] at granted
      split at granted <;> cases granted
      rfl

theorem releaseBy_kind (released : releaseBy object tid = some after) :
    after.kind = object.kind := by
  unfold releaseBy at released
  split_ifs at released <;> cases released <;> rfl

theorem Book.run_kind {next : Book} {rest remaining : List Book}
    (ran : next.run tid object rest = some (after, remaining)) : after.kind = object.kind := by
  cases next <;> simp only [Book.run] at ran <;> try split_ifs at ran
  all_goals
    cases ran
    rfl

theorem LockMove.kept (moved : LockMove action tid lock object old after pc) :
    after.kind = object.kind ∧ after.live = object.live := by
  cases moved with
  | grant wants granted goes => exact ⟨grantTo_kind granted, (grantTo_spec granted).1.live⟩
  | book ran => exact ⟨Book.run_kind ran, (Book.run_spec ran).1.live⟩
  | unlock released => exact ⟨releaseBy_kind released, (releaseBy_spec released).1.live⟩
  | park cond released => exact ⟨releaseBy_kind released, (releaseBy_spec released).1.live⟩
  | _ => exact ⟨rfl, rfl⟩

theorem LockMove.lockdep (moved : LockMove action tid lock object old after pc) :
    after.lockdep = object.lockdep := by
  cases moved with
  | grant wants granted goes => exact (grantTo_spec granted).1.lockdep
  | book ran => exact (Book.run_spec ran).1.lockdep
  | unlock released => exact (releaseBy_spec released).1.lockdep
  | park cond released => exact (releaseBy_spec released).1.lockdep
  | _ => rfl

theorem LockMove.targets (moved : LockMove action tid lock object old after pc) :
    (old.target = none ∨ old.target = some lock) ∧
      (pc.target = none ∨ pc.target = some lock) := by
  cases moved with
  | call mutex => exact ⟨Or.inl rfl, Or.inr rfl⟩
  | callShared mode shared => exact ⟨Or.inl rfl, Or.inr rfl⟩
  | block => exact ⟨Or.inr rfl, Or.inr rfl⟩
  | refuse mode => exact ⟨Or.inr rfl, Or.inl rfl⟩
  | grant wants granted goes =>
      constructor
      · cases wants with
        | tries mutex => exact Or.inl rfl
        | _ => exact Or.inr rfl
      · rcases goes with rfl | rfl
        · exact Or.inr rfl
        · exact ofBooks_target _ _ _
  | settle mode => exact ⟨Or.inr rfl, ofBooks_target _ _ _⟩
  | book ran => exact ⟨Or.inr rfl, ofBooks_target _ _ _⟩
  | leave leaves => exact ⟨Or.inl rfl, ofBooks_target _ _ _⟩
  | unrecord => exact ⟨Or.inr rfl, Or.inr rfl⟩
  | unlock released => exact ⟨Or.inr rfl, Or.inl rfl⟩
  | park cond released => exact ⟨Or.inr rfl, Or.inr rfl⟩
  | fail inside failed =>
      rcases inside with rfl | ⟨cond, rfl⟩
      · exact ⟨Or.inr rfl, Or.inl rfl⟩
      · exact ⟨Or.inr rfl, Or.inl rfl⟩
  | wake cond => exact ⟨Or.inr rfl, Or.inr rfl⟩

theorem LockMove.away {place : Nat} (moved : LockMove action tid lock object old after pc)
    (apart : lock ≠ place) : old.target ≠ some place ∧ pc.target ≠ some place := by
  have elsewhere {one : Pc} (about : one.target = none ∨ one.target = some lock) :
      one.target ≠ some place := by
    rcases about with nothing | target
    · simp [nothing]
    · simp [target, apart]
  exact ⟨elsewhere moved.targets.1, elsewhere moved.targets.2⟩

theorem grantTo_owner (granted : grantTo object tid mode = some after) :
    after.lockedCount = object.lockedCount ∧ after.lockedBy = object.lockedBy ∧
      object.owner = none ∧
      ((mode = .exclusive ∧ after.owner = some tid) ∨ (mode = .shared ∧ after.owner = none)) := by
  cases mode with
  | exclusive =>
      rw [grantTo] at granted
      split at granted <;> cases granted
      rename_i vacant
      exact ⟨rfl, rfl, vacant.1, Or.inl ⟨rfl, rfl⟩⟩
  | shared =>
      rw [grantTo] at granted
      split at granted <;> cases granted
      rename_i vacant
      exact ⟨rfl, rfl, vacant, Or.inr ⟨rfl, vacant⟩⟩

theorem releaseBy_owner (released : releaseBy object tid = some after) :
    after.lockedCount = object.lockedCount ∧ after.lockedBy = object.lockedBy ∧
      ((object.owner = some tid ∧ after.owner = none) ∨
        (object.owner ≠ some tid ∧ after.owner = object.owner)) := by
  unfold releaseBy at released
  split_ifs at released with owner reader <;> cases released
  · exact ⟨rfl, rfl, Or.inl ⟨owner, rfl⟩⟩
  · exact ⟨rfl, rfl, Or.inr ⟨owner, rfl⟩⟩

theorem Book.run_lockedBy {next : Book} {rest remaining : List Book}
    (ran : next.run tid object rest = some (after, remaining)) :
    after.lockedBy = object.lockedBy ∨ after.lockedBy = some tid := by
  cases next <;> simp only [Book.run] at ran <;> try split_ifs at ran
  all_goals cases ran
  case setLockedBy => exact Or.inr rfl
  all_goals exact Or.inl rfl

/-- A move makes nobody else an owner, takes the lock from nobody else, and
writes nobody else's name. -/
theorem LockMove.bystander (moved : LockMove action tid lock object old after pc)
    (apart : other ≠ tid) :
    (after.owner = some other ↔ object.owner = some other) ∧
      (after.lockedBy = some other → object.lockedBy = some other) := by
  have notMe : some tid ≠ some other := fun same => apart (Option.some.inj same).symm
  have released {freed : LockObject} (given : releaseBy object tid = some freed) :
      (freed.owner = some other ↔ object.owner = some other) ∧
        (freed.lockedBy = some other → object.lockedBy = some other) := by
    obtain ⟨_, named, owners⟩ := releaseBy_owner given
    refine ⟨?_, fun name => named ▸ name⟩
    rcases owners with ⟨before, now⟩ | ⟨_, same⟩
    · rw [before, now]
      exact ⟨nofun, fun same => absurd same notMe⟩
    · rw [same]
  cases moved with
  | grant wants granted goes =>
      obtain ⟨_, named, before, owners⟩ := grantTo_owner granted
      refine ⟨?_, fun name => named ▸ name⟩
      rcases owners with ⟨_, now⟩ | ⟨_, now⟩
      · rw [before, now]
        exact ⟨fun same => absurd same notMe, nofun⟩
      · rw [before, now]
  | book ran =>
      refine ⟨by rw [(Book.run_spec ran).2.1], ?_⟩
      intro name
      rcases Book.run_lockedBy ran with same | mine
      · exact same ▸ name
      · rw [mine] at name
        exact absurd name notMe
  | unlock given => exact released given
  | park cond given => exact released given
  | _ => exact ⟨Iff.rfl, id⟩

theorem Touch.object_cases {state next : State} (touch : Touch state action next)
    (found : state.objects[lock]? = some object) :
    ∃ after, next.objects[lock]? = some after ∧
      (after = object ∨ after = { object with live := false } ∨
        ∃ tid old pc, action.actor = some tid ∧ state.threads[tid]? = some old ∧
          LockMove action tid lock object old after pc) := by
  cases touch with
  | same objects threads =>
      rw [objects]
      exact ⟨object, found, Or.inl rfl⟩
  | create objects threads =>
      rw [objects, List.getElem?_append_left (List.getElem?_eq_some_iff.mp found).1]
      exact ⟨object, found, Or.inl rfl⟩
  | @destroy place gone atPlace objects threads =>
      rw [objects]
      by_cases same : place = lock
      · subst same
        rw [atPlace, Option.some.injEq] at found
        subst found
        exact ⟨_, getElem?_set_found atPlace, Or.inr (Or.inl rfl)⟩
      · rw [List.getElem?_set_ne same]
        exact ⟨object, found, Or.inl rfl⟩
  | @move tid place before after old pc actor atPlace thread moved objects threads =>
      rw [objects]
      by_cases same : place = lock
      · subst same
        rw [atPlace, Option.some.injEq] at found
        subst found
        exact ⟨after, getElem?_set_found atPlace,
          Or.inr (Or.inr ⟨tid, old, pc, actor, thread, moved⟩)⟩
      · rw [List.getElem?_set_ne same]
        exact ⟨object, found, Or.inl rfl⟩

theorem Touch.thread_cases {state next : State} (touch : Touch state action next)
    (thread : next.threads[tid]? = some pc) :
    state.threads[tid]? = some pc ∨
      ∃ lock object old after, state.objects[lock]? = some object ∧
        state.threads[tid]? = some old ∧ LockMove action tid lock object old after pc ∧
        next.objects[lock]? = some after := by
  cases touch with
  | same objects threads => exact Or.inl (threads ▸ thread)
  | create objects threads => exact Or.inl (threads ▸ thread)
  | destroy atPlace objects threads => exact Or.inl (threads ▸ thread)
  | @move actor place before after old pc _ atPlace atActor moved objects threads =>
      rw [threads] at thread
      rcases getElem?_set_cases atActor thread with ⟨rfl, rfl⟩ | ⟨_, stood⟩
      · rw [objects]
        exact Or.inr ⟨place, before, old, after, atPlace, atActor, moved,
          getElem?_set_found atPlace⟩
      · exact Or.inl stood

theorem Touch.stands {state next : State} (touch : Touch state action next)
    (apart : action.actor ≠ some other) : next.threads[other]? = state.threads[other]? := by
  cases touch with
  | same objects threads => rw [threads]
  | create objects threads => rw [threads]
  | destroy atPlace objects threads => rw [threads]
  | move actor atPlace thread moved objects threads =>
      rw [threads, List.getElem?_set_ne]
      intro same
      exact apart (same ▸ actor)

theorem Touch.bystander {state next : State} (touch : Touch state action next)
    (apart : action.actor ≠ some other) :
    next.threads[other]? = state.threads[other]? ∧
      ∀ (lock : Nat) (object : LockObject), state.objects[lock]? = some object →
        ∃ after, next.objects[lock]? = some after ∧ after.kind = object.kind ∧
          (after.owner = some other ↔ object.owner = some other) ∧
          (after.lockedBy = some other → object.lockedBy = some other) := by
  refine ⟨touch.stands apart, ?_⟩
  intro lock object found
  obtain ⟨after, atAfter, same | gone | moves⟩ := touch.object_cases found
  · subst same
    exact ⟨after, atAfter, rfl, Iff.rfl, id⟩
  · subst gone
    exact ⟨_, atAfter, rfl, Iff.rfl, id⟩
  · obtain ⟨tid, old, pc, actor, _, moved⟩ := moves
    have different : other ≠ tid := by
      intro same
      exact apart (same ▸ actor)
    exact ⟨after, atAfter, moved.kept.1, moved.bystander different⟩

end Frames

/-! ### Facts about every object -/

section Objects

variable {state next : State} {action : Action}

/-- A fact about an object and the threads holds of every live object after an
action if new objects have it, and moves on the object and elsewhere keep it. -/
theorem Touch.forall_live (holds : State → Nat → LockObject → Prop)
    (touch : Touch state action next) (consistent : Consistent state)
    (before : ∀ (lock : Nat) (object : LockObject), state.objects[lock]? = some object →
      object.live = true → holds state lock object)
    (same : ∀ (lock : Nat) (object : LockObject), next.threads = state.threads →
      holds state lock object → holds next lock object)
    (created : ∀ (lock : Nat) (kind : Kind) (name : Name) (id : Option Nat) (lockdep : Bool),
      (∀ (tid : Tid) (pc : Pc), next.threads[tid]? = some pc → pc.target ≠ some lock) →
      holds next lock (newObject kind name id lockdep))
    (moves : ∀ (tid : Tid) (lock : Nat) (object after : LockObject) (old pc : Pc),
      state.object? lock = some object → state.threads[tid]? = some old →
      LockMove action tid lock object old after pc →
      next.threads = state.threads.set tid pc → holds state lock object → holds next lock after)
    (elsewhere : ∀ (tid : Tid) (lock other : Nat) (object one after : LockObject) (old pc : Pc),
      state.threads[tid]? = some old → LockMove action tid lock object old after pc →
      lock ≠ other → next.threads = state.threads.set tid pc →
      holds state other one → holds next other one)
    (lock : Nat) (object : LockObject) (found : next.objects[lock]? = some object)
    (live : object.live = true) : holds next lock object := by
  cases touch with
  | same objects threads =>
      rw [objects] at found
      exact same lock object threads (before lock object found live)
  | create objects threads =>
      rw [objects] at found
      rcases getElem?_append_cases found with kept | ⟨last, rfl⟩
      · exact same lock object threads (before lock object kept live)
      · apply created
        intro tid pc thread target
        rw [threads] at thread
        have below := consistent.placed tid pc lock thread target
        omega
  | destroy atPlace objects threads =>
      rw [objects] at found
      rcases getElem?_set_cases atPlace found with ⟨_, rfl⟩ | ⟨_, kept⟩
      · cases live
      · exact same lock object threads (before lock object kept live)
  | @move tid place old after start pc actor atPlace thread moved objects threads =>
      rw [objects] at found
      rcases getElem?_set_cases atPlace found with ⟨rfl, rfl⟩ | ⟨apart, kept⟩
      · have wasLive := moved.kept.2.symm.trans live
        exact moves tid _ old _ start pc (object?_eq_some.mpr ⟨atPlace, wasLive⟩) thread moved
          threads (before _ old atPlace wasLive)
      · exact elsewhere tid place lock old object after start pc thread moved apart threads
          (before lock object kept live)

end Objects

end BlueThread.Locks
