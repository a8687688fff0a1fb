/-
Who owns the lock of a thread pool when an operation returns.

Each statement of a script needs the lock or its absence, and leaves one of them,
so a script says what a thread owns after it. Inside a call the program counter
says what the thread is heading for. The bookkeeping of the mutex then carries the
assertions: a thread that has come to a statement with the lock is counted.
-/

import BlueThread.Locks.Bookkeeping
import BlueThread.Locks.PoolClients

namespace BlueThread.Locks

open Lockdep Population

/-! ### Ownership along a script -/

def Statement.needs : Statement → Bool
  | .lock => false
  | _ => true

def Statement.leaves : Statement → Bool
  | .unlock => false
  | _ => true

def flow (own : Bool) : List Statement → Option Bool
  | [] => some own
  | statement :: rest => if own = statement.needs then flow statement.leaves rest else none

def Operation.leaves : Operation → Bool
  | .lock | .wakeLocked => true
  | _ => false

theorem Operation.flow_body (operation : Operation) :
    flow operation.inside operation.body = some operation.leaves := by
  cases operation with
  | worker processed => cases processed <;> rfl
  | _ => rfl

theorem Operation.leaves_iff {operation : Operation} (notLock : operation ≠ .lock)
    (notUnlock : operation ≠ .unlock) :
    operation.leaves = operation.inside ↔ operation.waits = false := by
  cases operation with
  | lock => exact absurd rfl notLock
  | unlock => exact absurd rfl notUnlock
  | wait cond => exact iff_of_false nofun nofun
  | worker processed => exact iff_of_true rfl rfl
  | _ => decide

theorem flow_cons {own due : Bool} {statement : Statement} {rest : List Statement}
    (flows : flow own (statement :: rest) = some due) :
    own = statement.needs ∧ flow statement.leaves rest = some due := by
  rw [flow] at flows
  split at flows
  · rename_i given
    exact ⟨given, flows⟩
  · cases flows

theorem flow_front {due : Bool} {statement : Statement} {rest : List Statement}
    (needs : statement.needs = true) (leaves : statement.leaves = true)
    (flows : flow true rest = some due) : flow true (statement :: rest) = some due := by
  rw [flow, if_pos needs.symm, leaves]
  exact flows

/-- What a thread is heading for inside a call: whether it owns the pool's mutex
after it. -/
def Pc.Heads (tid : Tid) (object : LockObject) (own : Bool) : Pc → Prop
  | .idle => own = true ↔ object.owner = some tid
  | .tryLock _ => own = true ∧ object.owner ≠ some tid
  | .acquiring _ _ => own = true ∧ object.owner ≠ some tid
  | .locked _ _ => False
  | .book _ _ _ .finish => own = true
  | .book _ _ _ .willUnlock => own = false
  | .book _ _ _ (.condWait _) => own = true
  | .willUnlock _ => own = false
  | .unlocking _ => own = false
  | .condWait _ _ => own = true
  | .condBlocked _ _ => own = true
  | .condAcquiring _ _ => own = true

theorem Pc.Heads.transfer {tid : Tid} {object after : LockObject} {own : Bool} {pc : Pc}
    (heads : pc.Heads tid object own) (owner : after.owner = some tid ↔ object.owner = some tid) :
    pc.Heads tid after own := by
  cases pc with
  | idle => exact heads.trans owner.symm
  | tryLock lock => exact ⟨heads.1, fun owns => heads.2 (owner.mp owns)⟩
  | acquiring lock mode => exact ⟨heads.1, fun owns => heads.2 (owner.mp owns)⟩
  | book lock next rest following =>
      cases following with
      | finish => exact heads
      | willUnlock => exact heads
      | condWait cond => exact heads
  | _ => exact heads

structure LockObject.Pooled (object : LockObject) : Prop where
  mutex : object.kind = .mutex
  live : object.live = true
  unchecked : object.lockdep = false

structure Arrives (next : State) (tid : Tid) (own : Bool) : Prop where
  alive : next.aborted = false
  conds : ∀ cond, next.waiterMutex cond = none ∨ next.waiterMutex cond = some 0
  place : ∃ object pc, next.objects = [object] ∧ object.Pooled ∧
    next.threads[tid]? = some pc ∧ pc.Heads tid object own

section Advance

variable {state next : State} {tid : Tid} {own : Bool} {object after : LockObject} {pc : Pc}

/-- The parts of the state that the pool's operations rely on. -/
structure State.Pool (state : State) (object : LockObject) : Prop where
  alive : state.aborted = false
  conds : ∀ cond, state.waiterMutex cond = none ∨ state.waiterMutex cond = some 0
  objects : state.objects = [object]
  pooled : object.Pooled

theorem Arrives.set (pool : state.Pool object) (thread : tid < state.threads.length)
    (pooled : after.Pooled) (heads : pc.Heads tid after own) :
    Arrives ((state.setObject 0 after).setPc tid pc) tid own := by
  refine ⟨pool.alive, pool.conds, after, pc, ?_, pooled, List.getElem?_set_self thread, heads⟩
  change state.objects.set 0 after = [after]
  rw [pool.objects]
  rfl

theorem Arrives.setPc (pool : state.Pool object) (thread : tid < state.threads.length)
    (heads : pc.Heads tid object own) : Arrives (state.setPc tid pc) tid own :=
  ⟨pool.alive, pool.conds, object, pc, pool.objects, pool.pooled, List.getElem?_set_self thread,
    heads⟩

theorem LockObject.Pooled.congr (pooled : object.Pooled) (kind : after.kind = object.kind)
    (same : SameTag object after) : after.Pooled :=
  ⟨kind.trans pooled.mutex, same.live.trans pooled.live, same.lockdep.trans pooled.unchecked⟩

theorem LockObject.Pooled.freed (pooled : object.Pooled) :
    LockObject.Pooled { object with owner := none } :=
  pooled.congr rfl ⟨rfl, rfl, rfl, rfl⟩

theorem Arrives.granted (pool : state.Pool object) (thread : tid < state.threads.length)
    {mode : Mode} (granted : grantTo object tid mode = some after) (owning : own = true)
    (next : Pc) (goes : next = .ofBooks 0 .finish (postLock object.kind mode object.lockdep)) :
    Arrives ((state.setObject 0 after).setPc tid next) tid own := by
  apply Arrives.set pool thread
    (pool.pooled.congr (grantTo_kind granted) (grantTo_spec granted).1)
  rw [goes, pool.pooled.mutex]
  exact owning

theorem Pc.Heads.books {next : Book} {rest : List Book} {following : After}
    (heads : (Pc.book 0 next rest following).Heads tid object own) (remaining : List Book)
    (owner : following = .finish → after.owner = some tid) :
    (Pc.ofBooks 0 following remaining).Heads tid after own := by
  cases following with
  | finish =>
      cases remaining with
      | nil => exact iff_of_true heads (owner rfl)
      | cons later others => exact heads
  | willUnlock =>
      cases remaining with
      | nil => exact heads
      | cons later others => exact heads
  | condWait cond =>
      cases remaining with
      | nil => exact heads
      | cons later others => exact heads

theorem Arrives.advance {trace : BackTrace} (pool : state.Pool object)
    (thread : tid < state.threads.length) (target : pc.target = some 0)
    (inside : pc.Inside tid object) (heads : pc.Heads tid object own)
    (done : Locks.advance state tid trace object pc = some next) : Arrives next tid own := by
  cases pc with
  | idle => cases done
  | tryLock lock =>
      cases target
      rw [Locks.advance] at done
      split at done
      · rename_i owned granted
        cases done
        apply Arrives.granted pool thread granted heads.1
        rw [acquiredPc, pool.pooled.unchecked]
        rfl
      · cases done
        exact setPc pool thread heads
  | acquiring lock mode =>
      cases target
      rw [Locks.advance] at done
      split at done
      · rename_i owned granted
        cases done
        apply Arrives.granted pool thread granted heads.1
        rw [acquiredPc, pool.pooled.unchecked]
        rfl
      · cases done
  | locked lock mode => exact heads.elim
  | book lock next rest following =>
      cases target
      obtain ⟨changed, remaining, ran, handled⟩ := book_handled 0 inside
      rw [Locks.advance, advanceBook, ran, Option.some.injEq] at done
      subst done
      have same := Book.run_spec ran
      apply Arrives.set pool thread (pool.pooled.congr (Book.run_kind ran) same.1)
      apply heads.books remaining
      intro entering
      subst entering
      exact same.2.1.trans inside.1.1
  | willUnlock lock =>
      cases target
      rw [Locks.advance, Option.some.injEq] at done
      subst done
      rw [pool.pooled.unchecked]
      exact setPc pool thread heads
  | unlocking lock =>
      cases target
      rw [Locks.advance, advanceUnlocking, releaseBy, if_pos inside.1, Option.some.injEq] at done
      subst done
      apply Arrives.set pool thread pool.pooled.freed
      constructor
      · intro owning
        cases owning.symm.trans heads
      · intro owns
        cases owns
  | condWait cond lock =>
      cases target
      rw [Locks.advance, releaseBy, if_pos inside.1, Option.some.injEq] at done
      subst done
      exact Arrives.set pool thread pool.pooled.freed heads
  | condBlocked cond lock => cases done
  | condAcquiring cond lock =>
      cases target
      rw [Locks.advance] at done
      split at done
      · rename_i owned granted
        cases done
        exact Arrives.granted pool thread granted heads _ rfl
      · cases done

/-! ### Calls on the pool's mutex -/

theorem State.Pool.present (pool : state.Pool object) : state.object? 0 = some object := by
  rw [object?_eq_some, pool.objects]
  exact ⟨rfl, pool.pooled.live⟩

theorem State.Pool.only (pool : state.Pool object) {lock : Nat} {one : LockObject}
    (found : state.object? lock = some one) : lock = 0 ∧ one = object := by
  obtain ⟨atLock, _⟩ := object?_eq_some.mp found
  rw [pool.objects] at atLock
  cases lock with
  | zero => exact ⟨rfl, (Option.some.inj atLock).symm⟩
  | succ lock => cases atLock

theorem State.Pool.callee (pool : state.Pool object) (idle : state.threads[tid]? = some .idle) :
    state.callee? tid 0 = some object :=
  (if_pos idle).trans pool.present

theorem State.Pool.stepLive (pool : state.Pool object) {action : Action}
    (taken : Locks.step state action = some next) : Locks.stepLive state action = some next := by
  rw [Locks.step, pool.alive] at taken
  exact taken

theorem Arrives.lock {trace : BackTrace} (pool : state.Pool object)
    (idle : state.threads[tid]? = some .idle) (unowned : object.owner ≠ some tid)
    (taken : Locks.step state (.lock tid 0 trace) = some next) : Arrives next tid true := by
  have called := pool.stepLive taken
  rw [Locks.stepLive, pool.callee idle, Option.bind_some, willLock, pool.pooled.unchecked,
    pool.pooled.mutex] at called
  cases called
  exact setPc pool (List.getElem?_eq_some_iff.mp idle).1 ⟨rfl, unowned⟩

theorem Arrives.unlock (pool : state.Pool object) (idle : state.threads[tid]? = some .idle)
    (taken : Locks.step state (.unlock tid 0) = some next) : Arrives next tid false := by
  have called := pool.stepLive taken
  rw [Locks.stepLive, pool.callee idle, Option.map_some, pool.pooled.mutex] at called
  cases called
  exact setPc pool (List.getElem?_eq_some_iff.mp idle).1 rfl

theorem Arrives.wait {cond : Nat} (pool : state.Pool object)
    (idle : state.threads[tid]? = some .idle) (counted : 0 < object.lockedCount)
    (taken : Locks.step state (.wait tid cond 0) = some next) : Arrives next tid true := by
  have called := pool.stepLive taken
  rw [Locks.stepLive, pool.callee idle, Option.bind_some, if_pos pool.pooled.mutex, Locks.wait,
    if_pos (pool.conds cond), pool.pooled.mutex] at called
  simp only [if_pos counted] at called
  cases called
  refine ⟨pool.alive, ?_, object, _, pool.objects, pool.pooled, getElem?_set_found idle, rfl⟩
  intro other
  change Function.update state.waiterMutex cond (some 0) other = none ∨
    Function.update state.waiterMutex cond (some 0) other = some 0
  by_cases same : other = cond
  · subst same
    exact Or.inr (Function.update_self ..)
  · rw [Function.update_of_ne same]
    exact pool.conds other

theorem Arrives.inner {trace : BackTrace} (pool : state.Pool object)
    (exact : state.Exact 0 object) (thread : state.threads[tid]? = some pc)
    (heads : pc.Heads tid object own)
    (taken : Locks.step state (.advance tid trace) = some next) : Arrives next tid own := by
  have called := pool.stepLive taken
  rw [Locks.stepLive, thread, Option.bind_some] at called
  obtain ⟨one, found, done⟩ := Option.bind_eq_some_iff.mp called
  obtain ⟨lock, target, atLock⟩ := Option.bind_eq_some_iff.mp found
  obtain ⟨rfl, rfl⟩ := pool.only atLock
  exact advance pool (List.getElem?_eq_some_iff.mp thread).1 target
    ((Pc.exact_at target).mp (exact.threads tid pc thread)) heads done

theorem Arrives.wake (pool : state.Pool object) (thread : state.threads[tid]? = some pc)
    (heads : pc.Heads tid object own) (taken : Locks.step state (.wake tid) = some next) :
    Arrives next tid own := by
  have called := pool.stepLive taken
  rw [Locks.stepLive, thread] at called
  split at called
  · rename_i cond lock blocked
    cases blocked
    cases called
    exact setPc pool (List.getElem?_eq_some_iff.mp thread).1 heads
  · cases called

theorem no_deadlockError (pool : state.Pool object) (thread : state.threads[tid]? = some pc)
    (heads : pc.Heads tid object own) : Locks.step state (.deadlockError tid) = none := by
  cases taken : Locks.step state (.deadlockError tid) with
  | none => rfl
  | some next =>
      have called := pool.stepLive taken
      rw [Locks.stepLive, thread] at called
      split at called
      · rename_i lock mode blocked
        cases blocked
        obtain ⟨one, atLock, done⟩ := Option.bind_eq_some_iff.mp called
        obtain ⟨rfl, rfl⟩ := pool.only atLock
        rw [if_neg heads.2] at done
        cases done
      · cases called

end Advance

/-! ### The invariant over runs -/

/-- The rest of a thread's operation takes it from what it owns to what it should own
before its next call. -/
structure Caller.Sound (caller : Caller) (own : Bool) : Prop where
  flows : flow own caller.script = some (caller.between && !caller.waited)
  began : ∀ operation, caller.operation = some operation →
    caller.entered = operation.inside ∧
      operation.leaves = (caller.between && !caller.waited) ∧
      (operation.waits = true → caller.waited = true)
  free : caller.operation = none → caller.script = []

structure Orderly (program : Program) (object : LockObject) : Prop where
  reached : Runs.Reachable system OwnerUse program.locks
  pool : program.locks.Pool object
  threads : ∀ tid pc, program.locks.threads[tid]? = some pc →
    ∃ own, pc.Heads tid object own ∧ (program.callers tid).Sound own

section Invariant

variable {program next : Program} {object : LockObject} {tid : Tid}

theorem Orderly.exact (orderly : Orderly program object) : program.locks.Exact 0 object := by
  obtain ⟨found, live⟩ := object?_eq_some.mp orderly.pool.present
  exact reachable_booked orderly.reached 0 object found live orderly.pool.pooled.mutex

theorem Orderly.counted (orderly : Orderly program object)
    (idle : program.locks.threads[tid]? = some .idle) (owns : object.owner = some tid) :
    object.lockedCount = 1 :=
  (Pc.exact_idle.mp (orderly.exact.threads tid .idle idle) owns).1

theorem Orderly.arrive {locks : State} {action : Action} {own : Bool} {caller : Caller}
    (orderly : Orderly program object) (permitted : OwnerUse program.locks action)
    (acts : action.actor = some tid) (taken : Locks.step program.locks action = some locks)
    (arrives : Arrives locks tid own) (sound : caller.Sound own) :
    ∃ after, Orderly ⟨locks, Function.update program.callers tid caller⟩ after := by
  obtain ⟨alive, conds, after, place, objects, pooled, thread, heads⟩ := arrives
  refine ⟨after, .next action orderly.reached permitted taken, ⟨alive, conds, objects, pooled⟩, ?_⟩
  intro one pc atOne
  change ∃ own, pc.Heads one after own ∧
    (Function.update program.callers tid caller one).Sound own
  by_cases same : one = tid
  · subst same
    rw [Function.update_self]
    cases thread.symm.trans atOne
    exact ⟨own, heads, sound⟩
  · rw [Function.update_of_ne same]
    have consistent := ownerUse_consistent orderly.reached
    have apart : action.actor ≠ some one := by
      rw [acts]
      exact fun equal => same (Option.some.inj equal).symm
    obtain ⟨still, touched⟩ := (step_touch consistent taken).bystander apart
    obtain ⟨found, _⟩ := object?_eq_some.mp orderly.pool.present
    obtain ⟨later, atLater, _, owner, _⟩ := touched 0 object found
    rw [objects] at atLater
    cases atLater
    obtain ⟨before, headed, kept⟩ := orderly.threads one pc (still.symm.trans atOne)
    exact ⟨before, headed.transfer owner, kept⟩

theorem Orderly.setCaller {caller : Caller} (orderly : Orderly program object)
    (idle : program.locks.threads[tid]? = some .idle)
    (sound : ∀ own, (own = true ↔ object.owner = some tid) →
      (program.callers tid).Sound own → caller.Sound own) :
    Orderly (program.setCaller tid caller) object := by
  refine ⟨orderly.reached, orderly.pool, ?_⟩
  intro one pc atOne
  obtain ⟨own, heads, before⟩ := orderly.threads one pc atOne
  refine ⟨own, heads, ?_⟩
  change (Function.update program.callers tid caller one).Sound own
  by_cases same : one = tid
  · subst same
    rw [Function.update_self]
    cases idle.symm.trans atOne
    exact sound own heads before
  · rw [Function.update_of_ne same]
    exact before

theorem Caller.Sound.goTo {caller : Caller} {own later : Bool} {script : List Statement}
    (sound : caller.Sound own) (busy : caller.script ≠ [])
    (flows : flow later script = some (caller.between && !caller.waited)) :
    (caller.goTo script).Sound later :=
  ⟨flows, sound.began, fun free => absurd (sound.free free) busy⟩

theorem Caller.Sound.call {caller : Caller} {own owns : Bool} {operation : Operation}
    (sound : caller.Sound own) (idle : caller.operation = none)
    (alternates : caller.between = operation.inside) (first : caller.waited = false)
    (known : owns = own) : (caller.call operation owns).Sound own := by
  have flows := sound.flows
  rw [sound.free idle, flow, Option.some.injEq, first, alternates, Bool.not_false,
    Bool.and_true] at flows
  have due : operation.leaves = ((caller.call operation owns).between &&
      !(caller.call operation owns).waited) := by
    unfold Caller.call
    rw [first, alternates]
    cases operation <;> rfl
  refine ⟨?_, ?_, nofun⟩
  · rw [← due, flows]
    exact operation.flow_body
  · intro other same
    cases same
    refine ⟨known.trans flows, due, ?_⟩
    intro waits
    change (caller.waited || operation.waits) = true
    rw [waits, Bool.or_true]

theorem Orderly.isLocked (orderly : Orderly program object)
    (idle : program.locks.threads[tid]? = some .idle) (owns : object.owner = some tid) :
    program.locks.isLocked 0 = true := by
  unfold State.isLocked
  rw [orderly.pool.present, Option.any_some, orderly.counted idle owns]
  rfl

theorem Orderly.execute {holds : Bool} {trace : BackTrace} {statement : Statement}
    {rest : List Statement} (orderly : Orderly program object)
    (idle : program.locks.threads[tid]? = some .idle)
    (script : (program.callers tid).script = statement :: rest)
    (taken : program.execute tid holds trace rest statement = some next) :
    ∃ after, Orderly next after := by
  obtain ⟨own, heads, sound⟩ := orderly.threads tid .idle idle
  have busy : (program.callers tid).script ≠ [] := by
    rw [script]
    nofun
  have flows := sound.flows
  rw [script] at flows
  obtain ⟨needed, flowing⟩ := flow_cons flows
  have owner (needs : statement.needs = true) : object.owner = some tid :=
    heads.mp (needed.trans needs)
  have stays {script : List Statement}
      (onward : flow own script =
        some ((program.callers tid).between && !(program.callers tid).waited)) :
      ∃ after, Orderly (program.goTo tid script) after := by
    refine ⟨object, orderly.setCaller idle ?_⟩
    intro one ownership before
    have same : one = own := Bool.eq_iff_iff.mpr (ownership.trans heads.symm)
    subst same
    exact before.goTo busy onward
  cases statement with
  | lock =>
      obtain ⟨locks, called, rfl⟩ := Option.map_eq_some_iff.mp taken
      have unowned : object.owner ≠ some tid := by
        intro owns
        cases needed.symm.trans (heads.mpr owns)
      have permitted : OwnerUse program.locks (.lock tid 0 trace) := trivial
      exact orderly.arrive permitted rfl called (.lock orderly.pool idle unowned called)
        (sound.goTo busy flowing)
  | unlock =>
      obtain ⟨locks, called, rfl⟩ := Option.map_eq_some_iff.mp taken
      have permitted : OwnerUse program.locks (.unlock tid 0) := by
        intro one present _
        cases orderly.pool.present.symm.trans present
        exact owner rfl
      exact orderly.arrive permitted rfl called (.unlock orderly.pool idle called)
        (sound.goTo busy flowing)
  | wait cond =>
      obtain ⟨locks, called, rfl⟩ := Option.map_eq_some_iff.mp taken
      have permitted : OwnerUse program.locks (.wait tid cond 0) := by
        intro one present
        cases orderly.pool.present.symm.trans present
        exact owner rfl
      have counted : 0 < object.lockedCount := by
        rw [orderly.counted idle (owner rfl)]
        decide
      exact orderly.arrive permitted rfl called (.wait orderly.pool idle counted called)
        (sound.goTo busy flowing)
  | assertLocked =>
      cases taken
      rw [Program.require, if_pos (orderly.isLocked idle (owner rfl))]
      exact stays (needed ▸ flowing)
  | notify cond =>
      cases taken
      rw [Program.notify]
      rcases orderly.pool.conds cond with unknown | known
      · rw [unknown, Program.require, if_pos rfl]
        exact stays (needed ▸ flowing)
      · rw [known, Program.require, if_pos (orderly.isLocked idle (owner rfl))]
        exact stays (needed ▸ flowing)
  | mayNotify =>
      cases taken
      cases holds with
      | false => exact stays (needed ▸ flowing)
      | true => exact stays (needed ▸ flow_front rfl rfl flowing)
  | waitLoop =>
      cases taken
      cases holds with
      | false => exact stays (needed ▸ flowing)
      | true => exact stays (needed ▸ flow_front rfl rfl (flow_front rfl rfl flowing))
  | workerLoop =>
      cases taken
      cases holds with
      | false => exact stays (needed ▸ flowing)
      | true => exact stays (needed ▸ flow_front rfl rfl (flow_front rfl rfl flowing))
  | workerScan =>
      cases taken
      cases holds with
      | false => exact stays (needed ▸ flow_front rfl rfl (flow_front rfl rfl flowing))
      | true => exact stays (needed ▸ flowing)

theorem Orderly.progress {action : Action} (orderly : Orderly program object)
    (permitted : OwnerUse program.locks action) (acts : action.actor = some tid)
    (present : program.locks.threads[tid]? = none → stepLive program.locks action = none)
    (arrives : ∀ pc own locks, program.locks.threads[tid]? = some pc → pc.Heads tid object own →
      Locks.step program.locks action = some locks → Arrives locks tid own)
    (taken : program.progress action = some next) : ∃ after, Orderly next after := by
  obtain ⟨locks, called, rfl⟩ := Option.map_eq_some_iff.mp taken
  cases thread : program.locks.threads[tid]? with
  | none =>
      have live := orderly.pool.stepLive called
      rw [present thread] at live
      cases live
  | some pc =>
      obtain ⟨own, heads, sound⟩ := orderly.threads tid pc thread
      have stayed := orderly.arrive permitted acts called (arrives pc own locks thread heads called)
        sound
      rw [Function.update_eq_self] at stayed
      exact stayed

theorem Orderly.step {action : ProgramAction} (orderly : Orderly program object)
    (alternates : Alternates program action) (ends : EndsInWait program action)
    (taken : program.step action = some next) : ∃ after, Orderly next after := by
  cases action with
  | call tid operation =>
      rw [Program.step] at taken
      split_ifs at taken with ready
      obtain ⟨_, idle, free⟩ := ready
      cases taken
      refine ⟨object, orderly.setCaller idle ?_⟩
      intro own ownership sound
      refine sound.call free alternates ends (Bool.eq_iff_iff.mpr ?_)
      rw [ownership, State.ownsPool, orderly.pool.present, Option.any_some, decide_eq_true_eq]
  | execute tid holds trace =>
      rw [Program.step] at taken
      split_ifs at taken with ready
      split at taken
      · cases taken
      · rename_i statement rest script
        exact orderly.execute ready.2 script taken
  | «return» tid =>
      rw [Program.step] at taken
      split_ifs at taken with ready
      obtain ⟨_, idle, ended⟩ := ready
      cases taken
      exact ⟨object, orderly.setCaller idle fun own _ sound => ⟨sound.flows, nofun, fun _ => ended⟩⟩
  | advance tid trace =>
      have permitted : OwnerUse program.locks (.advance tid trace) := trivial
      refine orderly.progress permitted rfl ?_ ?_ taken
      · intro missing
        rw [stepLive, missing]
        rfl
      · intro pc own locks thread heads called
        exact .inner orderly.pool orderly.exact thread heads called
  | wake tid =>
      have permitted : OwnerUse program.locks (.wake tid) := trivial
      refine orderly.progress permitted rfl ?_ ?_ taken
      · intro missing
        rw [stepLive, missing]
      · intro pc own locks thread heads called
        exact .wake orderly.pool thread heads called
  | deadlockError tid =>
      have permitted : OwnerUse program.locks (.deadlockError tid) := trivial
      refine orderly.progress permitted rfl ?_ ?_ taken
      · intro missing
        rw [stepLive, missing]
      · intro pc own locks thread heads called
        rw [no_deadlockError orderly.pool thread heads] at called
        cases called

theorem Orderly.initial (lockName : Name) (threads : Nat) :
    Orderly (Program.initial lockName threads) (newObject .mutex lockName none false) := by
  refine ⟨?_, ⟨rfl, fun _ => Or.inl rfl, rfl, ⟨rfl, rfl, rfl⟩⟩, ?_⟩
  · have fresh : Runs.Reachable system OwnerUse (State.initial threads) := .start ⟨threads, rfl⟩
    exact .next (.create .mutex lockName false) fresh trivial rfl
  · intro tid pc thread
    have idle : pc = .idle := List.eq_of_mem_replicate (List.mem_of_getElem? thread)
    subst idle
    exact ⟨false, iff_of_false nofun nofun, rfl, nofun, fun _ => rfl⟩

theorem reachable_orderly (reached : Runs.Reachable programs
    (fun program action => Alternates program action ∧ EndsInWait program action) program) :
    ∃ object, Orderly program object := by
  apply reached.invariant
  · rintro current ⟨lockName, threads, rfl⟩
    exact ⟨_, .initial lockName threads⟩
  · rintro current action following _ ⟨object, orderly⟩ ⟨alternates, ends⟩ taken
    exact orderly.step alternates ends taken

theorem step_waited {action : ProgramAction} (quiet : NeverWaits action)
    (taken : program.step action = some next) (tid : Tid) :
    (next.callers tid).waited = (program.callers tid).waited := by
  have updated {one : Tid} {caller : Caller}
      (kept : caller.waited = (program.callers one).waited) :
      (Function.update program.callers one caller tid).waited =
        (program.callers tid).waited := by
    by_cases same : tid = one
    · subst same
      rw [Function.update_self]
      exact kept
    · rw [Function.update_of_ne same]
  have entered {one : Tid} {rest : List Statement} {call : Action}
      (done : program.enter one rest call = some next) :
      (next.callers tid).waited = (program.callers tid).waited := by
    obtain ⟨_, _, rfl⟩ := Option.map_eq_some_iff.mp done
    exact updated rfl
  have required {one : Tid} {rest : List Statement} {holds : Bool}
      (done : some (program.require one rest holds) = some next) :
      (next.callers tid).waited = (program.callers tid).waited := by
    cases done
    unfold Program.require
    split
    · exact updated rfl
    · rfl
  have went {one : Tid} {script : List Statement}
      (done : some (program.goTo one script) = some next) :
      (next.callers tid).waited = (program.callers tid).waited := by
    cases done
    exact updated rfl
  have progressed {call : Action} (done : program.progress call = some next) :
      (next.callers tid).waited = (program.callers tid).waited := by
    obtain ⟨_, _, rfl⟩ := Option.map_eq_some_iff.mp done
    rfl
  cases action with
  | call one operation =>
      rw [Program.step] at taken
      split_ifs at taken
      cases taken
      apply updated
      change ((program.callers one).waited || operation.waits) = _
      rw [show operation.waits = false from quiet, Bool.or_false]
  | execute one holds trace =>
      rw [Program.step] at taken
      split_ifs at taken
      split at taken
      · cases taken
      · rename_i statement rest _
        cases statement with
        | lock => exact entered taken
        | unlock => exact entered taken
        | wait cond => exact entered taken
        | assertLocked => exact required taken
        | notify cond => exact required taken
        | mayNotify => exact went taken
        | waitLoop => exact went taken
        | workerLoop => exact went taken
        | workerScan => exact went taken
  | «return» one =>
      rw [Program.step] at taken
      split_ifs at taken
      cases taken
      exact updated rfl
  | advance one trace => exact progressed taken
  | wake one => exact progressed taken
  | deadlockError one => exact progressed taken

theorem never_ends (reached : Runs.Reachable programs
    (fun program action => Alternates program action ∧ NeverWaits action) program) :
    Runs.Reachable programs
        (fun program action => Alternates program action ∧ EndsInWait program action) program ∧
      ∀ tid, (program.callers tid).waited = false := by
  induction reached with
  | start initial =>
      obtain ⟨lockName, threads, rfl⟩ := initial
      exact ⟨.start ⟨lockName, threads, rfl⟩, fun _ => rfl⟩
  | @next current following action _ permitted taken ih =>
      obtain ⟨before, unwaited⟩ := ih
      have ends : EndsInWait current action := by
        cases action with
        | call tid operation => exact unwaited tid
        | _ => trivial
      exact ⟨.next action before ⟨permitted.1, ends⟩ taken,
        fun tid => (step_waited permitted.2 taken tid).trans (unwaited tid)⟩

theorem Orderly.returns {operation : Operation} (orderly : Orderly program object)
    (returns : program.Returns tid operation) :
    (program.callers tid).entered = operation.inside ∧
      program.locks.ownsPool tid = operation.leaves ∧
      (operation.waits = true → (program.callers tid).waited = true) := by
  obtain ⟨idle, current, ended⟩ := returns
  obtain ⟨own, heads, sound⟩ := orderly.threads tid .idle idle
  obtain ⟨entered, leaves, waited⟩ := sound.began operation current
  have flows := sound.flows
  rw [ended, flow, Option.some.injEq, ← leaves] at flows
  refine ⟨entered, ?_, waited⟩
  rw [State.ownsPool, orderly.pool.present, Option.any_some, ← flows]
  exact Bool.eq_iff_iff.mpr (decide_eq_true_iff.trans heads.symm)

end Invariant

/-- In a program without `wait` and `_wait` no assertion fails, and every operation
but `lock` and `unlock` returns with the ownership it was called with. Once threads
may end in a wait, each wait that returns has lost the lock. -/
theorem ownership_balanced {program : Program} (reached : Runs.Reachable programs
    (fun program action => Alternates program action ∧ NeverWaits action) program) :
    program.locks.aborted = false ∧
      (∀ (tid : Tid) (operation : Operation), program.Returns tid operation →
        operation ≠ .lock → operation ≠ .unlock →
        program.locks.ownsPool tid = (program.callers tid).entered) ∧
      ∀ later, Runs.Reachable (programs.after program)
          (fun program action => Alternates program action ∧ EndsInWait program action) later →
        ∀ (tid : Tid) (operation : Operation), later.Returns tid operation →
          operation.waits = true →
          later.locks.ownsPool tid = false ∧ (later.callers tid).entered = true := by
  obtain ⟨ending, unwaited⟩ := never_ends reached
  obtain ⟨object, orderly⟩ := reachable_orderly ending
  refine ⟨orderly.pool.alive, ?_, ?_⟩
  · intro tid operation returns notLock notUnlock
    obtain ⟨entered, owns, waited⟩ := orderly.returns returns
    have waitless : operation.waits = false := by
      by_contra waits
      rw [Bool.not_eq_false] at waits
      cases (waited waits).symm.trans (unwaited tid)
    rw [entered, owns]
    exact (Operation.leaves_iff notLock notUnlock).mpr waitless
  · intro later rest tid operation returns waits
    obtain ⟨_, afterwards⟩ := reachable_orderly (ending.append rest)
    obtain ⟨entered, owns, _⟩ := afterwards.returns returns
    rw [entered, owns]
    cases operation with
    | wait cond => exact ⟨rfl, rfl⟩
    | waitLocked => exact ⟨rfl, rfl⟩
    | _ => cases waits

/-- `lock`, up to its return. -/
def lockCallRun (tid : Tid) : List ProgramAction :=
  [.call tid .lock, .execute tid true ⟨0, []⟩] ++ List.replicate 4 (.advance tid ⟨0, []⟩) ++
    [.return tid]

def waitStatementRun (tid : Tid) : List ProgramAction :=
  [.execute tid true ⟨0, []⟩] ++ List.replicate 5 (.advance tid ⟨0, []⟩)

/-- A thread waits inside `pause`, and another one calls `_wake` between `lock` and
`unlock`. -/
theorem ownership_balanced_while_pausing :
    ∃ program, Runs.Reachable programs
        (fun program action => Alternates program action ∧ NeverWaits action) program ∧
      program.locks.threads[1]? = some (.condBlocked waitCond 0) ∧
      program.Returns 0 .wakeLocked ∧ program.locks.ownsPool 0 = true ∧
      (program.callers 0).entered = true := by
  obtain ⟨program, reached, passed⟩ := Runs.exists_of_replay
    (fun program action => Alternates program action ∧ NeverWaits action)
    (show programs.initial (Program.initial [108] 2) from ⟨[108], 2, rfl⟩)
    ([.call 1 .pause, .execute 1 true ⟨0, []⟩] ++ List.replicate 4 (.advance 1 ⟨0, []⟩) ++
      [.execute 1 true ⟨0, []⟩] ++ waitStatementRun 1 ++ lockCallRun 0 ++
      [.call 0 .wakeLocked, .execute 0 true ⟨0, []⟩])
    (fun program : Program => decide (program.locks.threads[1]? = some (Pc.condBlocked waitCond 0) ∧
      program.locks.threads[0]? = some Pc.idle ∧
      (program.callers 0).operation = some Operation.wakeLocked ∧
      (program.callers 0).script = [] ∧ (program.callers 0).entered = true)) (by decide +kernel)
  obtain ⟨blocked, idle, current, ended, entered⟩ := of_decide_eq_true passed
  have balanced := (ownership_balanced reached).2.1 0 .wakeLocked ⟨idle, current, ended⟩ nofun nofun
  exact ⟨program, reached, blocked, ⟨idle, current, ended⟩, balanced.trans entered, entered⟩

/-- A client locks the pool and calls `wait`. The wait returns without the lock, and
the client's `unlock` fails the assertion on the counter. -/
theorem wait_loses_ownership :
    ∃ returning final, Runs.Reachable programs Alternates returning ∧
      returning.Returns 0 (.wait 2) ∧ (returning.callers 0).entered = true ∧
      returning.locks.ownsPool 0 = false ∧
      Runs.Reachable (programs.after returning) Alternates final ∧
      final.locks.aborted = true := by
  obtain ⟨returning, reached, passed⟩ := Runs.exists_of_replay Alternates
    (show programs.initial (Program.initial [108] 1) from ⟨[108], 1, rfl⟩)
    (lockCallRun 0 ++ [.call 0 (.wait 2)] ++ waitStatementRun 0 ++ [.wake 0] ++
      List.replicate 4 (.advance 0 ⟨0, []⟩) ++ [.execute 0 true ⟨0, []⟩] ++
      List.replicate 6 (.advance 0 ⟨0, []⟩))
    (fun returning : Program => decide (returning.locks.threads[0]? = some Pc.idle ∧
        (returning.callers 0).operation = some (Operation.wait 2) ∧
        (returning.callers 0).script = [] ∧ (returning.callers 0).entered = true ∧
        returning.locks.ownsPool 0 = false) &&
      (Runs.replay (programs.after returning) Alternates returning
        [.return 0, .call 0 .unlock, .execute 0 true ⟨0, []⟩, .advance 0 ⟨0, []⟩]).any
        fun final : Program => final.locks.aborted) (by decide +kernel)
  obtain ⟨shape, rest⟩ := Bool.and_eq_true_iff.mp passed
  obtain ⟨idle, current, ended, entered, unowned⟩ := of_decide_eq_true shape
  obtain ⟨final, replayed, aborted⟩ := (Option.any_eq_true _ _).mp rest
  exact ⟨returning, final, reached, ⟨idle, current, ended⟩, entered, unowned,
    Runs.replay_reachable (.start rfl) replayed, aborted⟩

end BlueThread.Locks
