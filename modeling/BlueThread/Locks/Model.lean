/-
Lock objects and the threads that use them: `mutex.h`, `mutex.cc`,
`shared_mutex.cc` and the waiting half of `condition_variable.cc`.

A thread's program counter names the next pthread call, the next call into the
checker, or the next read or write of the bookkeeping fields; each of these is
one step. A condition may wake its waiters at any time, which covers signals,
broadcasts, time-outs and spurious wake-ups. The pthread objects are an owner and
a list of shared holders. An exception ends the call and the thread goes on; a
failed assertion and an abort in the checker end the process.
-/

import BlueThread.Foundation.Runs
import BlueThread.Lockdep.Model

namespace BlueThread.Locks

open Lockdep

/-- `mutex_debug_impl` (`BlueMutex`) or `shared_mutex_debug`. -/
inductive Kind
  | mutex
  | sharedMutex
deriving DecidableEq

inductive Mode
  | exclusive
  | shared
deriving DecidableEq

/-- An object of either class, with the owner and the readers of the pthread object in
it. Objects keep their place in the heap after their destructor ran, and are not live
any more. -/
structure LockObject where
  kind : Kind
  live : Bool
  lockName : Name
  id : Option Nat
  lockdep : Bool
  lockedCount : Int
  lockedBy : Option Tid
  readLockedCount : Nat
  owner : Option Tid
  readers : List Tid
deriving DecidableEq

/-! ### Bookkeeping of the debug counters -/

/-- One read or write of `locked_count`, `locked_by` or `read_locked_count`. -/
inductive Book
  | assertCount (expected : Int)
  | assertLocked
  | testOwned
  | setLockedBy
  | addCount
  | subCount
  | assertLockedBy
  | assertReadLocked
  | addRead
  | subRead
deriving DecidableEq

/-- The bodies of `_post_lock` and `_post_lock_shared`. -/
def postLock : Kind → Mode → Bool → List Book
  | .mutex, _, _ => [.assertCount 0, .setLockedBy, .addCount]
  | .sharedMutex, .exclusive, true => [.assertCount 0, .addCount, .setLockedBy]
  | .sharedMutex, .shared, true => [.addRead]
  | .sharedMutex, _, false => []

/-- The bodies of `_pre_unlock` and `_pre_unlock_shared`. -/
def preUnlock : Kind → Mode → Bool → List Book
  | .mutex, _, _ => [.assertCount 1, .testOwned, .subCount]
  | .sharedMutex, .exclusive, true =>
      [.assertLocked, .subCount, .assertLockedBy, .assertCount 0]
  | .sharedMutex, .shared, true => [.assertReadLocked, .subRead]
  | .sharedMutex, _, false => []

/-- Executes one bookkeeping step; `none` is a failed assertion. The condition
`if (locked_count == 1)` of `_pre_unlock` puts the guarded write in front of the
rest. -/
def Book.run (tid : Tid) (object : LockObject) (rest : List Book) :
    Book → Option (LockObject × List Book)
  | .assertCount expected =>
      if object.lockedCount = expected then some (object, rest) else none
  | .assertLocked => if 0 < object.lockedCount then some (object, rest) else none
  | .testOwned =>
      some (object, if object.lockedCount = 1 then .setLockedBy :: rest else rest)
  | .setLockedBy => some ({ object with lockedBy := some tid }, rest)
  | .addCount => some ({ object with lockedCount := object.lockedCount + 1 }, rest)
  | .subCount => some ({ object with lockedCount := object.lockedCount - 1 }, rest)
  | .assertLockedBy => if object.lockedBy = some tid then some (object, rest) else none
  | .assertReadLocked => if 0 < object.readLockedCount then some (object, rest) else none
  | .addRead => some ({ object with readLockedCount := object.readLockedCount + 1 }, rest)
  | .subRead => some ({ object with readLockedCount := object.readLockedCount - 1 }, rest)

/-- `is_locked_by_me`, which reads `locked_count` and then `locked_by`. Other
threads may act between the two reads, so each read has the object as it is then. -/
def isLockedByMe (tid : Tid) (first second : LockObject) : Bool :=
  decide (0 < first.lockedCount) && decide (second.lockedBy = some tid)

/-! ### Threads -/

/-- What follows a run of bookkeeping steps. -/
inductive After
  | finish
  | willUnlock
  | condWait (cond : Nat)
deriving DecidableEq

/-- Where a thread is in a call. `lock()` of a mutex tries after `_will_lock`, before it
blocks in the pthread call; `_locked` comes after that call. A condition wait is before
`pthread_cond_wait`, blocked in it, or takes the mutex again. -/
inductive Pc
  | idle
  | tryLock (lock : Nat)
  | acquiring (lock : Nat) (mode : Mode)
  | locked (lock : Nat) (mode : Mode)
  | book (lock : Nat) (next : Book) (rest : List Book) (after : After)
  | willUnlock (lock : Nat)
  | unlocking (lock : Nat)
  | condWait (cond lock : Nat)
  | condBlocked (cond lock : Nat)
  | condAcquiring (cond lock : Nat)
deriving DecidableEq

def After.pc (lock : Nat) : After → Pc
  | .finish => .idle
  | .willUnlock => .willUnlock lock
  | .condWait cond => .condWait cond lock

def Pc.ofBooks (lock : Nat) (after : After) : List Book → Pc
  | [] => after.pc lock
  | next :: rest => .book lock next rest after

/-- The lock that the current call works on. -/
def Pc.target : Pc → Option Nat
  | .idle => none
  | .tryLock lock => some lock
  | .acquiring lock _ => some lock
  | .locked lock _ => some lock
  | .book lock _ _ _ => some lock
  | .willUnlock lock => some lock
  | .unlocking lock => some lock
  | .condWait _ lock => some lock
  | .condBlocked _ lock => some lock
  | .condAcquiring _ lock => some lock

structure State where
  tables : Tables
  objects : List LockObject
  threads : List Pc
  waiterMutex : Nat → Option Nat
  aborted : Bool

/-- A fresh process with a number of threads. -/
def State.initial (threads : Nat) : State :=
  { tables := Tables.initial
    objects := []
    threads := List.replicate threads .idle
    waiterMutex := fun _ => none
    aborted := false }

namespace State

def setPc (state : State) (tid : Tid) (pc : Pc) : State :=
  { state with threads := state.threads.set tid pc }

def setObject (state : State) (lock : Nat) (object : LockObject) : State :=
  { state with objects := state.objects.set lock object }

def setTables (state : State) (tables : Tables) : State := { state with tables := tables }

def abort (state : State) : State := { state with aborted := true }

end State

inductive Action
  | create (kind : Kind) (name : Name) (lockdep : Bool)
  | destroy (lock : Nat)
  | lock (tid : Tid) (lock : Nat) (trace : BackTrace)
  | tryLock (tid : Tid) (lock : Nat)
  | lockShared (tid : Tid) (lock : Nat) (trace : BackTrace)
  | unlock (tid : Tid) (lock : Nat)
  | unlockShared (tid : Tid) (lock : Nat)
  | wait (tid : Tid) (cond lock : Nat)
  | wake (tid : Tid)
  | deadlockError (tid : Tid)
  | advance (tid : Tid) (trace : BackTrace)
deriving DecidableEq

/-! ### Construction and destruction -/

def newObject (kind : Kind) (name : Name) (id : Option Nat) (lockdep : Bool) : LockObject :=
  { kind := kind
    live := true
    lockName := name
    id := id
    lockdep := lockdep
    lockedCount := 0
    lockedBy := none
    readLockedCount := 0
    owner := none
    readers := [] }

def create (state : State) (kind : Kind) (name : Name) : Bool → Option State
  | false => some { state with objects := state.objects ++ [newObject kind name none false] }
  | true =>
      match lockdepRegister state.tables name with
      | .returned tables id =>
          some
            { state with
              tables := tables
              objects := state.objects ++ [newObject kind name (some id) true] }
      | .threw tables => some (state.setTables tables)
      | .aborted => some state.abort
      | .diverged => none

/-- `~mutex_debug_impl` or `~shared_mutex_debug`, then `~mutex_debug_base`. -/
def destroy (state : State) (lock : Nat) (object : LockObject) : State :=
  if object.kind = .mutex ∧ object.owner ≠ none then state.abort
  else if object.lockedCount ≠ 0 then state.abort
  else
    let tables :=
      if object.lockdep then lockdepUnregister state.tables object.id else state.tables
    (state.setTables tables).setObject lock { object with live := false }

/-! ### Calls -/

/-- `_will_lock`, and then the program counter that follows it. -/
def willLock (state : State) (tid : Tid) (lock : Nat) (object : LockObject) (trace : BackTrace)
    (pc : Pc) : Option State :=
  if object.lockdep then
    match lockdepWillLock state.tables tid object.lockName object.id trace with
    | .returned tables id =>
        some (((state.setTables tables).setObject lock { object with id := some id }).setPc tid pc)
    | .threw tables => some (state.setTables tables)
    | .aborted => some state.abort
    | .diverged => none
  else some (state.setPc tid pc)

/-- `_locked` comes next if the object is checked, `_post_lock` otherwise. -/
def acquiredPc (lock : Nat) (object : LockObject) (mode : Mode) : Pc :=
  if object.lockdep then .locked lock mode
  else .ofBooks lock .finish (postLock object.kind mode object.lockdep)

def grantTo (object : LockObject) (tid : Tid) : Mode → Option LockObject
  | .exclusive =>
      if object.owner = none ∧ object.readers = [] then
        some { object with owner := some tid }
      else none
  | .shared =>
      if object.owner = none then some { object with readers := tid :: object.readers }
      else none

/-- `pthread_mutex_unlock` or `pthread_rwlock_unlock`; `none` is an error. -/
def releaseBy (object : LockObject) (tid : Tid) : Option LockObject :=
  if object.owner = some tid then some { object with owner := none }
  else if tid ∈ object.readers then some { object with readers := object.readers.erase tid }
  else none

def tryLock (state : State) (tid : Tid) (lock : Nat) (object : LockObject) : State :=
  match grantTo object tid .exclusive with
  | some owned => (state.setObject lock owned).setPc tid (acquiredPc lock object .exclusive)
  | none => state

/-- `wait` and `_wait_until` up to the end of `_pre_unlock`'s call. -/
def wait (state : State) (tid : Tid) (cond lock : Nat) (object : LockObject) : State :=
  if state.waiterMutex cond = none ∨ state.waiterMutex cond = some lock then
    let state := { state with waiterMutex := Function.update state.waiterMutex cond (some lock) }
    if 0 < object.lockedCount then
      state.setPc tid
        (.ofBooks lock (.condWait cond) (preUnlock object.kind .exclusive object.lockdep))
    else state.abort
  else state.abort

/-! ### Steps inside a call -/

def advanceBook (state : State) (tid : Tid) (lock : Nat) (object : LockObject) (next : Book)
    (rest : List Book) (after : After) : State :=
  match next.run tid object rest with
  | some (object, rest) => (state.setObject lock object).setPc tid (.ofBooks lock after rest)
  | none => state.abort

def advanceLocked (state : State) (tid : Tid) (lock : Nat) (object : LockObject) (mode : Mode)
    (trace : BackTrace) : Option State :=
  match lockdepLocked state.tables tid object.lockName object.id trace with
  | .returned tables id =>
      some (((state.setTables tables).setObject lock { object with id := some id }).setPc tid
        (.ofBooks lock .finish (postLock object.kind mode object.lockdep)))
  | .threw tables => some ((state.setTables tables).setPc tid .idle)
  | .aborted => some state.abort
  | .diverged => none

def advanceUnlocking (state : State) (tid : Tid) (lock : Nat) (object : LockObject) : State :=
  match releaseBy object tid with
  | some freed => (state.setObject lock freed).setPc tid .idle
  | none =>
      match object.kind with
      | .mutex => state.abort
      | .sharedMutex => state.setPc tid .idle

/-- The next step of a thread inside a call, given the object it works on. -/
def advance (state : State) (tid : Tid) (trace : BackTrace) (object : LockObject) :
    Pc → Option State
  | .idle => none
  | .tryLock lock =>
      match grantTo object tid .exclusive with
      | some owned =>
          some ((state.setObject lock owned).setPc tid (acquiredPc lock object .exclusive))
      | none => some (state.setPc tid (.acquiring lock .exclusive))
  | .acquiring lock mode =>
      match grantTo object tid mode with
      | some owned =>
          some ((state.setObject lock owned).setPc tid (acquiredPc lock object mode))
      | none => none
  | .locked lock mode => advanceLocked state tid lock object mode trace
  | .book lock next rest after => some (advanceBook state tid lock object next rest after)
  | .willUnlock lock =>
      let tables :=
        if object.lockdep then lockdepWillUnlock state.tables tid object.id else state.tables
      some ((state.setTables tables).setPc tid (.unlocking lock))
  | .unlocking lock => some (advanceUnlocking state tid lock object)
  | .condWait cond lock =>
      match releaseBy object tid with
      | some freed => some ((state.setObject lock freed).setPc tid (.condBlocked cond lock))
      | none => some (state.setPc tid .idle)
  | .condBlocked _ _ => none
  | .condAcquiring _ lock =>
      match grantTo object tid .exclusive with
      | some owned =>
          some ((state.setObject lock owned).setPc tid
            (.ofBooks lock .finish (postLock object.kind .exclusive object.lockdep)))
      | none => none

/-- The live object at an address. -/
def State.object? (state : State) (lock : Nat) : Option LockObject :=
  match state.objects[lock]? with
  | some object => if object.live then some object else none
  | none => none

def State.callee? (state : State) (tid : Tid) (lock : Nat) : Option LockObject :=
  if state.threads[tid]? = some .idle then state.object? lock else none

def stepLive (state : State) : Action → Option State
  | .create kind name lockdep => create state kind name lockdep
  | .destroy lock => (state.object? lock).map (destroy state lock)
  | .lock tid lock trace =>
      (state.callee? tid lock).bind fun object =>
        willLock state tid lock object trace <|
          match object.kind with
          | .mutex => .tryLock lock
          | .sharedMutex => .acquiring lock .exclusive
  | .tryLock tid lock =>
      (state.callee? tid lock).bind fun object =>
        if object.kind = .mutex then some (tryLock state tid lock object) else none
  | .lockShared tid lock trace =>
      (state.callee? tid lock).bind fun object =>
        if object.kind = .sharedMutex then
          willLock state tid lock object trace (.acquiring lock .shared)
        else none
  | .unlock tid lock =>
      (state.callee? tid lock).map fun object =>
        state.setPc tid
          (.ofBooks lock .willUnlock (preUnlock object.kind .exclusive object.lockdep))
  | .unlockShared tid lock =>
      (state.callee? tid lock).bind fun object =>
        if object.kind = .sharedMutex then
          some (state.setPc tid
            (.ofBooks lock .willUnlock (preUnlock object.kind .shared object.lockdep)))
        else none
  | .wait tid cond lock =>
      (state.callee? tid lock).bind fun object =>
        if object.kind = .mutex then some (wait state tid cond lock object) else none
  | .wake tid =>
      match state.threads[tid]? with
      | some (.condBlocked cond lock) => some (state.setPc tid (.condAcquiring cond lock))
      | _ => none
  | .deadlockError tid =>
      match state.threads[tid]? with
      | some (.acquiring lock _) =>
          (state.object? lock).bind fun object =>
            if object.owner = some tid then some (state.setPc tid .idle) else none
      | _ => none
  | .advance tid trace =>
      (state.threads[tid]?).bind fun pc =>
        (pc.target.bind state.object?).bind fun object => advance state tid trace object pc

def step (state : State) (action : Action) : Option State :=
  if state.aborted then none else stepLive state action

def system : Runs.System State Action where
  initial state := ∃ threads, state = State.initial threads
  step := step

end BlueThread.Locks
