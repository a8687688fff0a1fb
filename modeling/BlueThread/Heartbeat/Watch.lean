/-
The deadlines of the workers, set where the code of the pools sets them.

The workers of pools of both kinds call one heartbeat map. A worker arms its handle
when it goes to sleep, with the graces of its pool, and when it has an item, with the
graces of the queue of that item. The second call comes after the lock was given back,
so it is a step of its own, and a worker that owes it does nothing else. `_process`
may set the deadlines again: in the plain pool through its `TPHandle`, in the sharded
pool with the handle that it is given.
-/

import BlueThread.Heartbeat.Signals

namespace BlueThread.Heartbeat

open ThreadPool (Stage)

variable {α : Type}

/-! ### Where a worker stands -/

/-- A worker that takes the lock again after `wait_for` is still asleep. The queue of a
sharded pool has no number. -/
inductive Place
  | outside
  | passing
  | asleep
  | serving (wq : Option Nat)
deriving DecidableEq

def plainPlace : ThreadPool.WorkerPc α → Place
  | .starting => .outside
  | .top => .passing
  | .toProcess wq => .serving (some wq)
  | .inProcess wq _ => .serving (some wq)
  | .processed wq _ => .serving (some wq)
  | .relock wq => .serving (some wq)
  | .toFinish wq => .serving (some wq)
  | .inFinish wq _ => .serving (some wq)
  | .waiting => .asleep
  | .woken => .asleep
  | .finished => .outside

def shardedPlace : ShardedThreadPool.WorkerPc → Place
  | .starting => .outside
  | .top => .passing
  | .pauseTest => .passing
  | .pauseLock => .passing
  | .pauseWaiting => .asleep
  | .pauseWoken => .asleep
  | .drainTest => .passing
  | .drainLock => .passing
  | .drainWaiting => .asleep
  | .drainWoken => .asleep
  | .process _ => .serving none
  | .finished => .outside

def Pool.places : Pool α → List Place
  | .threadPool state => state.workers.map plainPlace
  | .sharded state => state.workers.map fun one => shardedPlace one.pc

/-- The queue whose `_process` the worker is in. -/
def Pool.inProcess? : Pool α → Nat → Option (Option Nat)
  | .threadPool state, worker =>
      match state.workers[worker]? with
      | some (.inProcess wq _) => some (some wq)
      | _ => none
  | .sharded state, worker =>
      match state.workers[worker]? with
      | some ⟨_, .process _⟩ => some none
      | _ => none

/-- The worker whose own step it is, also inside `_process`. -/
def PoolAction.mover : PoolAction α → Option Nat
  | .sharded (.dequeue worker _ _) => some worker
  | .sharded (.complete worker _) => some worker
  | action => action.actor

namespace Process

def place? (process : Process α) (address : Nat × Nat) : Option Place :=
  (process.pools[address.1]?).bind fun pool => pool.places[address.2]?

def inProcess? (process : Process α) (address : Nat × Nat) : Option (Option Nat) :=
  (process.pools[address.1]?).bind fun pool => pool.inProcess? address.2

/-- The call that `register` stands for. -/
def registration (process : Process α) (pool : Nat) (before after : Pool α) :
    Option Nat → List (Call (Nat × Nat))
  | none => []
  | some worker =>
      match before.crew[worker]?, after.crew[worker]? with
      | some (.created, index), some (.registered, _) =>
          [.addWorker (pool, worker) (before.threadId (process.selves (pool, worker)) index)]
      | some (.registered, _), some (.gone, _) => [.removeWorker (pool, worker)]
      | _, _ => []

end Process

/-! ### The watched process -/

structure Limits where
  grace : UInt64
  suicideGrace : UInt64
deriving DecidableEq

/-- The limits of a pool: `tp_grace` and `tp_suicide_grace`, or the intervals of the
queue of a sharded pool, and those of each `WorkQueue_`. -/
structure Graces where
  own : Limits
  queue : Nat → Limits

def Graces.serving (graces : Graces) : Option Nat → Limits
  | none => graces.own
  | some wq => graces.queue wq

/-- The workers that are about to call `reset_timeout` for an item owe it. The calls of
the map are kept, the latest first. -/
structure Watched (α : Type) where
  process : Process α
  owing : List (Nat × Nat)
  calls : List (Call (Nat × Nat))

/-- A step of a pool comes with what its worker reads from the clock. `begin` is the reset
before an item is processed; `_process` makes the other calls, through its `TPHandle` or
with the handle itself in a sharded queue. -/
inductive WatchAction (α : Type)
  | pool (index : Nat) (action : PoolAction α) (fresh : Nat → Nat) (now : Int64)
  | begin (address : Nat × Nat) (now : Int64)
  | resetTpTimeout (address : Nat × Nat) (now : Int64)
  | suspentTpTimeout (address : Nat × Nat) (now : Int64)
  | resetTimeout (address : Nat × Nat) (now : Int64) (limits : Limits)
  | clearTimeout (address : Nat × Nat) (now : Int64)
  | isHealthy (now : Int64)

def armed (address : Nat × Nat) (now : Int64) (limits : Limits) : Call (Nat × Nat) :=
  .resetTimeout address now limits.grace limits.suicideGrace

namespace Watched

def bedtime (graces : Graces) (index : Nat) (after : Pool α) (now : Int64) :
    Option Nat → Option (Call (Nat × Nat))
  | none => none
  | some worker =>
      if after.places[worker]? = some .asleep then some (armed (index, worker) now graces.own)
      else none

def owingAfter (watched : Watched α) (index : Nat) (before after : Pool α) :
    Option Nat → List (Nat × Nat)
  | none => watched.owing
  | some worker =>
      match before.places[worker]?, after.places[worker]? with
      | some (.serving _), _ => watched.owing
      | _, some (.serving _) => (index, worker) :: watched.owing
      | _, _ => watched.owing

def settle (watched : Watched α) :
    Option (Call (Nat × Nat)) → Option (Except Nat (Watched α))
  | none => some (.ok watched)
  | some call =>
      (perform watched.process.map call).map fun outcome =>
        outcome.map fun map =>
          { watched with
            process := { watched.process with map := map }
            calls := call :: watched.calls }

def idle (watched : Watched α) (index : Nat) (action : PoolAction α) : Bool :=
  (action.mover).all fun worker => (index, worker) ∉ watched.owing

def afterPool (watched : Watched α) (index : Nat) (before after : Pool α)
    (action : PoolAction α) (fresh : Nat → Nat) : Watched α :=
  { process :=
      { pools := watched.process.pools.set index after
        selves := watched.process.selvesAfter index before fresh
        map := watched.process.register index before after action.actor }
    owing := watched.owingAfter index before after action.mover
    calls := watched.process.registration index before after action.actor ++ watched.calls }

def attempt (graces : Nat → Graces) (watched : Watched α) :
    WatchAction α → Option (Except Nat (Watched α))
  | .pool index action fresh now =>
      (watched.process.pools[index]?).bind fun before =>
        (before.step action).bind fun after =>
          if watched.idle index action then
            (watched.afterPool index before after action fresh).settle
              (bedtime (graces index) index after now action.mover)
          else none
  | .begin address now =>
      match watched.process.place? address with
      | some (.serving wq) =>
          if address ∈ watched.owing then
            { watched with owing := watched.owing.erase address }.settle
              (some (armed address now ((graces address.1).serving wq)))
          else none
      | _ => none
  | .resetTpTimeout address now =>
      match watched.process.inProcess? address with
      | some (some wq) => watched.settle (some (armed address now ((graces address.1).queue wq)))
      | _ => none
  | .suspentTpTimeout address now =>
      match watched.process.inProcess? address with
      | some (some _) => watched.settle (some (.clearTimeout address now))
      | _ => none
  | .resetTimeout address now limits =>
      match watched.process.inProcess? address with
      | some none =>
          if address ∈ watched.owing then none
          else watched.settle (some (armed address now limits))
      | _ => none
  | .clearTimeout address now =>
      match watched.process.inProcess? address with
      | some none =>
          if address ∈ watched.owing then none
          else watched.settle (some (.clearTimeout address now))
      | _ => none
  | .isHealthy now => watched.settle (some (.isHealthy now))

end Watched

/-- The process goes on after the calls that do not abort. -/
def watches (α : Type) (graces : Nat → Graces) : Runs.System (Watched α) (WatchAction α) where
  initial watched := (processes α).initial watched.process ∧ watched.owing = [] ∧
    watched.calls = []
  step watched action :=
    match watched.attempt graces action with
    | some (.ok after) => some after
    | _ => none

end BlueThread.Heartbeat
