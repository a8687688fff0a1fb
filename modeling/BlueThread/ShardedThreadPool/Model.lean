/-
The pool of `shardedthreadpool.h` and `shardedthreadpool.cc`.

Every critical section under `shardedpool_lock` is one step, so the lock is free
in every state. The three flags are atomic and are also read without the lock,
each read being a step of its own. A drain that finds its condition true at once
sets and clears its flag in one section; then every worker waits in the drained
section, and none of them reads the flag outside the lock.

The queue is a subclass with one shard for each thread index. An item is
represented by its ticket, the number of items queued before it. `_process` may
dequeue any number of items, and it completes all of them before it returns;
`return_waiting_threads` and its counterpart only make it return earlier. Names,
log output and heartbeat deadlines are left out.
-/

import BlueThread.Foundation.Runs
import Mathlib.Algebra.Group.Nat.Defs
import Mathlib.Data.List.Basic

namespace BlueThread.ShardedThreadPool

/-- Where a worker is: before the assertion on `wq`, at `while (!stop_threads)`, at the
test of a flag, at the lock behind the test, blocked in the section or about to take the
lock again there, or in `_process` with the items that it dequeued and did not complete. -/
inductive WorkerPc
  | starting
  | top
  | pauseTest
  | pauseLock
  | pauseWaiting
  | pauseWoken
  | drainTest
  | drainLock
  | drainWaiting
  | drainWoken
  | process (held : List Nat)
  | finished
deriving DecidableEq

structure Worker where
  threadIndex : Nat
  pc : WorkerPc
deriving DecidableEq

/-- A client in `drain` knows how many items were queued before the call. -/
inductive ClientPc
  | idle
  | pauseWait
  | pauseWoken
  | drainCalled (since : Nat)
  | drainWait (since : Nat)
  | drainWoken (since : Nat)
  | stopJoining
deriving DecidableEq

/-- The pauses of a client are those that returned and are not undone yet. -/
structure Client where
  pc : ClientPc
  pauses : Nat
deriving DecidableEq

/-- The members of the pool, with `threads_shardedpool` as places in the list of all workers
so far. Beside them are the number of items queued, the items completed, and for each
drain that returned how many items had been queued when it was called. -/
structure State where
  numThreads : Nat
  stopThreads : Bool
  pauseThreads : Bool
  drainThreads : Bool
  numPaused : Nat
  numDrained : Nat
  wq : Bool
  threads : List Nat
  workers : List Worker
  clients : List Client
  shards : List (List Nat)
  queued : Nat
  processed : List Nat
  returned : List Nat
  aborted : Bool
deriving DecidableEq

def State.initial (numThreads clients : Nat) : State :=
  { numThreads := numThreads
    stopThreads := false
    pauseThreads := false
    drainThreads := false
    numPaused := 0
    numDrained := 0
    wq := false
    threads := []
    workers := []
    clients := List.replicate clients ⟨.idle, 0⟩
    shards := List.replicate numThreads []
    queued := 0
    processed := []
    returned := []
    aborted := false }

/-! ### Counters of 32 bits -/

def increment (counter : Nat) : Nat := (counter + 1) % 2 ^ 32

def decrement (counter : Nat) : Nat := (counter + (2 ^ 32 - 1)) % 2 ^ 32

/-! ### Signals -/

/-- `shardedpool_cond.notify_all()`, or the end of a timed wait, for one worker. -/
def WorkerPc.notify : WorkerPc → WorkerPc
  | .pauseWaiting => .pauseWoken
  | .drainWaiting => .drainWoken
  | other => other

def Worker.notify (worker : Worker) : Worker := { worker with pc := worker.pc.notify }

/-- `wait_cond.notify_all()`, for one client. -/
def ClientPc.notify : ClientPc → ClientPc
  | .pauseWait => .pauseWoken
  | .drainWait since => .drainWoken since
  | other => other

def Client.notify (client : Client) : Client := { client with pc := client.pc.notify }

namespace State

def notifyWorkers (state : State) : State :=
  { state with workers := state.workers.map Worker.notify }

def notifyClients (state : State) : State :=
  { state with clients := state.clients.map Client.notify }

def setWorker (state : State) (worker index : Nat) (pc : WorkerPc) : State :=
  { state with workers := state.workers.set worker ⟨index, pc⟩ }

def setClient (state : State) (client : Nat) (pc : ClientPc) (pauses : Nat) : State :=
  { state with clients := state.clients.set client ⟨pc, pauses⟩ }

def isShardEmpty (state : State) (index : Nat) : Bool :=
  (state.shards[index]?).all List.isEmpty

end State

/-! ### Workers -/

/-- The loop `while (pause_threads)` with the lock held, and what follows it. -/
def pausedLoop (state : State) (worker index : Nat) : State :=
  if state.pauseThreads then state.setWorker worker index .pauseWaiting
  else
    { state.setWorker worker index .drainTest with numPaused := decrement state.numPaused }

/-- The loop `while (drain_threads)` with the lock held, and what follows it. -/
def drainedLoop (state : State) (worker index : Nat) : State :=
  if state.drainThreads then state.setWorker worker index .drainWaiting
  else
    { state.setWorker worker index (.process []) with
      numDrained := decrement state.numDrained }

/-- The next step of `start_shardedthreadpool_worker`; `none` while it is blocked
or in the middle of `_process`. -/
def work (state : State) (worker index : Nat) : WorkerPc → Option State
  | .starting =>
      if state.wq then some (state.setWorker worker index .top)
      else some { state with aborted := true }
  | .top =>
      some (state.setWorker worker index (if state.stopThreads then .finished else .pauseTest))
  | .pauseTest =>
      some (state.setWorker worker index (if state.pauseThreads then .pauseLock else .drainTest))
  | .pauseLock =>
      some (pausedLoop { state.notifyClients with numPaused := increment state.numPaused }
        worker index)
  | .pauseWaiting => none
  | .pauseWoken => some (pausedLoop state worker index)
  | .drainTest =>
      some (state.setWorker worker index
        (if state.drainThreads then .drainLock else .process []))
  | .drainLock =>
      if state.isShardEmpty index then
        some (drainedLoop { state.notifyClients with numDrained := increment state.numDrained }
          worker index)
      else some (state.setWorker worker index (.process []))
  | .drainWaiting => none
  | .drainWoken => some (drainedLoop state worker index)
  | .process held => if held = [] then some (state.setWorker worker index .top) else none
  | .finished => none

/-- `_process` takes an item out of a shard. -/
def dequeue (state : State) (worker index shard place : Nat) (held : List Nat) : Option State :=
  (state.shards[shard]?).bind fun items =>
    (items[place]?).map fun ticket =>
      { state.setWorker worker index (.process (ticket :: held)) with
        shards := state.shards.set shard (items.eraseIdx place) }

/-- `_process` is done with an item. -/
def complete (state : State) (worker index place : Nat) (held : List Nat) : Option State :=
  (held[place]?).map fun ticket =>
    { state.setWorker worker index (.process (held.eraseIdx place)) with
      processed := ticket :: state.processed }

/-! ### Clients -/

/-- The loop of `pause`, with the lock held. -/
def pauseLoop (state : State) (client pauses : Nat) : State :=
  if state.numThreads ≠ state.numPaused then state.setClient client .pauseWait pauses
  else state.setClient client .idle (pauses + 1)

/-- The loop of `drain` and what follows it. -/
def drainLoop (state : State) (client pauses since : Nat) : State :=
  if state.numThreads ≠ state.numDrained then state.setClient client (.drainWait since) pauses
  else
    { state.notifyWorkers.setClient client .idle pauses with
      drainThreads := false
      returned := since :: state.returned }

/-- `start_threads`: the loop of creations, from one thread index on. -/
def startThreads (state : State) : State :=
  let missing := state.numThreads - state.threads.length
  { state with
    threads := state.threads ++ List.range' state.workers.length missing
    workers := state.workers ++ (List.range missing).map fun index => ⟨index, .starting⟩ }

def State.isFinished (state : State) (worker : Nat) : Bool :=
  (state.workers[worker]?).any fun one => one.pc = .finished

/-- `stop` is not called while another `stop` is under way. -/
def State.stopping (state : State) : Bool :=
  state.clients.any fun client => client.pc = .stopJoining

/-- A wait of a worker or of a client may end by itself, in `timeout` and `spurious`. The
first section of `drain` is a step of its own. -/
inductive Action
  | work (worker : Nat)
  | dequeue (worker shard place : Nat)
  | complete (worker place : Nat)
  | timeout (worker : Nat)
  | spurious (client : Nat)
  | queue (shard : Nat)
  | queueFront (shard : Nat)
  | setWq
  | start
  | stop (client : Nat)
  | join (client : Nat)
  | pause (client : Nat)
  | unpause (client : Nat)
  | drain (client : Nat)
  | drainLock (client : Nat)
  | resume (client : Nat)
deriving DecidableEq

/-- `queue` and `queue_front`: a new ticket goes into a shard. -/
def insertItem (state : State) (shard : Nat) (change : List Nat → List Nat) : Option State :=
  if state.wq then
    (state.shards[shard]?).map fun items =>
      { state with
        shards := state.shards.set shard (change items)
        queued := state.queued + 1 }
  else none

def State.caller? (state : State) (client : Nat) : Option Nat :=
  match state.clients[client]? with
  | some ⟨.idle, pauses⟩ => some pauses
  | _ => none

/-- The steps of clients and of the queue. A call through a null `wq` aborts. -/
def clientStep (state : State) : Action → Option State
  | .queue shard => insertItem state shard (· ++ [state.queued])
  | .queueFront shard => insertItem state shard (state.queued :: ·)
  | .setWq => some { state with wq := true }
  | .start => some (startThreads state)
  | .stop client =>
      (state.caller? client).bind fun pauses =>
        if state.stopping then none
        else if state.wq then
          some { state.setClient client .stopJoining pauses with stopThreads := true }
        else some { state with stopThreads := true, aborted := true }
  | .join client =>
      match state.clients[client]? with
      | some ⟨.stopJoining, pauses⟩ =>
          if state.threads.all state.isFinished then
            some { state.setClient client .idle pauses with threads := [] }
          else none
      | _ => none
  | .pause client =>
      (state.caller? client).map fun pauses =>
        if state.wq then pauseLoop { state with pauseThreads := true } client pauses
        else { state with pauseThreads := true, aborted := true }
  | .unpause client =>
      (state.caller? client).map fun pauses =>
        if state.wq then
          { state.notifyWorkers.setClient client .idle (pauses - 1) with pauseThreads := false }
        else { state with pauseThreads := false, aborted := true }
  | .drain client =>
      (state.caller? client).map fun pauses =>
        state.setClient client (.drainCalled state.queued) pauses
  | .drainLock client =>
      match state.clients[client]? with
      | some ⟨.drainCalled since, pauses⟩ =>
          if state.wq then
            some (drainLoop { state with drainThreads := true } client pauses since)
          else some { state with drainThreads := true, aborted := true }
      | _ => none
  | .resume client =>
      match state.clients[client]? with
      | some ⟨.pauseWoken, pauses⟩ => some (pauseLoop state client pauses)
      | some ⟨.drainWoken since, pauses⟩ => some (drainLoop state client pauses since)
      | _ => none
  | .spurious client =>
      (state.clients[client]?).map fun one => state.setClient client one.pc.notify one.pauses
  | _ => none

def stepLive (state : State) : Action → Option State
  | .work worker =>
      (state.workers[worker]?).bind fun one => work state worker one.threadIndex one.pc
  | .dequeue worker shard place =>
      match state.workers[worker]? with
      | some ⟨index, .process held⟩ => dequeue state worker index shard place held
      | _ => none
  | .complete worker place =>
      match state.workers[worker]? with
      | some ⟨index, .process held⟩ => complete state worker index place held
      | _ => none
  | .timeout worker =>
      (state.workers[worker]?).map fun one =>
        state.setWorker worker one.threadIndex one.pc.notify
  | action => clientStep state action

def step (state : State) (action : Action) : Option State :=
  if state.aborted then none else stepLive state action

/-- The number of threads is an unsigned integer of 32 bits. -/
def system : Runs.System State Action where
  initial state := ∃ numThreads clients, numThreads < 2 ^ 32 ∧
    state = State.initial numThreads clients
  step := step

end BlueThread.ShardedThreadPool
