/-
The pool of `threadpool.h` and `threadpool.cc`, with its `WorkQueueVal` queues.

Two kinds of lock are in play. The pool's lock is held across several steps only
by a worker, in `_process_finish` and at the top of its loop; every critical
section of a client is one step. A queue's own lock guards single accesses to
`to_process` and `to_finish`, so each of them is one step too. The subclass
operations are those of a list. Heartbeat deadlines, names and log output are
left out; which workers have a heartbeat handle is kept.

The history fields of a queue record what happened to its items and are never
read by the program.
-/

import BlueThread.Foundation.Runs
import Mathlib.Algebra.Group.Int.Defs
import Mathlib.Data.List.Basic

namespace BlueThread.ThreadPool

/-- A `WorkQueueVal` together with the list of its subclass, which may override `_clear`.
The last six lists tell what became of the items: queued, handed to `_process`, returned
from it, handed to `_process_finish`, returned from it, dropped by `_clear`. -/
structure WorkQueue (α : Type) where
  items : List α
  toProcess : List α
  toFinish : List α
  overridesClear : Bool
  enqueued : List α
  started : List α
  returned : List α
  passed : List α
  completed : List α
  discarded : List α
deriving DecidableEq

/-- Where a worker is: before the first `ul.lock()`; at `while (!_stop)`; before
`to_process` is popped; in `_process`; before the item is put into `to_finish`; at the
`ul.lock()` behind that; before `to_finish` is popped; in `_process_finish`; in
`_cond.wait_for`, and about to lock again there. It holds the lock at `top`, `toFinish`
and `inFinish`. -/
inductive WorkerPc (α : Type)
  | starting
  | top
  | toProcess (wq : Nat)
  | inProcess (wq : Nat) (item : α)
  | processed (wq : Nat) (item : α)
  | relock (wq : Nat)
  | toFinish (wq : Nat)
  | inFinish (wq : Nat) (item : α)
  | waiting
  | woken
  | finished
deriving DecidableEq

/-- A client that was woken in `_wait_cond.wait` is about to lock the pool. -/
inductive ClientPc
  | idle
  | pauseWait
  | pauseWoken
  | drainWait (wq : Option Nat)
  | drainWoken (wq : Option Nat)
  | stopJoining
  | stopClearing
deriving DecidableEq

/-- The pauses of a client are those that returned and are not undone yet. -/
structure Client where
  pc : ClientPc
  pauses : Nat
deriving DecidableEq

/-- The lock belongs to a worker that keeps it from one step to the next. -/
structure State (α : Type) where
  lock : Option Nat
  stop : Bool
  pause : Int
  draining : Int
  numThreads : Nat
  processing : Int
  workQueues : List Nat
  nextWorkQueue : Int
  threads : List Nat
  handles : List Nat
  queues : List (WorkQueue α)
  workers : List (WorkerPc α)
  clients : List Client
  aborted : Bool
deriving DecidableEq

variable {α : Type}

/-- A pool that was just built, and clients that have not called it. -/
def State.initial (numThreads clients : Nat) : State α :=
  { lock := none
    stop := false
    pause := 0
    draining := 0
    numThreads := numThreads
    processing := 0
    workQueues := []
    nextWorkQueue := 0
    threads := []
    handles := []
    queues := []
    workers := []
    clients := List.replicate clients ⟨.idle, 0⟩
    aborted := false }

/-! ### Queues -/

namespace WorkQueue

def initial (overridesClear : Bool) : WorkQueue α :=
  { items := []
    toProcess := []
    toFinish := []
    overridesClear := overridesClear
    enqueued := []
    started := []
    returned := []
    passed := []
    completed := []
    discarded := [] }

def enqueue (queue : WorkQueue α) (item : α) : WorkQueue α :=
  { queue with items := queue.items ++ [item], enqueued := item :: queue.enqueued }

def enqueueFront (queue : WorkQueue α) (item : α) : WorkQueue α :=
  { queue with items := item :: queue.items, enqueued := item :: queue.enqueued }

/-- `_void_dequeue`; `none` is the null pointer. -/
def voidDequeue (queue : WorkQueue α) : Option (WorkQueue α) :=
  match queue.items with
  | [] => none
  | item :: rest =>
      some { queue with items := rest, toProcess := queue.toProcess ++ [item] }

/-- The first critical section of `_void_process`; `none` is a failed assertion. -/
def popToProcess (queue : WorkQueue α) : Option (WorkQueue α × α) :=
  match queue.toProcess with
  | [] => none
  | item :: rest =>
      some ({ queue with toProcess := rest, started := item :: queue.started }, item)

def processReturned (queue : WorkQueue α) (item : α) : WorkQueue α :=
  { queue with returned := item :: queue.returned }

/-- The second critical section of `_void_process`. -/
def pushToFinish (queue : WorkQueue α) (item : α) : WorkQueue α :=
  { queue with toFinish := queue.toFinish ++ [item] }

/-- The critical section of `_void_process_finish`. -/
def popToFinish (queue : WorkQueue α) : Option (WorkQueue α × α) :=
  match queue.toFinish with
  | [] => none
  | item :: rest =>
      some ({ queue with toFinish := rest, passed := item :: queue.passed }, item)

def finishReturned (queue : WorkQueue α) (item : α) : WorkQueue α :=
  { queue with completed := item :: queue.completed }

def clear (queue : WorkQueue α) : WorkQueue α :=
  if queue.overridesClear then
    { queue with items := [], discarded := queue.items ++ queue.discarded }
  else queue

end WorkQueue

/-! ### Signals -/

def WorkerPc.isWaiting : WorkerPc α → Bool
  | .waiting => true
  | _ => false

def WorkerPc.isFinished : WorkerPc α → Bool
  | .finished => true
  | _ => false

/-- `_cond.notify_all()`, seen by one worker. -/
def WorkerPc.notify : WorkerPc α → WorkerPc α
  | .waiting => .woken
  | other => other

/-- `_wait_cond.notify_all()`, seen by one client. -/
def ClientPc.notify : ClientPc → ClientPc
  | .pauseWait => .pauseWoken
  | .drainWait wq => .drainWoken wq
  | other => other

def Client.notify (client : Client) : Client := { client with pc := client.pc.notify }

namespace State

def notifyCond (state : State α) : State α :=
  { state with workers := state.workers.map WorkerPc.notify }

def notifyWaitCond (state : State α) : State α :=
  { state with clients := state.clients.map Client.notify }

def setWorker (state : State α) (worker : Nat) (pc : WorkerPc α) : State α :=
  { state with workers := state.workers.set worker pc }

def setQueue (state : State α) (wq : Nat) (queue : WorkQueue α) : State α :=
  { state with queues := state.queues.set wq queue }

def setClient (state : State α) (client : Nat) (pc : ClientPc) (pauses : Nat) : State α :=
  { state with clients := state.clients.set client ⟨pc, pauses⟩ }

end State

/-! ### Workers -/

/-- `next_work_queue %= work_queues.size()`, where the signed index is converted
to `size_t` first. -/
def wrapIndex (next : Int) (size : Nat) : Int :=
  (if next < 0 then next + 2 ^ 64 else next) % size

/-- The loop `while (tries--)`: the index that is left behind, and the first
queue whose `_void_dequeue` succeeded with what it became. -/
def scan (queues : List (WorkQueue α)) (workQueues : List Nat) :
    Nat → Int → Int × Option (Nat × WorkQueue α)
  | 0, next => (next, none)
  | tries + 1, next =>
      let place := wrapIndex next workQueues.length
      match workQueues[place.toNat]? with
      | none => (place + 1, none)
      | some wq =>
          match (queues[wq]?).bind WorkQueue.voidDequeue with
          | some queue => (place + 1, some (wq, queue))
          | none => scan queues workQueues tries (place + 1)

/-- Blocks in `_cond.wait_for`, which gives the lock back. -/
def goToWait (state : State α) (worker : Nat) : State α :=
  { state.setWorker worker .waiting with lock := none }

/-- One round of the worker's loop, from `while (!_stop)` to the next release of
the lock. -/
def workerTop (state : State α) (worker : Nat) : State α :=
  if state.stop then
    { state.setWorker worker .finished with
      lock := none
      handles := state.handles.erase worker }
  else if state.workQueues = [] then goToWait state worker
  else if state.pause ≠ 0 then goToWait state worker
  else
    match scan state.queues state.workQueues (2 * state.workQueues.length)
        state.nextWorkQueue with
    | (next, some (wq, queue)) =>
        { (state.setQueue wq queue).setWorker worker (.toProcess wq) with
          lock := none
          nextWorkQueue := next
          processing := state.processing + 1 }
    | (next, none) => goToWait { state with nextWorkQueue := next } worker

def workerDone (state : State α) (worker wq : Nat) (queue : WorkQueue α) (item : α) : State α :=
  let done :=
    { (state.setQueue wq (queue.finishReturned item)).setWorker worker .top with
      processing := state.processing - 1 }
  if state.pause ≠ 0 ∨ state.draining ≠ 0 then done.notifyWaitCond else done

/-- The next step of a worker; `none` while it is blocked. -/
def work (state : State α) (worker : Nat) : WorkerPc α → Option (State α)
  | .starting =>
      if state.lock = none then
        some
          { state.setWorker worker .top with
            lock := some worker
            handles := worker :: state.handles }
      else none
  | .top => some (workerTop state worker)
  | .toProcess wq =>
      (state.queues[wq]?).map fun queue =>
        match queue.popToProcess with
        | some (queue, item) => (state.setQueue wq queue).setWorker worker (.inProcess wq item)
        | none => { state with aborted := true }
  | .inProcess wq item =>
      (state.queues[wq]?).map fun queue =>
        (state.setQueue wq (queue.processReturned item)).setWorker worker (.processed wq item)
  | .processed wq item =>
      (state.queues[wq]?).map fun queue =>
        (state.setQueue wq (queue.pushToFinish item)).setWorker worker (.relock wq)
  | .relock wq =>
      if state.lock = none then
        some { state.setWorker worker (.toFinish wq) with lock := some worker }
      else none
  | .toFinish wq =>
      (state.queues[wq]?).map fun queue =>
        match queue.popToFinish with
        | some (queue, item) => (state.setQueue wq queue).setWorker worker (.inFinish wq item)
        | none => { state with aborted := true }
  | .inFinish wq item =>
      (state.queues[wq]?).map fun queue => workerDone state worker wq queue item
  | .waiting => none
  | .woken =>
      if state.lock = none then
        some { state.setWorker worker .top with lock := some worker }
      else none
  | .finished => none

/-! ### Clients -/

/-- `queue` and `queue_front`. `notify_one` wakes a waiting worker if there is
one; which one is the scheduler's choice. -/
def insertItem (state : State α) (wq : Nat) (change : WorkQueue α → WorkQueue α)
    (notified : Option Nat) : Option (State α) :=
  (state.queues[wq]?).bind fun queue =>
    let inserted := state.setQueue wq (change queue)
    match notified with
    | some worker =>
        if (state.workers[worker]?).any WorkerPc.isWaiting then
          some (inserted.setWorker worker .woken)
        else none
    | none => if state.workers.any WorkerPc.isWaiting then none else some inserted

def startThreads (state : State α) : State α :=
  let missing := state.numThreads - state.threads.length
  { state with
    workers := state.workers ++ List.replicate missing .starting
    threads := state.threads ++ List.range' state.workers.length missing }

/-- The loop condition of `drain`. -/
def mustDrain (state : State α) : Option Nat → Bool
  | none => state.processing ≠ 0
  | some wq =>
      state.processing ≠ 0 ||
        (state.queues[wq]?).any fun queue => !queue.items.isEmpty

/-- The loop of `pause`, with the lock held. -/
def pauseLoop (state : State α) (client pauses : Nat) : State α :=
  if state.processing ≠ 0 then state.setClient client .pauseWait pauses
  else state.setClient client .idle (pauses + 1)

/-- The loop of `drain` and what follows it. -/
def drainLoop (state : State α) (client pauses : Nat) (wq : Option Nat) : State α :=
  if mustDrain state wq then state.setClient client (.drainWait wq) pauses
  else { state.setClient client .idle pauses with draining := state.draining - 1 }

/-- `_clear` on every registered queue. -/
def clearQueues (queues : List (WorkQueue α)) : List Nat → List (WorkQueue α)
  | [] => queues
  | wq :: rest => clearQueues (queues.modify wq WorkQueue.clear) rest

/-- A wait of a worker or of a client may end by itself, in `timeout` and `spurious`. -/
inductive Action (α : Type)
  | work (worker : Nat)
  | timeout (worker : Nat)
  | spurious (client : Nat)
  | queue (wq : Nat) (item : α) (notified : Option Nat)
  | queueFront (wq : Nat) (item : α) (notified : Option Nat)
  | wake
  | newQueue (overridesClear : Bool)
  | addWorkQueue (wq : Nat)
  | removeWorkQueue (wq : Nat)
  | start
  | stop (client : Nat)
  | join (client : Nat)
  | clear (client : Nat)
  | pause (client : Nat)
  | unpause (client : Nat)
  | drain (client : Nat) (wq : Option Nat)
  | resume (client : Nat)
deriving DecidableEq

def State.caller? (state : State α) (client : Nat) : Option Nat :=
  match state.clients[client]? with
  | some ⟨.idle, pauses⟩ => some pauses
  | _ => none

/-- `stop` is not called while another `stop` is under way. -/
def State.stopping (state : State α) : Bool :=
  state.clients.any fun client => client.pc = .stopJoining ∨ client.pc = .stopClearing

def clientStep (state : State α) : Action α → Option (State α)
  | .queue wq item notified => insertItem state wq (·.enqueue item) notified
  | .queueFront wq item notified => insertItem state wq (·.enqueueFront item) notified
  | .wake => some state.notifyCond
  | .newQueue overridesClear =>
      some
        { state with
          queues := state.queues ++ [WorkQueue.initial overridesClear]
          workQueues := state.workQueues ++ [state.queues.length] }
  | .addWorkQueue wq =>
      if wq < state.queues.length then
        some { state with workQueues := state.workQueues ++ [wq] }
      else none
  | .removeWorkQueue wq => some { state with workQueues := state.workQueues.erase wq }
  | .start => some (startThreads state)
  | .stop client =>
      (state.caller? client).bind fun pauses =>
        if state.stopping then none
        else some { (state.notifyCond.setClient client .stopJoining pauses) with stop := true }
  | .clear client =>
      match state.clients[client]? with
      | some ⟨.stopClearing, pauses⟩ =>
          some
            { state.setClient client .idle pauses with
              queues := clearQueues state.queues state.workQueues
              stop := false }
      | _ => none
  | .pause client =>
      (state.caller? client).map fun pauses =>
        pauseLoop { state with pause := state.pause + 1 } client pauses
  | .unpause client =>
      (state.caller? client).map fun pauses =>
        { state.notifyCond.setClient client .idle (pauses - 1) with pause := state.pause - 1 }
  | .drain client wq =>
      (state.caller? client).map fun pauses =>
        drainLoop { state with draining := state.draining + 1 } client pauses wq
  | .resume client =>
      match state.clients[client]? with
      | some ⟨.pauseWoken, pauses⟩ => some (pauseLoop state client pauses)
      | some ⟨.drainWoken wq, pauses⟩ => some (drainLoop state client pauses wq)
      | _ => none
  | _ => none

def stepLive (state : State α) : Action α → Option (State α)
  | .work worker => (state.workers[worker]?).bind (work state worker)
  | .timeout worker =>
      if (state.workers[worker]?).any WorkerPc.isWaiting then
        some (state.setWorker worker .woken)
      else none
  | .spurious client =>
      (state.clients[client]?).map fun one => state.setClient client one.pc.notify one.pauses
  | .join client =>
      match state.clients[client]? with
      | some ⟨.stopJoining, pauses⟩ =>
          if state.threads.all fun worker => (state.workers[worker]?).any WorkerPc.isFinished then
            some { state.setClient client .stopClearing pauses with threads := [] }
          else none
      | _ => none
  | action => if state.lock = none then clientStep state action else none

def step (state : State α) (action : Action α) : Option (State α) :=
  if state.aborted then none else stepLive state action

def system (α : Type) : Runs.System (State α) (Action α) where
  initial state := ∃ numThreads clients, state = State.initial numThreads clients
  step := step

end BlueThread.ThreadPool
