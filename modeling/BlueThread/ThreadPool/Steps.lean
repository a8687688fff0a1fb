/-
Everything a step of the pool can do.

The transition function is unfolded here once. Later modules split the effects
by cases and never look at the functions behind them.
-/

import BlueThread.Foundation.Population
import BlueThread.ThreadPool.Model

namespace BlueThread.ThreadPool

variable {α : Type}

/-! ### What the queue operations do -/

namespace WorkQueue

variable {queue after : WorkQueue α} {item : α}

theorem voidDequeue_eq_some (dequeued : queue.voidDequeue = some after) :
    ∃ item rest, queue.items = item :: rest ∧
      after = { queue with items := rest, toProcess := queue.toProcess ++ [item] } := by
  unfold voidDequeue at dequeued
  split at dequeued
  · cases dequeued
  · rename_i item rest front
    rw [Option.some.injEq] at dequeued
    exact ⟨item, rest, front, dequeued.symm⟩

theorem voidDequeue_eq_none (failed : queue.voidDequeue = none) : queue.items = [] := by
  unfold voidDequeue at failed
  split at failed
  · assumption
  · cases failed

theorem popToProcess_eq_some (popped : queue.popToProcess = some (after, item)) :
    ∃ rest, queue.toProcess = item :: rest ∧
      after = { queue with toProcess := rest, started := item :: queue.started } := by
  unfold popToProcess at popped
  split at popped
  · cases popped
  · rename_i head rest front
    simp only [Option.some.injEq, Prod.mk.injEq] at popped
    obtain ⟨same, rfl⟩ := popped
    exact ⟨rest, front, same.symm⟩

theorem popToProcess_eq_none (failed : queue.popToProcess = none) : queue.toProcess = [] := by
  unfold popToProcess at failed
  split at failed
  · assumption
  · cases failed

theorem popToFinish_eq_some (popped : queue.popToFinish = some (after, item)) :
    ∃ rest, queue.toFinish = item :: rest ∧
      after = { queue with toFinish := rest, passed := item :: queue.passed } := by
  unfold popToFinish at popped
  split at popped
  · cases popped
  · rename_i head rest front
    simp only [Option.some.injEq, Prod.mk.injEq] at popped
    obtain ⟨same, rfl⟩ := popped
    exact ⟨rest, front, same.symm⟩

theorem popToFinish_eq_none (failed : queue.popToFinish = none) : queue.toFinish = [] := by
  unfold popToFinish at failed
  split at failed
  · assumption
  · cases failed

end WorkQueue

/-! ### Effects -/

inductive Pass (wq : Nat) :
    WorkQueue α → WorkerPc α → WorkQueue α → WorkerPc α → Prop
  | start {queue after : WorkQueue α} {item : α}
      (popped : queue.popToProcess = some (after, item)) :
      Pass wq queue (.toProcess wq) after (.inProcess wq item)
  | returned {queue : WorkQueue α} {item : α} :
      Pass wq queue (.inProcess wq item) (queue.processReturned item) (.processed wq item)
  | push {queue : WorkQueue α} {item : α} :
      Pass wq queue (.processed wq item) (queue.pushToFinish item) (.relock wq)
  | finish {queue after : WorkQueue α} {item : α}
      (popped : queue.popToFinish = some (after, item)) :
      Pass wq queue (.toFinish wq) after (.inFinish wq item)

inductive Inserted (queue : WorkQueue α) : WorkQueue α → Prop
  | back (item : α) : Inserted queue (queue.enqueue item)
  | front (item : α) : Inserted queue (queue.enqueueFront item)

/-- `notify_one` on the workers' condition. -/
inductive NotifiedOne (workers : List (WorkerPc α)) : List (WorkerPc α) → Prop
  | one {worker : Nat} (found : workers[worker]? = some .waiting) :
      NotifiedOne workers (workers.set worker .woken)
  | nobody (none : workers.any WorkerPc.isWaiting = false) : NotifiedOne workers workers

inductive Entry (first woken : ClientPc) : ClientPc → Int → Prop
  | call : Entry first woken first 1
  | resumed : Entry first woken woken 0

inductive Effect (state : State α) (action : Action α) : State α → Prop
  | acquire {worker : Nat} {pc : WorkerPc α} (found : state.workers[worker]? = some pc)
      (outside : pc = .starting ∨ pc = .woken) (handles : List Nat)
      (added : pc = .starting ∧ handles = worker :: state.handles ∨
        pc = .woken ∧ handles = state.handles) :
      Effect state action
        { state.setWorker worker .top with lock := some worker, handles := handles }
  | leave {worker : Nat} (found : state.workers[worker]? = some .top)
      (stopped : state.stop = true) (handles : List Nat)
      (removed : handles = state.handles.erase worker) :
      Effect state action
        { state.setWorker worker .finished with lock := none, handles := handles }
  | sleep {worker : Nat} (found : state.workers[worker]? = some .top)
      (live : state.stop = false) (next : Int)
      (nothing : state.workQueues = [] ∨ state.pause ≠ 0 ∨
        scan state.queues state.workQueues (2 * state.workQueues.length) state.nextWorkQueue =
          (next, none)) :
      Effect state action
        { state.setWorker worker .waiting with lock := none, nextWorkQueue := next }
  | dequeue {worker wq : Nat} {queue after : WorkQueue α}
      (found : state.workers[worker]? = some .top) (live : state.stop = false)
      (unpaused : state.pause = 0) (next : Int) (registered : wq ∈ state.workQueues)
      (atQueue : state.queues[wq]? = some queue) (dequeued : queue.voidDequeue = some after) :
      Effect state action
        { (state.setQueue wq after).setWorker worker (.toProcess wq) with
          lock := none
          nextWorkQueue := next
          processing := state.processing + 1 }
  | pass {worker wq : Nat} {queue after : WorkQueue α} {pc next : WorkerPc α}
      (found : state.workers[worker]? = some pc) (atQueue : state.queues[wq]? = some queue)
      (pass : Pass wq queue pc after next) :
      Effect state action ((state.setQueue wq after).setWorker worker next)
  | relock {worker wq : Nat} (found : state.workers[worker]? = some (.relock wq)) :
      Effect state action { state.setWorker worker (.toFinish wq) with lock := some worker }
  | done {worker wq : Nat} {queue : WorkQueue α} {item : α}
      (found : state.workers[worker]? = some (.inFinish wq item))
      (atQueue : state.queues[wq]? = some queue) (clients : List Client)
      (told : clients =
        if state.pause ≠ 0 ∨ state.draining ≠ 0 then state.clients.map Client.notify
        else state.clients) :
      Effect state action
        { (state.setQueue wq (queue.finishReturned item)).setWorker worker .top with
          processing := state.processing - 1
          clients := clients }
  | failed {worker wq : Nat} {queue : WorkQueue α} (atQueue : state.queues[wq]? = some queue)
      (missing : (state.workers[worker]? = some (.toProcess wq) ∧ queue.toProcess = []) ∨
        (state.workers[worker]? = some (.toFinish wq) ∧ queue.toFinish = [])) :
      Effect state action { state with aborted := true }
  | timeout {worker : Nat} (found : state.workers[worker]? = some .waiting) :
      Effect state action (state.setWorker worker .woken)
  | spurious {client : Nat} {one : Client} (found : state.clients[client]? = some one) :
      Effect state action (state.setClient client one.pc.notify one.pauses)
  | insert {wq : Nat} {queue after : WorkQueue α} {workers : List (WorkerPc α)}
      (atQueue : state.queues[wq]? = some queue) (inserted : Inserted queue after)
      (notified : NotifiedOne state.workers workers) :
      Effect state action { state.setQueue wq after with workers := workers }
  | wake : Effect state action state.notifyCond
  | newQueue (overridesClear : Bool) (asked : action = .newQueue overridesClear) :
      Effect state action
        { state with
          queues := state.queues ++ [WorkQueue.initial overridesClear]
          workQueues := state.workQueues ++ [state.queues.length] }
  | register (workQueues : List Nat)
      (asked : ∃ wq, action = .addWorkQueue wq ∨ action = .removeWorkQueue wq) :
      Effect state action { state with workQueues := workQueues }
  | start (missing : Nat) (threads : List Nat) (asked : action = .start)
      (lacking : missing = state.numThreads - state.threads.length)
      (added : threads = state.threads ++ List.range' state.workers.length missing) :
      Effect state action
        { state with
          workers := state.workers ++ List.replicate missing .starting
          threads := threads }
  | stop {client pauses : Nat} (asked : action = .stop client)
      (found : state.clients[client]? = some ⟨.idle, pauses⟩) (alone : state.stopping = false) :
      Effect state action
        { state.notifyCond.setClient client .stopJoining pauses with stop := true }
  | join {client pauses : Nat} (found : state.clients[client]? = some ⟨.stopJoining, pauses⟩)
      (joined : ∀ worker ∈ state.threads, state.workers[worker]? = some .finished) :
      Effect state action { state.setClient client .stopClearing pauses with threads := [] }
  | clear {client pauses : Nat} (asked : action = .clear client)
      (found : state.clients[client]? = some ⟨.stopClearing, pauses⟩) :
      Effect state action
        { state.setClient client .idle pauses with
          queues := clearQueues state.queues state.workQueues
          stop := false }
  | pauseBlock {client pauses : Nat} {before : ClientPc} {raise : Int}
      (found : state.clients[client]? = some ⟨before, pauses⟩)
      (entry : Entry .idle .pauseWoken before raise) (busy : state.processing ≠ 0) :
      Effect state action
        { state.setClient client .pauseWait pauses with pause := state.pause + raise }
  | pauseReturn {client pauses : Nat} {before : ClientPc} {raise : Int}
      (found : state.clients[client]? = some ⟨before, pauses⟩)
      (entry : Entry .idle .pauseWoken before raise) (quiet : state.processing = 0) :
      Effect state action
        { state.setClient client .idle (pauses + 1) with pause := state.pause + raise }
  | unpause {client pauses : Nat} (asked : action = .unpause client)
      (found : state.clients[client]? = some ⟨.idle, pauses⟩) :
      Effect state action
        { state.notifyCond.setClient client .idle (pauses - 1) with pause := state.pause - 1 }
  | drainBlock {client pauses : Nat} {before : ClientPc} {raise : Int} {wq : Option Nat}
      (found : state.clients[client]? = some ⟨before, pauses⟩)
      (entry : Entry .idle (.drainWoken wq) before raise) (busy : mustDrain state wq = true) :
      Effect state action
        { state.setClient client (.drainWait wq) pauses with draining := state.draining + raise }
  | drainReturn {client pauses : Nat} {before : ClientPc} {raise : Int} {wq : Option Nat}
      (found : state.clients[client]? = some ⟨before, pauses⟩)
      (entry : Entry .idle (.drainWoken wq) before raise) (quiet : mustDrain state wq = false) :
      Effect state action
        { state.setClient client .idle pauses with draining := state.draining + raise - 1 }

/-! ### The transition function has these effects only -/

theorem scan_some {queues : List (WorkQueue α)} {workQueues : List Nat} {tries : Nat}
    {next left : Int} {wq : Nat} {after : WorkQueue α}
    (scanned : scan queues workQueues tries next = (left, some (wq, after))) :
    wq ∈ workQueues ∧ ∃ queue, queues[wq]? = some queue ∧ queue.voidDequeue = some after := by
  induction tries generalizing next with
  | zero => cases scanned
  | succ tries ih =>
      rw [scan] at scanned
      split at scanned
      · cases scanned
      · rename_i place candidate atPlace
        split at scanned
        · rename_i queue dequeued
          simp only [Prod.mk.injEq, Option.some.injEq] at scanned
          obtain ⟨_, rfl, rfl⟩ := scanned
          exact ⟨List.mem_of_getElem? atPlace, Option.bind_eq_some_iff.mp dequeued⟩
        · exact ih scanned

theorem waiting_of_isWaiting {worker : Nat} {workers : List (WorkerPc α)}
    (waiting : (workers[worker]?).any WorkerPc.isWaiting = true) :
    workers[worker]? = some .waiting := by
  cases found : workers[worker]? with
  | none =>
      rw [found] at waiting
      cases waiting
  | some pc =>
      rw [found] at waiting
      cases pc with
      | waiting => rfl
      | _ => cases waiting

theorem finished_of_isFinished {worker : Nat} {workers : List (WorkerPc α)}
    (finished : (workers[worker]?).any WorkerPc.isFinished = true) :
    workers[worker]? = some .finished := by
  cases found : workers[worker]? with
  | none =>
      rw [found] at finished
      cases finished
  | some pc =>
      rw [found] at finished
      cases pc with
      | finished => rfl
      | _ => cases finished

section Effects

variable {state next : State α} {action : Action α}

theorem workerTop_effect {worker : Nat} (found : state.workers[worker]? = some .top) :
    Effect state action (workerTop state worker) := by
  unfold workerTop
  split
  · rename_i stopped
    exact .leave found stopped _ rfl
  · rename_i live
    have running : state.stop = false := Bool.eq_false_iff.mpr live
    split_ifs with empty paused
    · exact .sleep found running state.nextWorkQueue (Or.inl empty)
    · exact .sleep found running state.nextWorkQueue (Or.inr (Or.inl paused))
    · have unpaused : state.pause = 0 := not_ne_iff.mp paused
      split
      · rename_i left wq after scanned
        obtain ⟨registered, queue, atQueue, dequeued⟩ := scan_some scanned
        exact .dequeue found running unpaused left registered atQueue dequeued
      · rename_i left scanned
        exact .sleep found running left (Or.inr (Or.inr scanned))

theorem work_effect {worker : Nat} {pc : WorkerPc α}
    (found : state.workers[worker]? = some pc) (done : work state worker pc = some next) :
    Effect state action next := by
  cases pc with
  | starting =>
      rw [work] at done
      split_ifs at done
      rw [Option.some.injEq] at done
      subst done
      exact .acquire found (Or.inl rfl) _ (Or.inl ⟨rfl, rfl⟩)
  | top =>
      rw [work, Option.some.injEq] at done
      subst done
      exact workerTop_effect found
  | toProcess wq =>
      obtain ⟨queue, atQueue, result⟩ := Option.map_eq_some_iff.mp done
      split at result
      · rename_i after item popped
        subst result
        exact .pass found atQueue (.start popped)
      · rename_i failed
        subst result
        exact .failed atQueue (Or.inl ⟨found, WorkQueue.popToProcess_eq_none failed⟩)
  | inProcess wq item =>
      obtain ⟨queue, atQueue, rfl⟩ := Option.map_eq_some_iff.mp done
      exact .pass found atQueue .returned
  | processed wq item =>
      obtain ⟨queue, atQueue, rfl⟩ := Option.map_eq_some_iff.mp done
      exact .pass found atQueue .push
  | relock wq =>
      rw [work] at done
      split_ifs at done
      rw [Option.some.injEq] at done
      subst done
      exact .relock found
  | toFinish wq =>
      obtain ⟨queue, atQueue, result⟩ := Option.map_eq_some_iff.mp done
      split at result
      · rename_i after item popped
        subst result
        exact .pass found atQueue (.finish popped)
      · rename_i failed
        subst result
        exact .failed atQueue (Or.inr ⟨found, WorkQueue.popToFinish_eq_none failed⟩)
  | inFinish wq item =>
      obtain ⟨queue, atQueue, rfl⟩ := Option.map_eq_some_iff.mp done
      have effect : Effect state action _ := .done found atQueue _ rfl
      unfold workerDone
      split_ifs at effect ⊢
      · exact effect
      · exact effect
  | waiting => cases done
  | woken =>
      rw [work] at done
      split_ifs at done
      rw [Option.some.injEq] at done
      subst done
      exact .acquire found (Or.inr rfl) _ (Or.inr ⟨rfl, rfl⟩)
  | finished => cases done

theorem insertItem_eq_some {wq : Nat} {change : WorkQueue α → WorkQueue α}
    {notified : Option Nat} (done : insertItem state wq change notified = some next) :
    ∃ queue, state.queues[wq]? = some queue ∧
      ((∃ worker, state.workers[worker]? = some .waiting ∧
          next = (state.setQueue wq (change queue)).setWorker worker .woken) ∨
        (state.workers.any WorkerPc.isWaiting = false ∧
          next = state.setQueue wq (change queue))) := by
  obtain ⟨queue, atQueue, result⟩ := Option.bind_eq_some_iff.mp done
  refine ⟨queue, atQueue, ?_⟩
  cases notified with
  | some worker =>
      dsimp only at result
      rw [Option.ite_none_right_eq_some] at result
      cases result.2
      exact Or.inl ⟨worker, waiting_of_isWaiting result.1, rfl⟩
  | none =>
      dsimp only at result
      rw [Option.ite_none_left_eq_some] at result
      cases result.2
      exact Or.inr ⟨Bool.eq_false_iff.mpr result.1, rfl⟩

theorem insertItem_effect {wq : Nat} {change : WorkQueue α → WorkQueue α}
    {notified : Option Nat} (inserted : ∀ queue, Inserted queue (change queue))
    (done : insertItem state wq change notified = some next) : Effect state action next := by
  obtain ⟨queue, atQueue, ⟨worker, waiting, rfl⟩ | ⟨nobody, rfl⟩⟩ := insertItem_eq_some done
  · exact .insert atQueue (inserted queue) (.one waiting)
  · exact .insert atQueue (inserted queue) (.nobody nobody)

theorem pauseLoop_eq (state : State α) (client pauses : Nat) :
    ∃ pc later, pauseLoop state client pauses = state.setClient client pc later := by
  unfold pauseLoop
  split_ifs
  · exact ⟨_, _, rfl⟩
  · exact ⟨_, _, rfl⟩

theorem drainLoop_eq (state : State α) (client pauses : Nat) (wq : Option Nat) :
    ∃ pc draining, drainLoop state client pauses wq =
      { state.setClient client pc pauses with draining := draining } := by
  unfold drainLoop
  split_ifs
  · exact ⟨_, state.draining, rfl⟩
  · exact ⟨_, _, rfl⟩

theorem pauseLoop_effect {client pauses : Nat} {before : ClientPc} {raise : Int}
    (found : state.clients[client]? = some ⟨before, pauses⟩)
    (entry : Entry .idle .pauseWoken before raise) :
    Effect state action
      (pauseLoop { state with pause := state.pause + raise } client pauses) := by
  unfold pauseLoop
  split_ifs with busy
  · exact .pauseBlock found entry busy
  · exact .pauseReturn found entry (not_ne_iff.mp busy)

theorem drainLoop_effect {client pauses : Nat} {before : ClientPc} {raise : Int}
    {wq : Option Nat} (found : state.clients[client]? = some ⟨before, pauses⟩)
    (entry : Entry .idle (.drainWoken wq) before raise) :
    Effect state action
      (drainLoop { state with draining := state.draining + raise } client pauses wq) := by
  have same : mustDrain { state with draining := state.draining + raise } wq =
      mustDrain state wq := by
    cases wq <;> rfl
  unfold drainLoop
  rw [same]
  split_ifs with busy
  · exact .drainBlock found entry busy
  · exact .drainReturn found entry (Bool.eq_false_iff.mpr busy)

theorem caller?_eq_some {client pauses : Nat} (called : state.caller? client = some pauses) :
    state.clients[client]? = some ⟨.idle, pauses⟩ := by
  unfold State.caller? at called
  split at called
  · rename_i found
    rw [Option.some.injEq] at called
    rw [found, called]
  · cases called

theorem clientStep_effect (done : clientStep state action = some next) :
    Effect state action next := by
  cases action with
  | queue wq item notified => exact insertItem_effect (fun _ => .back item) done
  | queueFront wq item notified => exact insertItem_effect (fun _ => .front item) done
  | wake =>
      rw [clientStep, Option.some.injEq] at done
      subst done
      exact .wake
  | newQueue overridesClear =>
      rw [clientStep, Option.some.injEq] at done
      subst done
      exact .newQueue overridesClear rfl
  | addWorkQueue wq =>
      rw [clientStep] at done
      split_ifs at done
      rw [Option.some.injEq] at done
      subst done
      exact .register _ ⟨wq, Or.inl rfl⟩
  | removeWorkQueue wq =>
      rw [clientStep, Option.some.injEq] at done
      subst done
      exact .register _ ⟨wq, Or.inr rfl⟩
  | start =>
      rw [clientStep, Option.some.injEq] at done
      subst done
      exact .start _ _ rfl rfl rfl
  | stop client =>
      obtain ⟨pauses, called, result⟩ := Option.bind_eq_some_iff.mp done
      split_ifs at result with stopping
      rw [Option.some.injEq] at result
      subst result
      exact .stop rfl (caller?_eq_some called) (Bool.eq_false_iff.mpr stopping)
  | clear client =>
      rw [clientStep] at done
      split at done
      · rename_i pauses found
        rw [Option.some.injEq] at done
        subst done
        exact .clear rfl found
      · cases done
  | pause client =>
      obtain ⟨pauses, called, rfl⟩ := Option.map_eq_some_iff.mp done
      exact pauseLoop_effect (caller?_eq_some called) .call
  | unpause client =>
      obtain ⟨pauses, called, rfl⟩ := Option.map_eq_some_iff.mp done
      exact .unpause rfl (caller?_eq_some called)
  | drain client wq =>
      obtain ⟨pauses, called, rfl⟩ := Option.map_eq_some_iff.mp done
      exact drainLoop_effect (caller?_eq_some called) .call
  | resume client =>
      rw [clientStep] at done
      split at done
      · rename_i pauses found
        rw [Option.some.injEq] at done
        subst done
        have effect : Effect state (.resume client) _ := pauseLoop_effect found .resumed
        rw [Int.add_zero] at effect
        exact effect
      · rename_i wq pauses found
        rw [Option.some.injEq] at done
        subst done
        have effect : Effect state (.resume client) _ := drainLoop_effect found .resumed
        rw [Int.add_zero] at effect
        exact effect
      · cases done
  | work worker => cases done
  | timeout worker => cases done
  | spurious client => cases done
  | join client => cases done

theorem stepLive_effect (done : stepLive state action = some next) :
    Effect state action next := by
  have locked {rest : Option (State α)} (same : rest = clientStep state action)
      (result : (if state.lock = none then rest else none) = some next) :
      Effect state action next := by
    split_ifs at result
    exact clientStep_effect (same ▸ result)
  cases action with
  | work worker =>
      obtain ⟨pc, found, result⟩ := Option.bind_eq_some_iff.mp done
      exact work_effect found result
  | timeout worker =>
      rw [stepLive] at done
      split_ifs at done with waiting
      rw [Option.some.injEq] at done
      subst done
      exact .timeout (waiting_of_isWaiting waiting)
  | spurious client =>
      obtain ⟨one, found, rfl⟩ := Option.map_eq_some_iff.mp done
      exact .spurious found
  | join client =>
      rw [stepLive] at done
      split at done
      · rename_i pauses found
        split_ifs at done with joined
        rw [Option.some.injEq] at done
        subst done
        exact .join found (fun worker member =>
          finished_of_isFinished (List.all_eq_true.mp joined worker member))
      · cases done
  | _ => exact locked rfl done

theorem step_effect (done : step state action = some next) : Effect state action next := by
  unfold step at done
  split at done
  · cases done
  · exact stepLive_effect done

end Effects

theorem step_top {state next : State α} {worker : Nat}
    (found : state.workers[worker]? = some .top)
    (taken : step state (.work worker) = some next) : next = workerTop state worker := by
  unfold step at taken
  split_ifs at taken
  obtain ⟨pc, present, worked⟩ := Option.bind_eq_some_iff.mp taken
  rw [found, Option.some.injEq] at present
  subst present
  rw [work, Option.some.injEq] at worked
  exact worked.symm

/-! ### The pause counter and the cursor -/

/-- A worker whose next step is a scan. -/
def Scans (state : State α) (worker : Nat) : Prop :=
  state.workers[worker]? = some .top ∧ state.stop = false ∧ state.workQueues ≠ [] ∧
    state.pause = 0

instance (state : State α) (worker : Nat) [DecidableEq α] : Decidable (Scans state worker) :=
  inferInstanceAs (Decidable (_ ∧ _))

/-- What a call adds to `_pause`. -/
def Action.pauseChange : Action α → Int
  | .pause _ => 1
  | .unpause _ => -1
  | _ => 0

section Fields

variable {state next : State α} {action : Action α}

theorem work_fields {worker : Nat} {pc : WorkerPc α} (found : state.workers[worker]? = some pc)
    (done : work state worker pc = some next) :
    next.pause = state.pause ∧
      (¬Scans state worker → next.nextWorkQueue = state.nextWorkQueue) := by
  cases pc with
  | starting =>
      rw [work] at done
      split_ifs at done
      cases done
      exact ⟨rfl, fun _ => rfl⟩
  | top =>
      rw [work, Option.some.injEq] at done
      subst done
      unfold workerTop
      split_ifs with stopped empty paused
      · exact ⟨rfl, fun _ => rfl⟩
      · exact ⟨rfl, fun _ => rfl⟩
      · exact ⟨rfl, fun _ => rfl⟩
      · refine ⟨?_, fun quiet => absurd
          ⟨found, Bool.eq_false_iff.mpr stopped, empty, not_ne_iff.mp paused⟩ quiet⟩
        split
        · rfl
        · rfl
  | toProcess wq =>
      obtain ⟨queue, _, result⟩ := Option.map_eq_some_iff.mp done
      split at result
      · subst result
        exact ⟨rfl, fun _ => rfl⟩
      · subst result
        exact ⟨rfl, fun _ => rfl⟩
  | inProcess wq item =>
      obtain ⟨queue, _, rfl⟩ := Option.map_eq_some_iff.mp done
      exact ⟨rfl, fun _ => rfl⟩
  | processed wq item =>
      obtain ⟨queue, _, rfl⟩ := Option.map_eq_some_iff.mp done
      exact ⟨rfl, fun _ => rfl⟩
  | relock wq =>
      rw [work] at done
      split_ifs at done
      cases done
      exact ⟨rfl, fun _ => rfl⟩
  | toFinish wq =>
      obtain ⟨queue, _, result⟩ := Option.map_eq_some_iff.mp done
      split at result
      · subst result
        exact ⟨rfl, fun _ => rfl⟩
      · subst result
        exact ⟨rfl, fun _ => rfl⟩
  | inFinish wq item =>
      obtain ⟨queue, _, rfl⟩ := Option.map_eq_some_iff.mp done
      unfold workerDone
      split_ifs
      · exact ⟨rfl, fun _ => rfl⟩
      · exact ⟨rfl, fun _ => rfl⟩
  | waiting => cases done
  | woken =>
      rw [work] at done
      split_ifs at done
      cases done
      exact ⟨rfl, fun _ => rfl⟩
  | finished => cases done

theorem clientStep_fields (done : clientStep state action = some next) :
    next.pause = state.pause + action.pauseChange ∧
      next.nextWorkQueue = state.nextWorkQueue := by
  have same : state.pause = state.pause + 0 := (Int.add_zero _).symm
  have inserted {wq : Nat} {change : WorkQueue α → WorkQueue α} {notified : Option Nat}
      (result : insertItem state wq change notified = some next) :
      next.pause = state.pause ∧ next.nextWorkQueue = state.nextWorkQueue := by
    obtain ⟨queue, _, ⟨worker, _, rfl⟩ | ⟨_, rfl⟩⟩ := insertItem_eq_some result
    · exact ⟨rfl, rfl⟩
    · exact ⟨rfl, rfl⟩
  have paused (raised : State α) (client pauses : Nat) :
      (pauseLoop raised client pauses).pause = raised.pause ∧
        (pauseLoop raised client pauses).nextWorkQueue = raised.nextWorkQueue := by
    obtain ⟨pc, later, same⟩ := pauseLoop_eq raised client pauses
    rw [same]
    exact ⟨rfl, rfl⟩
  have drained (raised : State α) (client pauses : Nat) (wq : Option Nat) :
      (drainLoop raised client pauses wq).pause = raised.pause ∧
        (drainLoop raised client pauses wq).nextWorkQueue = raised.nextWorkQueue := by
    obtain ⟨pc, draining, same⟩ := drainLoop_eq raised client pauses wq
    rw [same]
    exact ⟨rfl, rfl⟩
  cases action with
  | queue wq item notified => exact ⟨(inserted done).1.trans same, (inserted done).2⟩
  | queueFront wq item notified => exact ⟨(inserted done).1.trans same, (inserted done).2⟩
  | wake =>
      cases done
      exact ⟨same, rfl⟩
  | newQueue overridesClear =>
      cases done
      exact ⟨same, rfl⟩
  | addWorkQueue wq =>
      rw [clientStep] at done
      split_ifs at done
      cases done
      exact ⟨same, rfl⟩
  | removeWorkQueue wq =>
      cases done
      exact ⟨same, rfl⟩
  | start =>
      cases done
      exact ⟨same, rfl⟩
  | stop client =>
      obtain ⟨pauses, _, result⟩ := Option.bind_eq_some_iff.mp done
      split_ifs at result
      cases result
      exact ⟨same, rfl⟩
  | clear client =>
      rw [clientStep] at done
      split at done
      · cases done
        exact ⟨same, rfl⟩
      · cases done
  | pause client =>
      obtain ⟨pauses, _, rfl⟩ := Option.map_eq_some_iff.mp done
      exact paused _ _ _
  | unpause client =>
      obtain ⟨pauses, _, rfl⟩ := Option.map_eq_some_iff.mp done
      exact ⟨rfl, rfl⟩
  | drain client wq =>
      obtain ⟨pauses, _, rfl⟩ := Option.map_eq_some_iff.mp done
      exact ⟨(drained _ _ _ _).1.trans same, (drained _ _ _ _).2⟩
  | resume client =>
      rw [clientStep] at done
      split at done
      · cases done
        exact ⟨(paused _ _ _).1.trans same, (paused _ _ _).2⟩
      · cases done
        exact ⟨(drained _ _ _ _).1.trans same, (drained _ _ _ _).2⟩
      · cases done
  | work worker => cases done
  | timeout worker => cases done
  | spurious client => cases done
  | join client => cases done

/-- What clients do to the workers: signals, and new threads. An observation that
signals do not change sees the new threads only. -/
theorem clientStep_workers {β : Type} (observe : WorkerPc α → β)
    (blind : ∀ pc, observe pc.notify = observe pc)
    (done : clientStep state action = some next) :
    ∃ missing, next.workers.map observe =
      state.workers.map observe ++ List.replicate missing (observe .starting) := by
  have kept {workers : List (WorkerPc α)}
      (same : workers.map observe = state.workers.map observe) :
      ∃ missing, workers.map observe =
        state.workers.map observe ++ List.replicate missing (observe .starting) :=
    ⟨0, by rw [same, List.replicate_zero, List.append_nil]⟩
  have signalled : (state.workers.map WorkerPc.notify).map observe =
      state.workers.map observe := by
    rw [List.map_map]
    exact List.map_congr_left fun pc _ => blind pc
  have inserted {wq : Nat} {change : WorkQueue α → WorkQueue α} {notified : Option Nat}
      (result : insertItem state wq change notified = some next) :
      next.workers.map observe = state.workers.map observe := by
    obtain ⟨queue, _, ⟨worker, found, rfl⟩ | ⟨_, rfl⟩⟩ := insertItem_eq_some result
    · change (state.workers.set worker .woken).map observe = _
      rw [List.map_set]
      apply Population.set_same
      rw [List.getElem?_map, found]
      exact congrArg some (blind .waiting).symm
    · rfl
  have paused (raised : State α) (client pauses : Nat) :
      (pauseLoop raised client pauses).workers = raised.workers := by
    obtain ⟨pc, later, same⟩ := pauseLoop_eq raised client pauses
    rw [same]
    rfl
  have drained (raised : State α) (client pauses : Nat) (wq : Option Nat) :
      (drainLoop raised client pauses wq).workers = raised.workers := by
    obtain ⟨pc, draining, same⟩ := drainLoop_eq raised client pauses wq
    rw [same]
    rfl
  cases action with
  | queue wq item notified => exact kept (inserted done)
  | queueFront wq item notified => exact kept (inserted done)
  | wake =>
      cases done
      exact kept signalled
  | newQueue overridesClear =>
      cases done
      exact kept rfl
  | addWorkQueue wq =>
      rw [clientStep] at done
      split_ifs at done
      cases done
      exact kept rfl
  | removeWorkQueue wq =>
      cases done
      exact kept rfl
  | start =>
      cases done
      refine ⟨state.numThreads - state.threads.length, ?_⟩
      change (state.workers ++ List.replicate _ WorkerPc.starting).map observe = _
      rw [List.map_append, List.map_replicate]
  | stop client =>
      obtain ⟨pauses, _, result⟩ := Option.bind_eq_some_iff.mp done
      split_ifs at result
      cases result
      exact kept signalled
  | clear client =>
      rw [clientStep] at done
      split at done
      · cases done
        exact kept rfl
      · cases done
  | pause client =>
      obtain ⟨pauses, _, rfl⟩ := Option.map_eq_some_iff.mp done
      exact kept (congrArg _ (paused _ _ _))
  | unpause client =>
      obtain ⟨pauses, _, rfl⟩ := Option.map_eq_some_iff.mp done
      exact kept signalled
  | drain client wq =>
      obtain ⟨pauses, _, rfl⟩ := Option.map_eq_some_iff.mp done
      exact kept (congrArg _ (drained _ _ _ _))
  | resume client =>
      rw [clientStep] at done
      split at done
      · cases done
        exact kept (congrArg _ (paused _ _ _))
      · cases done
        exact kept (congrArg _ (drained _ _ _ _))
      · cases done
  | work worker => cases done
  | timeout worker => cases done
  | spurious client => cases done
  | join client => cases done

theorem step_fields (taken : step state action = some next) :
    next.pause = state.pause + action.pauseChange ∧
      ((∀ worker, action = .work worker → ¬Scans state worker) →
        next.nextWorkQueue = state.nextWorkQueue) := by
  have same : state.pause = state.pause + 0 := (Int.add_zero _).symm
  unfold step at taken
  split_ifs at taken
  have locked {rest : Option (State α)} (called : rest = clientStep state action)
      (result : (if state.lock = none then rest else none) = some next) :
      next.pause = state.pause + action.pauseChange ∧
        ((∀ worker, action = .work worker → ¬Scans state worker) →
          next.nextWorkQueue = state.nextWorkQueue) := by
    split_ifs at result
    obtain ⟨pause, cursor⟩ := clientStep_fields (called ▸ result)
    exact ⟨pause, fun _ => cursor⟩
  cases action with
  | work worker =>
      obtain ⟨pc, found, worked⟩ := Option.bind_eq_some_iff.mp taken
      obtain ⟨pause, cursor⟩ := work_fields found worked
      exact ⟨pause.trans same, fun quiet => cursor (quiet worker rfl)⟩
  | timeout worker =>
      rw [stepLive] at taken
      split_ifs at taken
      cases taken
      exact ⟨same, fun _ => rfl⟩
  | spurious client =>
      obtain ⟨one, _, rfl⟩ := Option.map_eq_some_iff.mp taken
      exact ⟨same, fun _ => rfl⟩
  | join client =>
      rw [stepLive] at taken
      split at taken
      · split_ifs at taken
        cases taken
        exact ⟨same, fun _ => rfl⟩
      · cases taken
  | _ => exact locked rfl taken

end Fields

end BlueThread.ThreadPool
