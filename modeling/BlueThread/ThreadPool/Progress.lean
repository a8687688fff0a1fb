/-
Whether the pool gets on.

A worker is stuck only in two ways: it waits on `_cond`, or it needs the pool's
lock while another worker has it; and the worker that has the lock can always go
on. Every step of a worker uses up some of the work that is left. So after `stop`
has raised its flag the workers leave within a bounded number of steps, and while
the pool runs they come to rest with nothing left to do, in whatever order they are
scheduled.
-/

import BlueThread.Foundation.Budget
import BlueThread.ThreadPool.Lifecycle

namespace BlueThread.ThreadPool

open Population

variable {α : Type}

/-! ### The lock -/

def WorkerPc.holds : WorkerPc α → Bool
  | .top | .toFinish _ | .inFinish _ _ => true
  | _ => false

def Keeps (lock : Option Nat) (workers : List (WorkerPc α)) : Prop :=
  ∀ worker, lock = some worker ↔ (workers.map WorkerPc.holds)[worker]? = some true

section Keeping

variable {lock : Option Nat} {workers later : List (WorkerPc α)} {worker : Nat}
  {pc next : WorkerPc α}

theorem Keeps.holder (keeps : Keeps lock workers) (owns : lock = some worker) :
    ∃ pc, workers[worker]? = some pc ∧ pc.holds = true := by
  have flagged := (keeps worker).mp owns
  rw [List.getElem?_map] at flagged
  exact Option.map_eq_some_iff.mp flagged

theorem Keeps.found (keeps : Keeps lock workers) (found : workers[worker]? = some pc) :
    lock = some worker ↔ pc.holds = true := by
  rw [keeps worker, List.getElem?_map, found, Option.map_some, Option.some.injEq]

theorem Keeps.others (keeps : Keeps lock workers) {other : Nat} (apart : worker ≠ other) :
    lock = some other ↔ ((workers.set worker next).map WorkerPc.holds)[other]? = some true := by
  rw [List.map_set, List.getElem?_set_ne apart]
  exact keeps other

theorem holds_here (found : workers[worker]? = some pc) :
    ((workers.set worker next).map WorkerPc.holds)[worker]? = some next.holds := by
  rw [List.getElem?_map, getElem?_set_found found]
  rfl

theorem Keeps.move (keeps : Keeps lock workers) (found : workers[worker]? = some pc)
    (same : next.holds = pc.holds) : Keeps lock (workers.set worker next) := by
  intro other
  by_cases here : worker = other
  · subst other
    rw [holds_here found, same, Option.some.injEq]
    exact keeps.found found
  · exact keeps.others here

theorem Keeps.acquire (keeps : Keeps none workers) (found : workers[worker]? = some pc)
    (owns : next.holds = true) : Keeps (some worker) (workers.set worker next) := by
  intro other
  by_cases here : worker = other
  · subst other
    rw [holds_here found, owns]
    exact ⟨fun _ => rfl, fun _ => rfl⟩
  · rw [← keeps.others here]
    constructor
    · intro same
      exact absurd (Option.some.inj same) here
    · intro impossible
      cases impossible

theorem Keeps.release (keeps : Keeps lock workers) (found : workers[worker]? = some pc)
    (owned : pc.holds = true) (gives : next.holds = false) :
    Keeps none (workers.set worker next) := by
  intro other
  have mine := (keeps.found found).mpr owned
  by_cases here : worker = other
  · subst other
    rw [holds_here found, gives]
    constructor
    · intro impossible
      cases impossible
    · intro impossible
      cases impossible
  · rw [← keeps.others here, mine]
    constructor
    · intro impossible
      cases impossible
    · intro same
      exact absurd (Option.some.inj same) here

theorem Keeps.grow (keeps : Keeps lock workers) {missing : Nat}
    (grown : later.map WorkerPc.holds =
      workers.map WorkerPc.holds ++ List.replicate missing (WorkerPc.starting : WorkerPc α).holds) :
    Keeps lock later := by
  intro worker
  rw [grown, keeps worker]
  rcases Nat.lt_or_ge worker (workers.map WorkerPc.holds).length with below | above
  · rw [List.getElem?_append_left below]
  · rw [List.getElem?_append_right above, List.getElem?_eq_none above, List.getElem?_replicate]
    constructor
    · intro impossible
      cases impossible
    · intro flagged
      split_ifs at flagged
      cases flagged

theorem holds_notify (pc : WorkerPc α) : pc.notify.holds = pc.holds := by
  cases pc <;> rfl

end Keeping

section Steps

variable {state next : State α} {worker : Nat} {pc : WorkerPc α}

theorem Keeps.workerTop (keeps : Keeps state.lock state.workers)
    (found : state.workers[worker]? = some .top) :
    Keeps (workerTop state worker).lock (workerTop state worker).workers := by
  have released (new : WorkerPc α) (gives : new.holds = false) :
      Keeps none (state.workers.set worker new) := keeps.release found rfl gives
  unfold ThreadPool.workerTop
  split_ifs
  · exact released .finished rfl
  · exact released .waiting rfl
  · exact released .waiting rfl
  · split
    · rename_i left wq after _scanned
      exact released (.toProcess wq) rfl
    · exact released .waiting rfl

theorem Keeps.workerDone (keeps : Keeps state.lock state.workers) {wq : Nat} {item : α}
    (found : state.workers[worker]? = some (.inFinish wq item)) (queue : WorkQueue α) :
    Keeps (workerDone state worker wq queue item).lock
      (workerDone state worker wq queue item).workers := by
  have moved : Keeps state.lock (state.workers.set worker .top) := keeps.move found rfl
  unfold ThreadPool.workerDone
  dsimp only
  split_ifs
  · exact moved
  · exact moved

theorem Keeps.work (keeps : Keeps state.lock state.workers)
    (found : state.workers[worker]? = some pc) (done : work state worker pc = some next) :
    Keeps next.lock next.workers := by
  cases pc with
  | starting =>
      rw [ThreadPool.work, Option.ite_none_right_eq_some] at done
      cases done.2
      rw [done.1] at keeps
      exact keeps.acquire found rfl
  | top =>
      cases done
      exact keeps.workerTop found
  | toProcess wq =>
      obtain ⟨queue, _, result⟩ := Option.map_eq_some_iff.mp done
      split at result
      · rename_i after item _popped
        cases result
        exact keeps.move found rfl
      · cases result
        exact keeps
  | inProcess wq item =>
      obtain ⟨queue, _, rfl⟩ := Option.map_eq_some_iff.mp done
      exact keeps.move found rfl
  | processed wq item =>
      obtain ⟨queue, _, rfl⟩ := Option.map_eq_some_iff.mp done
      exact keeps.move found rfl
  | relock wq =>
      rw [ThreadPool.work, Option.ite_none_right_eq_some] at done
      cases done.2
      rw [done.1] at keeps
      exact keeps.acquire found rfl
  | toFinish wq =>
      obtain ⟨queue, _, result⟩ := Option.map_eq_some_iff.mp done
      split at result
      · rename_i after item _popped
        cases result
        exact keeps.move found rfl
      · cases result
        exact keeps
  | inFinish wq item =>
      obtain ⟨queue, _, rfl⟩ := Option.map_eq_some_iff.mp done
      exact keeps.workerDone found queue
  | waiting => cases done
  | woken =>
      rw [ThreadPool.work, Option.ite_none_right_eq_some] at done
      cases done.2
      rw [done.1] at keeps
      exact keeps.acquire found rfl
  | finished => cases done

theorem clientStep_lock {action : Action α} (done : clientStep state action = some next) :
    next.lock = state.lock := by
  have inserted {wq : Nat} {change : WorkQueue α → WorkQueue α} {notified : Option Nat}
      (result : insertItem state wq change notified = some next) : next.lock = state.lock := by
    obtain ⟨queue, _, ⟨worker, _, rfl⟩ | ⟨_, rfl⟩⟩ := insertItem_eq_some result
    · rfl
    · rfl
  have paused (raised : State α) (client pauses : Nat) :
      (pauseLoop raised client pauses).lock = raised.lock := by
    obtain ⟨pc, later, same⟩ := pauseLoop_eq raised client pauses
    rw [same]
    rfl
  have drained (raised : State α) (client pauses : Nat) (wq : Option Nat) :
      (drainLoop raised client pauses wq).lock = raised.lock := by
    obtain ⟨pc, draining, same⟩ := drainLoop_eq raised client pauses wq
    rw [same]
    rfl
  cases action with
  | queue wq item notified => exact inserted done
  | queueFront wq item notified => exact inserted done
  | addWorkQueue wq =>
      rw [clientStep] at done
      split_ifs at done
      cases done
      rfl
  | wake | newQueue | removeWorkQueue | start =>
      cases done
      rfl
  | stop client =>
      obtain ⟨pauses, _, result⟩ := Option.bind_eq_some_iff.mp done
      split_ifs at result
      cases result
      rfl
  | clear client =>
      rw [clientStep] at done
      split at done
      · cases done
        rfl
      · cases done
  | pause client =>
      obtain ⟨pauses, _, rfl⟩ := Option.map_eq_some_iff.mp done
      exact paused _ _ _
  | unpause client =>
      obtain ⟨pauses, _, rfl⟩ := Option.map_eq_some_iff.mp done
      rfl
  | drain client wq =>
      obtain ⟨pauses, _, rfl⟩ := Option.map_eq_some_iff.mp done
      exact drained _ _ _ _
  | resume client =>
      rw [clientStep] at done
      split at done
      · cases done
        exact paused _ _ _
      · cases done
        exact drained _ _ _ _
      · cases done
  | work | timeout | spurious | join => cases done

theorem Keeps.step {action : Action α} (keeps : Keeps state.lock state.workers)
    (taken : step state action = some next) : Keeps next.lock next.workers := by
  have client {rest : Option (State α)} (called : rest = clientStep state action)
      (result : (if state.lock = none then rest else none) = some next) :
      Keeps next.lock next.workers := by
    rw [Option.ite_none_right_eq_some, called] at result
    obtain ⟨missing, grown⟩ := clientStep_workers WorkerPc.holds holds_notify result.2
    rw [clientStep_lock result.2]
    exact keeps.grow grown
  unfold ThreadPool.step at taken
  split_ifs at taken
  cases action with
  | work worker =>
      obtain ⟨pc, found, worked⟩ := Option.bind_eq_some_iff.mp taken
      exact keeps.work found worked
  | timeout worker =>
      rw [stepLive, Option.ite_none_right_eq_some] at taken
      cases taken.2
      exact keeps.move (waiting_of_isWaiting taken.1) rfl
  | spurious client =>
      obtain ⟨one, _, rfl⟩ := Option.map_eq_some_iff.mp taken
      exact keeps
  | join client =>
      rw [stepLive] at taken
      split at taken
      · rw [Option.ite_none_right_eq_some] at taken
        cases taken.2
        exact keeps
      · cases taken
  | _ => exact client rfl taken

end Steps

theorem reachable_keeps {discipline : State α → Action α → Prop} {state : State α}
    (reached : Runs.Reachable (system α) discipline state) : Keeps state.lock state.workers := by
  apply reached.invariant
  · rintro current ⟨numThreads, clients, rfl⟩ worker
    constructor
    · intro impossible
      cases impossible
    · intro impossible
      cases impossible
  · intro current action following _ keeps _ taken
    exact keeps.step taken

/-! ### A worker that can go on -/

section Enabled

variable {state : State α} {worker : Nat} {pc : WorkerPc α}

theorem work_enabled (accounts : Accounts state.queues state.workers state.processing)
    (found : state.workers[worker]? = some pc) (awake : pc ≠ .waiting) (live : pc ≠ .finished)
    (allowed : state.lock = none ∨ pc.holds = true) : (work state worker pc).isSome = true := by
  have taken (needs : pc.holds = false) : state.lock = none := by
    rcases allowed with free | owns
    · exact free
    · rw [needs] at owns
      cases owns
  have placed (wq : Nat) (serves : pc.queue? = some wq) :
      ∃ queue, state.queues[wq]? = some queue :=
    ⟨_, List.getElem?_eq_getElem (accounts.placed pc (List.mem_of_getElem? found) wq serves)⟩
  cases pc with
  | starting | woken | relock =>
      rw [work, if_pos (taken rfl)]
      rfl
  | top => rfl
  | toProcess wq | inProcess wq | processed wq | toFinish wq | inFinish wq =>
      obtain ⟨queue, atQueue⟩ := placed wq rfl
      rw [work, atQueue]
      rfl
  | waiting => exact absurd rfl awake
  | finished => exact absurd rfl live

theorem exists_work (accounts : Accounts state.queues state.workers state.processing)
    (keeps : Keeps state.lock state.workers) (running : state.aborted = false)
    (found : state.workers[worker]? = some pc) (awake : pc ≠ .waiting) (live : pc ≠ .finished) :
    ∃ actor, (step state (.work actor)).isSome = true := by
  have stepped {actor : Nat} {one : WorkerPc α} (here : state.workers[actor]? = some one)
      (done : (work state actor one).isSome = true) :
      (step state (.work actor)).isSome = true := by
    rw [step, running, if_neg Bool.false_ne_true, stepLive, here]
    exact done
  cases lock : state.lock with
  | none => exact ⟨worker, stepped found (work_enabled accounts found awake live (Or.inl lock))⟩
  | some holder =>
      obtain ⟨one, here, owns⟩ := keeps.holder lock
      refine ⟨holder, stepped here (work_enabled accounts here ?_ ?_ (Or.inr owns))⟩
      · rintro rfl
        cases owns
      · rintro rfl
        cases owns

end Enabled

/-! ### The work that is left -/

def WorkerPc.load : WorkerPc α → Nat
  | .waiting | .finished => 0
  | .top => 1
  | .starting | .woken | .inFinish _ _ => 2
  | .toFinish _ => 3
  | .relock _ => 4
  | .processed _ _ => 5
  | .inProcess _ _ => 6
  | .toProcess _ => 7

def WorkerPc.wayOut : WorkerPc α → Nat
  | .waiting => 2
  | pc => pc.load

/-- What a worker's own step does: it goes from one place to another, and takes up
to one item out of the queues. -/
structure Stride (state next : State α) (worker : Nat) (pc after : WorkerPc α) (taken : Nat) :
    Prop where
  workers : next.workers = state.workers.set worker after
  items : total WorkQueue.size next.queues + taken = total WorkQueue.size state.queues
  lighter : after.load + 1 ≤ pc.load + 7 * taken
  stop : next.stop = state.stop
  nearer : state.stop = true → after.wayOut + 1 ≤ pc.wayOut
  stays : state.stop = false → after.live = 1
  paused : state.pause ≠ 0 → taken = 0

section Strides

variable {state next : State α} {worker : Nat} {pc : WorkerPc α}

theorem workerTop_stride :
    ∃ after taken, Stride state (workerTop state worker) worker .top after taken := by
  cases stopped : state.stop with
  | true =>
      refine ⟨.finished, 0, ?_⟩
      rw [workerTop, if_pos stopped]
      refine ⟨rfl, rfl, Nat.le_refl _, rfl, fun _ => Nat.le_refl _, ?_, fun _ => rfl⟩
      intro live
      rw [stopped] at live
      cases live
  | false =>
      have running : ¬state.stop = true := Bool.eq_false_iff.mp stopped
      have asleep (next : Int) :
          Stride state (goToWait { state with nextWorkQueue := next } worker) worker .top
            .waiting 0 :=
        ⟨rfl, rfl, Nat.le_refl _, rfl, fun stop => absurd stop running, fun _ => rfl, fun _ => rfl⟩
      rw [workerTop, if_neg running]
      split_ifs with _unregistered paused
      · exact ⟨.waiting, 0, asleep state.nextWorkQueue⟩
      · exact ⟨.waiting, 0, asleep state.nextWorkQueue⟩
      · split
        · rename_i left wq after scanned
          obtain ⟨_, queue, atQueue, dequeued⟩ := scan_some scanned
          refine ⟨.toProcess wq, 1, rfl, ?_, Nat.le_refl _, rfl,
            fun stop => absurd stop running, fun _ => rfl, fun held => absurd held paused⟩
          have smaller := size_dequeue dequeued
          have moved := total_set WorkQueue.size after atQueue
          change total WorkQueue.size (state.queues.set wq after) + 1 = _
          omega
        · rename_i left _scanned
          exact ⟨.waiting, 0, asleep left⟩

theorem work_stride (done : work state worker pc = some next)
    (running : next.aborted = false) :
    ∃ after taken, Stride state next worker pc after taken := by
  have carried {wq : Nat} {queue after : WorkQueue α} (atQueue : state.queues[wq]? = some queue)
      (same : after.items = queue.items) :
      total WorkQueue.size (state.queues.set wq after) + 0 = total WorkQueue.size state.queues :=
    size_set atQueue same
  cases pc with
  | starting =>
      rw [work, Option.ite_none_right_eq_some] at done
      cases done.2
      exact ⟨.top, 0, rfl, rfl, Nat.le_refl _, rfl, fun _ => Nat.le_refl _, fun _ => rfl,
        fun _ => rfl⟩
  | top =>
      cases done
      exact workerTop_stride
  | toProcess wq =>
      obtain ⟨queue, atQueue, result⟩ := Option.map_eq_some_iff.mp done
      split at result
      · rename_i after item popped
        cases result
        obtain ⟨rest, _, rfl⟩ := WorkQueue.popToProcess_eq_some popped
        exact ⟨.inProcess wq item, 0, rfl, carried atQueue rfl, Nat.le_refl _, rfl,
          fun _ => Nat.le_refl _, fun _ => rfl,
        fun _ => rfl⟩
      · cases result
        cases running
  | inProcess wq item =>
      obtain ⟨queue, atQueue, rfl⟩ := Option.map_eq_some_iff.mp done
      exact ⟨.processed wq item, 0, rfl, carried atQueue rfl, Nat.le_refl _, rfl,
        fun _ => Nat.le_refl _, fun _ => rfl,
        fun _ => rfl⟩
  | processed wq item =>
      obtain ⟨queue, atQueue, rfl⟩ := Option.map_eq_some_iff.mp done
      exact ⟨.relock wq, 0, rfl, carried atQueue rfl, Nat.le_refl _, rfl,
        fun _ => Nat.le_refl _, fun _ => rfl,
        fun _ => rfl⟩
  | relock wq =>
      rw [work, Option.ite_none_right_eq_some] at done
      cases done.2
      exact ⟨.toFinish wq, 0, rfl, rfl, Nat.le_refl _, rfl, fun _ => Nat.le_refl _, fun _ => rfl,
        fun _ => rfl⟩
  | toFinish wq =>
      obtain ⟨queue, atQueue, result⟩ := Option.map_eq_some_iff.mp done
      split at result
      · rename_i after item popped
        cases result
        obtain ⟨rest, _, rfl⟩ := WorkQueue.popToFinish_eq_some popped
        exact ⟨.inFinish wq item, 0, rfl, carried atQueue rfl, Nat.le_refl _, rfl,
          fun _ => Nat.le_refl _, fun _ => rfl,
        fun _ => rfl⟩
      · cases result
        cases running
  | inFinish wq item =>
      obtain ⟨queue, atQueue, rfl⟩ := Option.map_eq_some_iff.mp done
      have told : ∃ clients, workerDone state worker wq queue item =
          { (state.setQueue wq (queue.finishReturned item)).setWorker worker .top with
            processing := state.processing - 1
            clients := clients } := by
        unfold workerDone
        dsimp only
        split_ifs
        · exact ⟨_, rfl⟩
        · exact ⟨_, rfl⟩
      obtain ⟨clients, same⟩ := told
      rw [same]
      exact ⟨.top, 0, rfl, carried atQueue rfl, Nat.le_refl _, rfl,
        fun _ => Nat.le_refl _, fun _ => rfl,
        fun _ => rfl⟩
  | waiting => cases done
  | woken =>
      rw [work, Option.ite_none_right_eq_some] at done
      cases done.2
      exact ⟨.top, 0, rfl, rfl, Nat.le_refl _, rfl, fun _ => Nat.le_refl _, fun _ => rfl,
        fun _ => rfl⟩
  | finished => cases done

end Strides

/-! ### The way out of a stopped pool -/

def Action.works : Action α → Bool
  | .work _ => true
  | _ => false

def Action.timesOut : Action α → Bool
  | .timeout _ => true
  | _ => false

/-- What may happen between the two critical sections of `stop`. -/
def WhileStopping : Action α → Prop
  | .start => False
  | .clear _ => False
  | _ => True

instance (action : Action α) : Decidable (WhileStopping action) :=
  match action with
  | .start => inferInstanceAs (Decidable False)
  | .clear _ => inferInstanceAs (Decidable False)
  | .work _ | .timeout _ | .spurious _ | .queue _ _ _ | .queueFront _ _ _ | .wake | .newQueue _
  | .addWorkQueue _ | .removeWorkQueue _ | .stop _ | .join _ | .pause _ | .unpause _
  | .drain _ _ | .resume _ => inferInstanceAs (Decidable True)

theorem wayOut_le (pc : WorkerPc α) : pc.wayOut ≤ 7 * pc.live := by
  cases pc <;> simp [WorkerPc.wayOut, WorkerPc.load, WorkerPc.live]

theorem wayOut_notify (pc : WorkerPc α) : pc.notify.wayOut = pc.wayOut := by
  cases pc <;> rfl

section Stopping

variable {state next : State α} {action : Action α}

theorem Effect.wayOut (effect : Effect state action next) (permitted : WhileStopping action)
    (stopped : state.stop = true) :
    next.stop = true ∧
      total WorkerPc.wayOut next.workers ≤ total WorkerPc.wayOut state.workers := by
  have moved {worker : Nat} {pc after : WorkerPc α} (found : state.workers[worker]? = some pc)
      (closer : after.wayOut ≤ pc.wayOut) :
      total WorkerPc.wayOut (state.workers.set worker after) ≤
        total WorkerPc.wayOut state.workers := by
    have shift := total_set WorkerPc.wayOut after found
    omega
  have signalled : total WorkerPc.wayOut (state.workers.map WorkerPc.notify) ≤
      total WorkerPc.wayOut state.workers :=
    Nat.le_of_eq (total_map_same _ _ _ wayOut_notify)
  have running (live : state.stop = false) : False := by
    rw [stopped] at live
    cases live
  cases effect with
  | acquire found outside handles added =>
      rcases outside with rfl | rfl
      · exact ⟨stopped, moved found (by simp [WorkerPc.wayOut, WorkerPc.load])⟩
      · exact ⟨stopped, moved found (by simp [WorkerPc.wayOut, WorkerPc.load])⟩
  | leave found _ handles removed =>
      exact ⟨stopped, moved found (by simp [WorkerPc.wayOut, WorkerPc.load])⟩
  | sleep found live => exact (running live).elim
  | dequeue found live => exact (running live).elim
  | pass found atQueue pass =>
      refine ⟨stopped, moved found ?_⟩
      cases pass <;> simp [WorkerPc.wayOut, WorkerPc.load]
  | relock found => exact ⟨stopped, moved found (by simp [WorkerPc.wayOut, WorkerPc.load])⟩
  | done found => exact ⟨stopped, moved found (by simp [WorkerPc.wayOut, WorkerPc.load])⟩
  | timeout found => exact ⟨stopped, moved found (by simp [WorkerPc.wayOut, WorkerPc.load])⟩
  | insert atQueue inserted notified =>
      refine ⟨stopped, ?_⟩
      cases notified with
      | one found => exact moved found (by simp [WorkerPc.wayOut, WorkerPc.load])
      | nobody => exact Nat.le_refl _
  | wake => exact ⟨stopped, signalled⟩
  | unpause => exact ⟨stopped, signalled⟩
  | stop => exact ⟨rfl, signalled⟩
  | start missing threads asked =>
      rw [asked] at permitted
      exact permitted.elim
  | clear asked =>
      rw [asked] at permitted
      exact permitted.elim
  | failed | spurious | newQueue | register | join | pauseBlock | pauseReturn | drainBlock
  | drainReturn => exact ⟨stopped, Nat.le_refl _⟩

theorem step_wayOut (taken : step state action = some next) (running : next.aborted = false)
    (permitted : WhileStopping action) (stopped : state.stop = true) :
    next.stop = true ∧
      total WorkerPc.wayOut next.workers + (if action.works then 1 else 0) ≤
        total WorkerPc.wayOut state.workers := by
  obtain ⟨still, closer⟩ := (step_effect taken).wayOut permitted stopped
  refine ⟨still, ?_⟩
  cases action with
  | work worker =>
      unfold step at taken
      split_ifs at taken
      obtain ⟨pc, found, worked⟩ := Option.bind_eq_some_iff.mp taken
      obtain ⟨after, items, stride⟩ := work_stride worked running
      have shift := total_set WorkerPc.wayOut after found
      have nearer := stride.nearer stopped
      rw [stride.workers]
      change total WorkerPc.wayOut (state.workers.set worker after) + 1 ≤ _
      omega
  | _ => exact closer

end Stopping

theorem WhileStopping.controlled {action : Action α} (permitted : WhileStopping action)
    (state : State α) : OneController state action := by
  cases action with
  | start => exact permitted.elim
  | _ => trivial

/-- Everybody is gone, and the client in `stop` gets past its joins. -/
def Vacated (state : State α) : Prop :=
  (∀ pc ∈ state.workers, pc = .finished) ∧
    ∀ client pauses, state.clients[client]? = some ⟨.stopJoining, pauses⟩ →
      (step state (.join client)).isSome = true

theorem join_enabled {state : State α}
    (staffed : Staffed state.stop state.numThreads state.threads state.handles state.stages)
    (running : state.aborted = false) (gone : ∀ pc ∈ state.workers, pc = .finished) :
    Vacated state := by
  refine ⟨gone, ?_⟩
  intro client pauses found
  have joined : (state.threads.all fun worker =>
      (state.workers[worker]?).any WorkerPc.isFinished) = true := by
    rw [List.all_eq_true]
    intro worker member
    have inside := staffed.created worker member
    rw [State.stages, List.length_map] at inside
    rw [List.getElem?_eq_getElem inside, gone _ (List.getElem_mem inside)]
    rfl
  rw [step, running, if_neg Bool.false_ne_true, stepLive, found]
  dsimp only
  rw [if_pos joined]
  rfl

/-- Workers go on and time out, and woken clients look at what they wait for. -/
def LeftAlone : Action α → Prop
  | .work _ => True
  | .timeout _ => True
  | .spurious _ => True
  | .resume _ => True
  | _ => False

instance (action : Action α) : Decidable (LeftAlone action) :=
  match action with
  | .work _ | .timeout _ | .spurious _ | .resume _ => inferInstanceAs (Decidable True)
  | .start | .clear _ | .queue _ _ _ | .queueFront _ _ _ | .wake | .newQueue _
  | .addWorkQueue _ | .removeWorkQueue _ | .stop _ | .join _ | .pause _ | .unpause _
  | .drain _ _ => inferInstanceAs (Decidable False)

/-- The steps that are left before every worker waits: those of the workers, and seven
more for each item. -/
def State.workLeft (state : State α) : Nat :=
  7 * total WorkQueue.size state.queues + total WorkerPc.load state.workers

theorem load_le (pc : WorkerPc α) : pc.load ≤ 7 * pc.live := by
  cases pc <;> simp [WorkerPc.load, WorkerPc.live]

section Resting

variable {state next : State α} {action : Action α}

theorem resume_frame {client : Nat} (done : clientStep state (.resume client) = some next) :
    next.queues = state.queues ∧ next.workers = state.workers ∧ next.stop = state.stop := by
  rw [clientStep] at done
  split at done
  · rename_i pauses _found
    cases done
    obtain ⟨pc, later, same⟩ := pauseLoop_eq state client pauses
    rw [same]
    exact ⟨rfl, rfl, rfl⟩
  · rename_i wq pauses _found
    cases done
    obtain ⟨pc, draining, same⟩ := drainLoop_eq state client pauses wq
    rw [same]
    exact ⟨rfl, rfl, rfl⟩
  · cases done

/-- Every step of a worker does some of the work, and a time-out adds two steps. Items
are taken by workers only, and not in a pool that is paused. -/
theorem step_load (taken : step state action = some next) (running : next.aborted = false)
    (permitted : LeftAlone action) (live : state.stop = false) :
    total WorkerPc.live next.workers = total WorkerPc.live state.workers ∧
      ∃ items, total WorkQueue.size next.queues + items = total WorkQueue.size state.queues ∧
        total WorkerPc.load next.workers + (if action.works then 1 else 0) ≤
          total WorkerPc.load state.workers + 7 * items + (if action.timesOut then 2 else 0) ∧
        (state.pause ≠ 0 → items = 0) := by
  unfold step at taken
  split_ifs at taken
  cases action with
  | work worker =>
      obtain ⟨pc, found, worked⟩ := Option.bind_eq_some_iff.mp taken
      obtain ⟨after, items, stride⟩ := work_stride worked running
      have shift := total_set WorkerPc.load after found
      have count := total_set WorkerPc.live after found
      have stays := stride.stays live
      have was : pc.live = 1 := by
        cases pc with
        | finished => cases worked
        | _ => rfl
      have lighter := stride.lighter
      rw [stride.workers]
      refine ⟨by omega, items, stride.items, ?_, stride.paused⟩
      change total WorkerPc.load (state.workers.set worker after) + 1 ≤ _ + 0
      omega
  | timeout worker =>
      rw [stepLive, Option.ite_none_right_eq_some] at taken
      cases taken.2
      have found := waiting_of_isWaiting taken.1
      have shift := total_set WorkerPc.load .woken found
      have count := total_set WorkerPc.live .woken found
      refine ⟨Nat.add_right_cancel count, 0, rfl, ?_, fun _ => rfl⟩
      simp only [WorkerPc.load] at shift
      change total WorkerPc.load (state.workers.set worker .woken) + 0 ≤ _ + 2
      omega
  | spurious client =>
      obtain ⟨one, _, rfl⟩ := Option.map_eq_some_iff.mp taken
      exact ⟨rfl, 0, rfl, Nat.le_refl _, fun _ => rfl⟩
  | resume client =>
      change (if state.lock = none then clientStep state (.resume client) else none) = _ at taken
      rw [Option.ite_none_right_eq_some] at taken
      obtain ⟨queues, workers, _⟩ := resume_frame taken.2
      rw [queues, workers]
      exact ⟨rfl, 0, rfl, Nat.le_refl _, fun _ => rfl⟩
  | _ => exact permitted.elim

end Resting

/-- Nothing is left to do, nobody waits in `pause` or `drain`, and whoever was woken
there returns at the next step. -/
structure AtRest (state : State α) : Prop where
  undequeued : state.undequeued = 0
  processing : state.processing = 0
  notified : ∀ client ∈ state.clients, client.pc ≠ .pauseWait ∧ ∀ wq, client.pc ≠ .drainWait wq
  returns : ∀ client next, step state (.resume client) = some next →
    ∃ pauses, next.clients[client]? = some ⟨.idle, pauses⟩

section AtRest

variable {state : State α}

theorem mustDrain_rest (idle : state.processing = 0)
    (empty : total WorkQueue.size state.queues = 0) (wq : Option Nat) :
    mustDrain state wq = false := by
  have emptied (place : Nat) :
      ((state.queues[place]?).any fun queue => !queue.items.isEmpty) = false := by
    cases found : state.queues[place]? with
    | none => rfl
    | some queue =>
        have none := eq_zero_of_total_eq_zero WorkQueue.size empty found
        rw [WorkQueue.size, List.length_eq_zero_iff] at none
        rw [Option.any_some, none]
        rfl
  cases wq with
  | none =>
      rw [mustDrain, idle]
      rfl
  | some place =>
      rw [mustDrain, idle, emptied place]
      rfl

theorem resume_rest (idle : state.processing = 0)
    (empty : total WorkQueue.size state.queues = 0) {client : Nat} {next : State α}
    (taken : step state (.resume client) = some next) :
    ∃ pauses, next.clients[client]? = some ⟨.idle, pauses⟩ := by
  unfold step at taken
  split_ifs at taken
  change (if state.lock = none then clientStep state (.resume client) else none) = _ at taken
  rw [Option.ite_none_right_eq_some, clientStep] at taken
  obtain ⟨_, resumed⟩ := taken
  split at resumed
  · rename_i pauses found
    cases resumed
    rw [pauseLoop, if_neg (not_ne_iff.mpr idle)]
    exact ⟨pauses + 1, getElem?_set_found found⟩
  · rename_i wq pauses found
    cases resumed
    rw [drainLoop, mustDrain_rest idle empty wq, if_neg Bool.false_ne_true]
    exact ⟨pauses, getElem?_set_found found⟩
  · cases resumed

theorem stuck_quiet (accounts : Accounts state.queues state.workers state.processing)
    (keeps : Keeps state.lock state.workers) (running : state.aborted = false)
    (stuck : ¬∃ worker, (step state (.work worker)).isSome = true)
    {observe : WorkerPc α → Nat} (waits : observe .waiting = 0) (gone : observe .finished = 0) :
    total observe state.workers = 0 := by
  apply total_eq_zero
  intro pc member
  obtain ⟨worker, found⟩ := List.mem_iff_getElem?.mp member
  by_cases waiting : pc = .waiting
  · rw [waiting]
    exact waits
  · by_cases finished : pc = .finished
    · rw [finished]
      exact gone
    · exact absurd (exists_work accounts keeps running found waiting finished) stuck

theorem atRest (accounts : Accounts state.queues state.workers state.processing)
    (keeps : Keeps state.lock state.workers) (running : state.aborted = false)
    (registered : state.workQueues = List.range state.queues.length)
    (awake : Awake state.stop state.pause state.queues state.workers) (needed : Needed state)
    (live : state.stop = false) (unpaused : state.pause = 0)
    (staffed : 0 < total WorkerPc.live state.workers)
    (stuck : ¬∃ worker, (step state (.work worker)).isSome = true) : AtRest state := by
  have quiet {observe : WorkerPc α → Nat} (waits : observe .waiting = 0)
      (gone : observe .finished = 0) : total observe state.workers = 0 :=
    stuck_quiet accounts keeps running stuck waits gone
  have idle : state.processing = 0 := by
    rw [accounts.processing, quiet rfl rfl]
    rfl
  have empty : total WorkQueue.size state.queues = 0 := by
    rcases awake.working live unpaused with nobody | enough
    · rw [total_live, nobody, quiet rfl rfl] at staffed
      omega
    · rw [quiet rfl rfl] at enough
      omega
  refine ⟨by rw [State.undequeued_eq registered]; exact empty, idle, ?_, ?_⟩
  · intro client member
    have waits := needed client member
    constructor
    · intro pausing
      rw [Client.mustWait, pausing] at waits
      simp [idle] at waits
    · intro wq draining
      rw [Client.mustWait, draining] at waits
      simp only [mustDrain_rest idle empty wq] at waits
      cases waits
  · intro client next taken
    exact resume_rest idle empty taken

end AtRest

/-- The clients of a running pool: no `stop`, and queues that are registered once. -/
def Running (state : State α) (action : Action α) : Prop :=
  Matched state action ∧ ConstructedOnly action ∧ NoStop action

instance (state : State α) (action : Action α) : Decidable (Running state action) :=
  inferInstanceAs (Decidable (_ ∧ _))

theorem LeftAlone.running {action : Action α} (permitted : LeftAlone action) (state : State α) :
    Running state action := by
  cases action with
  | work | timeout | spurious | resume => exact ⟨trivial, trivial, trivial⟩
  | _ => exact permitted.elim

theorem LeftAlone.pauseChange {action : Action α} (permitted : LeftAlone action) :
    action.pauseChange = 0 := by
  cases action with
  | work | timeout | spurious | resume => rfl
  | _ => exact permitted.elim

end BlueThread.ThreadPool
