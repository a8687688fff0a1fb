/-
The two counters count the workers in their waiting sections.

While the pool is not stopped, there is one worker for each thread index, so the
counters stay within their 32 bits.
-/

import BlueThread.Foundation.Population
import BlueThread.ShardedThreadPool.Steps

namespace BlueThread.ShardedThreadPool

open Population

/-- In the section that waits for `pause_threads` to clear. -/
def WorkerPc.paused : WorkerPc → Nat
  | .pauseWaiting => 1
  | .pauseWoken => 1
  | _ => 0

/-- In the section that waits for `drain_threads` to clear. -/
def WorkerPc.drained : WorkerPc → Nat
  | .drainWaiting => 1
  | .drainWoken => 1
  | _ => 0

def Worker.paused (worker : Worker) : Nat := worker.pc.paused

def Worker.drained (worker : Worker) : Nat := worker.pc.drained

theorem paused_le (worker : Worker) : worker.paused ≤ 1 := by
  unfold Worker.paused WorkerPc.paused
  split <;> omega

theorem drained_le (worker : Worker) : worker.drained ≤ 1 := by
  unfold Worker.drained WorkerPc.drained
  split <;> omega

theorem Move.kept {state : State} {index : Nat} {pc next : WorkerPc}
    (moved : Move state index pc next) : next.paused = pc.paused ∧ next.drained = pc.drained := by
  cases moved with
  | wake pc => cases pc <;> exact ⟨rfl, rfl⟩
  | _ => exact ⟨rfl, rfl⟩

theorem notify_kept (worker : Worker) :
    worker.notify.threadIndex = worker.threadIndex ∧ worker.notify.paused = worker.paused ∧
      worker.notify.drained = worker.drained := by
  obtain ⟨index, pc⟩ := worker
  cases pc <;> exact ⟨rfl, rfl, rfl⟩

/-! ### The crew -/

/-- The pool is not stopped. -/
def NoStop : Action → Prop
  | .stop _ => False
  | _ => True

instance (action : Action) : Decidable (NoStop action) :=
  match action with
  | .stop _ => inferInstanceAs (Decidable False)
  | .work _ | .dequeue _ _ _ | .complete _ _ | .timeout _ | .spurious _ | .queue _
  | .queueFront _ | .setWq | .start | .join _ | .pause _ | .unpause _ | .drain _
  | .drainLock _ | .resume _ => inferInstanceAs (Decidable True)

structure Crewed (numThreads : Nat) (threads : List Nat) (workers : List Worker)
    (clients : List Client) : Prop where
  small : numThreads < 2 ^ 32
  running : ∀ client ∈ clients, client.pc ≠ .stopJoining
  started : (threads = [] ∧ workers = []) ∨
    (threads.length = numThreads ∧ workers.map Worker.threadIndex = List.range numThreads)

theorem Crewed.length_le {numThreads : Nat} {threads : List Nat} {workers : List Worker}
    {clients : List Client} (crewed : Crewed numThreads threads workers clients) :
    workers.length ≤ numThreads := by
  rcases crewed.started with ⟨_, rfl⟩ | ⟨_, indexed⟩
  · exact Nat.zero_le _
  · have same := congrArg List.length indexed
    rw [List.length_map, List.length_range] at same
    exact same.le

theorem Crewed.setWorker {numThreads worker : Nat} {threads : List Nat} {workers : List Worker}
    {clients : List Client} {old new : Worker}
    (crewed : Crewed numThreads threads workers clients) (found : workers[worker]? = some old)
    (same : new.threadIndex = old.threadIndex) :
    Crewed numThreads threads (workers.set worker new) clients := by
  refine ⟨crewed.small, crewed.running, ?_⟩
  rcases crewed.started with ⟨_, rfl⟩ | ⟨full, indexed⟩
  · cases found
  · right
    refine ⟨full, ?_⟩
    obtain ⟨inside, rfl⟩ := List.getElem?_eq_some_iff.mp found
    rw [← indexed, List.map_set, same, ← List.map_set, List.set_getElem_self]

theorem Crewed.notifyClients {numThreads : Nat} {threads : List Nat} {workers : List Worker}
    {clients : List Client} (crewed : Crewed numThreads threads workers clients) :
    Crewed numThreads threads workers (clients.map Client.notify) := by
  refine ⟨crewed.small, ?_, crewed.started⟩
  intro client member
  obtain ⟨before, present, rfl⟩ := List.mem_map.mp member
  have outside := crewed.running before present
  obtain ⟨pc, pauses⟩ := before
  cases pc with
  | stopJoining => exact absurd rfl outside
  | _ => nofun

theorem Crewed.setClient {numThreads client : Nat} {threads : List Nat} {workers : List Worker}
    {clients : List Client} {new : Client}
    (crewed : Crewed numThreads threads workers clients) (outside : new.pc ≠ .stopJoining) :
    Crewed numThreads threads workers (clients.set client new) := by
  refine ⟨crewed.small, ?_, crewed.started⟩
  intro one member
  rcases List.mem_or_eq_of_mem_set member with kept | rfl
  · exact crewed.running one kept
  · exact outside

theorem Crewed.notifyWorkers {numThreads : Nat} {threads : List Nat} {workers : List Worker}
    {clients : List Client} (crewed : Crewed numThreads threads workers clients) :
    Crewed numThreads threads (workers.map Worker.notify) clients := by
  refine ⟨crewed.small, crewed.running, ?_⟩
  rcases crewed.started with ⟨none, rfl⟩ | ⟨full, indexed⟩
  · exact Or.inl ⟨none, rfl⟩
  · right
    refine ⟨full, ?_⟩
    rw [← indexed, List.map_map]
    apply List.map_congr_left
    intro worker _
    exact (notify_kept worker).1

theorem Crewed.start {state : State}
    (crewed : Crewed state.numThreads state.threads state.workers state.clients) :
    Crewed state.numThreads (startThreads state).threads (startThreads state).workers
      state.clients := by
  refine ⟨crewed.small, crewed.running, ?_⟩
  right
  unfold startThreads
  rcases crewed.started with ⟨noThreads, nobody⟩ | ⟨full, indexed⟩
  · simp only [noThreads, nobody, List.length_nil, Nat.sub_zero, List.nil_append,
      List.length_range', List.map_map, true_and]
    exact List.map_id _
  · simp only [full, Nat.sub_self, List.range'_zero, List.range_zero, List.map_nil,
      List.append_nil]
    exact ⟨trivial, indexed⟩

theorem Effect.crewed {state next : State} {action : Action} (effect : Effect state action next)
    (running : NoStop action)
    (crewed : Crewed state.numThreads state.threads state.workers state.clients) :
    Crewed next.numThreads next.threads next.workers next.clients := by
  cases effect with
  | move found moved => exact crewed.setWorker found rfl
  | pauseEnter found paused => exact crewed.notifyClients.setWorker found rfl
  | pausePass found unpaused => exact crewed.notifyClients.setWorker found rfl
  | pauseLeave found unpaused => exact crewed.setWorker found rfl
  | drainEnter found empty draining => exact crewed.notifyClients.setWorker found rfl
  | drainPass found empty idle => exact crewed.notifyClients.setWorker found rfl
  | drainLeave found idle => exact crewed.setWorker found rfl
  | dequeue found atShard atPlace => exact crewed.setWorker found rfl
  | complete found atPlace => exact crewed.setWorker found rfl
  | insert atShard inserted => exact crewed
  | setWq => exact crewed
  | start asked => exact crewed.start
  | stop asked found alone =>
      subst asked
      cases running
  | join found ended =>
      exact absurd rfl (crewed.running _ (List.mem_of_getElem? found))
  | pauseBlock found entry short => exact crewed.setClient nofun
  | pauseReturn found entry full => exact crewed.setClient nofun
  | unpause asked found => exact crewed.notifyWorkers.setClient nofun
  | drainCall asked found => exact crewed.setClient nofun
  | drainBlock found entry short => exact crewed.setClient nofun
  | drainReturn found entry full => exact crewed.notifyWorkers.setClient nofun
  | @spurious client one found =>
      have outside := crewed.running one (List.mem_of_getElem? found)
      apply crewed.setClient
      obtain ⟨pc, pauses⟩ := one
      cases pc with
      | stopJoining => exact absurd rfl outside
      | _ => nofun
  | abort stopThreads pauseThreads drainThreads unset => exact crewed

/-! ### The counters -/

structure Counted (numPaused numDrained : Nat) (workers : List Worker) : Prop where
  paused : numPaused = total Worker.paused workers
  drained : numDrained = total Worker.drained workers

theorem Counted.setWorker {numPaused numDrained paused drained worker : Nat}
    {workers : List Worker} {old new : Worker} (counted : Counted numPaused numDrained workers)
    (found : workers[worker]? = some old) (pauses : paused + old.paused = numPaused + new.paused)
    (drains : drained + old.drained = numDrained + new.drained) :
    Counted paused drained (workers.set worker new) := by
  have movedPaused := total_set Worker.paused new found
  have movedDrained := total_set Worker.drained new found
  have before := counted.paused
  have waits := counted.drained
  exact ⟨by omega, by omega⟩

theorem Counted.notifyWorkers {numPaused numDrained : Nat} {workers : List Worker}
    (counted : Counted numPaused numDrained workers) :
    Counted numPaused numDrained (workers.map Worker.notify) := by
  refine ⟨?_, ?_⟩
  · rw [total_map_same _ _ _ (fun worker => (notify_kept worker).2.1)]
    exact counted.paused
  · rw [total_map_same _ _ _ (fun worker => (notify_kept worker).2.2)]
    exact counted.drained

theorem increment_eq {counter bound : Nat} (below : counter < bound) (small : bound < 2 ^ 32) :
    increment counter = counter + 1 := by
  unfold increment
  omega

theorem decrement_increment {counter bound : Nat} (below : counter < bound)
    (small : bound < 2 ^ 32) : decrement (increment counter) = counter := by
  unfold decrement increment
  omega

theorem decrement_eq {counter : Nat} (positive : 0 < counter) (small : counter < 2 ^ 32) :
    decrement counter + 1 = counter := by
  unfold decrement
  omega

theorem Effect.counted {state next : State} {action : Action} (effect : Effect state action next)
    (crewed : Crewed state.numThreads state.threads state.workers state.clients)
    (counted : Counted state.numPaused state.numDrained state.workers) :
    Counted next.numPaused next.numDrained next.workers := by
  have small := crewed.small
  have few := crewed.length_le
  have paused := counted.paused
  have drained := counted.drained
  cases effect with
  | move found moved =>
      obtain ⟨samePaused, sameDrained⟩ := moved.kept
      exact counted.setWorker found (congrArg _ samePaused.symm) (congrArg _ sameDrained.symm)
  | pauseEnter found flag =>
      have below := total_lt_length Worker.paused paused_le found rfl
      have up : increment state.numPaused = state.numPaused + 1 :=
        increment_eq (by omega) small
      exact counted.setWorker found up rfl
  | pausePass found flag =>
      have below := total_lt_length Worker.paused paused_le found rfl
      have same : decrement (increment state.numPaused) = state.numPaused :=
        decrement_increment (by omega) small
      exact counted.setWorker found (congrArg (· + 0) same) rfl
  | pauseLeave found flag =>
      have inside := le_total Worker.paused found
      have most := total_le_length Worker.paused state.workers paused_le
      have one : 0 < state.numPaused := by
        rw [paused]
        exact inside
      have down := decrement_eq one (by omega)
      exact counted.setWorker found down rfl
  | drainEnter found empty flag =>
      have below := total_lt_length Worker.drained drained_le found rfl
      have up : increment state.numDrained = state.numDrained + 1 :=
        increment_eq (by omega) small
      exact counted.setWorker found rfl up
  | drainPass found empty flag =>
      have below := total_lt_length Worker.drained drained_le found rfl
      have same : decrement (increment state.numDrained) = state.numDrained :=
        decrement_increment (by omega) small
      exact counted.setWorker found rfl (congrArg (· + 0) same)
  | drainLeave found flag =>
      have inside := le_total Worker.drained found
      have most := total_le_length Worker.drained state.workers drained_le
      have one : 0 < state.numDrained := by
        rw [drained]
        exact inside
      have down := decrement_eq one (by omega)
      exact counted.setWorker found rfl down
  | dequeue found atShard atPlace => exact counted.setWorker found rfl rfl
  | complete found atPlace => exact counted.setWorker found rfl rfl
  | start asked =>
      have silent {observe : Worker → Nat} (outside : ∀ index, observe ⟨index, .starting⟩ = 0)
          (missing : Nat) : total observe (state.workers ++
            (List.range missing).map fun index => ⟨index, .starting⟩) =
            total observe state.workers := by
        have none : total observe
            ((List.range missing).map fun index => ⟨index, .starting⟩) = 0 := by
          apply total_eq_zero
          intro one member
          obtain ⟨index, _, rfl⟩ := List.mem_map.mp member
          exact outside index
        rw [total_append, none, Nat.add_zero]
      exact ⟨paused.trans (silent (fun _ => rfl) _).symm,
        drained.trans (silent (fun _ => rfl) _).symm⟩
  | unpause asked found => exact counted.notifyWorkers
  | drainReturn found entry full => exact counted.notifyWorkers
  | _ => exact counted

section Reached

variable {discipline : State → Action → Prop} {state : State}

theorem reachable_crewed (running : ∀ state action, discipline state action → NoStop action)
    (reached : Runs.Reachable system discipline state) :
    Crewed state.numThreads state.threads state.workers state.clients := by
  apply reached.invariant
  · rintro current ⟨numThreads, clients, small, rfl⟩
    refine ⟨small, ?_, Or.inl ⟨rfl, rfl⟩⟩
    intro client member
    rw [List.eq_of_mem_replicate member]
    nofun
  · intro current action following _ crewed permitted taken
    exact (step_effect taken).crewed (running current action permitted) crewed

theorem reachable_counted (running : ∀ state action, discipline state action → NoStop action)
    (reached : Runs.Reachable system discipline state) :
    Counted state.numPaused state.numDrained state.workers := by
  apply reached.invariant
  · rintro current ⟨numThreads, clients, small, rfl⟩
    exact ⟨rfl, rfl⟩
  · intro current action following before counted _ taken
    exact (step_effect taken).counted (reachable_crewed running before) counted

end Reached

end BlueThread.ShardedThreadPool
