/-
Everything a step of the sharded pool can do.

As for the plain pool, the transition function is unfolded here once. A worker
moves without touching a counter, or it enters or leaves one of the two waiting
sections.
-/

import BlueThread.ShardedThreadPool.Model

namespace BlueThread.ShardedThreadPool

inductive Move (state : State) (index : Nat) : WorkerPc → WorkerPc → Prop
  | started (set : state.wq = true) : Move state index .starting .top
  | leave (stopped : state.stopThreads = true) : Move state index .top .finished
  | round (live : state.stopThreads = false) : Move state index .top .pauseTest
  | toPause (paused : state.pauseThreads = true) : Move state index .pauseTest .pauseLock
  | noPause (unpaused : state.pauseThreads = false) : Move state index .pauseTest .drainTest
  | stayPaused (paused : state.pauseThreads = true) : Move state index .pauseWoken .pauseWaiting
  | toDrain (draining : state.drainThreads = true) : Move state index .drainTest .drainLock
  | noDrain (idle : state.drainThreads = false) : Move state index .drainTest (.process [])
  | filled (items : state.isShardEmpty index = false) : Move state index .drainLock (.process [])
  | stayDrained (draining : state.drainThreads = true) : Move state index .drainWoken .drainWaiting
  | again : Move state index (.process []) .top
  | wake (pc : WorkerPc) : Move state index pc pc.notify

inductive Entry (called : Prop) (first woken : ClientPc) (flag : Bool) : ClientPc → Bool → Prop
  | call (asked : called) : Entry called first woken flag first true
  | resumed : Entry called first woken flag woken flag

inductive Effect (state : State) (action : Action) : State → Prop
  | move {worker index : Nat} {pc next : WorkerPc}
      (found : state.workers[worker]? = some ⟨index, pc⟩) (moved : Move state index pc next) :
      Effect state action (state.setWorker worker index next)
  | pauseEnter {worker index : Nat} (found : state.workers[worker]? = some ⟨index, .pauseLock⟩)
      (paused : state.pauseThreads = true) :
      Effect state action
        { state.notifyClients.setWorker worker index .pauseWaiting with
          numPaused := increment state.numPaused }
  | pausePass {worker index : Nat} (found : state.workers[worker]? = some ⟨index, .pauseLock⟩)
      (unpaused : state.pauseThreads = false) :
      Effect state action
        { state.notifyClients.setWorker worker index .drainTest with
          numPaused := decrement (increment state.numPaused) }
  | pauseLeave {worker index : Nat} (found : state.workers[worker]? = some ⟨index, .pauseWoken⟩)
      (unpaused : state.pauseThreads = false) :
      Effect state action
        { state.setWorker worker index .drainTest with numPaused := decrement state.numPaused }
  | drainEnter {worker index : Nat} (found : state.workers[worker]? = some ⟨index, .drainLock⟩)
      (empty : state.isShardEmpty index = true) (draining : state.drainThreads = true) :
      Effect state action
        { state.notifyClients.setWorker worker index .drainWaiting with
          numDrained := increment state.numDrained }
  | drainPass {worker index : Nat} (found : state.workers[worker]? = some ⟨index, .drainLock⟩)
      (empty : state.isShardEmpty index = true) (idle : state.drainThreads = false) :
      Effect state action
        { state.notifyClients.setWorker worker index (.process []) with
          numDrained := decrement (increment state.numDrained) }
  | drainLeave {worker index : Nat} (found : state.workers[worker]? = some ⟨index, .drainWoken⟩)
      (idle : state.drainThreads = false) (asked : action = .work worker) :
      Effect state action
        { state.setWorker worker index (.process []) with
          numDrained := decrement state.numDrained }
  | dequeue {worker index shard place ticket : Nat} {held items : List Nat}
      (found : state.workers[worker]? = some ⟨index, .process held⟩)
      (atShard : state.shards[shard]? = some items) (atPlace : items[place]? = some ticket) :
      Effect state action
        { state.setWorker worker index (.process (ticket :: held)) with
          shards := state.shards.set shard (items.eraseIdx place) }
  | complete {worker index place ticket : Nat} {held : List Nat}
      (found : state.workers[worker]? = some ⟨index, .process held⟩)
      (atPlace : held[place]? = some ticket) :
      Effect state action
        { state.setWorker worker index (.process (held.eraseIdx place)) with
          processed := ticket :: state.processed }
  | insert {shard : Nat} {items after : List Nat} (atShard : state.shards[shard]? = some items)
      (inserted : after = items ++ [state.queued] ∨ after = state.queued :: items) :
      Effect state action
        { state with shards := state.shards.set shard after, queued := state.queued + 1 }
  | setWq : Effect state action { state with wq := true }
  | start (asked : action = .start) : Effect state action (startThreads state)
  | stop {client pauses : Nat} (asked : action = .stop client)
      (found : state.clients[client]? = some ⟨.idle, pauses⟩) (alone : state.stopping = false) :
      Effect state action
        { state.setClient client .stopJoining pauses with stopThreads := true }
  | join {client pauses : Nat} (found : state.clients[client]? = some ⟨.stopJoining, pauses⟩)
      (ended : state.threads.all state.isFinished = true) :
      Effect state action { state.setClient client .idle pauses with threads := [] }
  | pauseBlock {client pauses : Nat} {before : ClientPc} {flag : Bool}
      (found : state.clients[client]? = some ⟨before, pauses⟩)
      (entry : Entry (action = .pause client ∧ state.wq = true) .idle .pauseWoken
        state.pauseThreads before flag)
      (short : state.numThreads ≠ state.numPaused) :
      Effect state action
        { state.setClient client .pauseWait pauses with pauseThreads := flag }
  | pauseReturn {client pauses : Nat} {before : ClientPc} {flag : Bool}
      (found : state.clients[client]? = some ⟨before, pauses⟩)
      (entry : Entry (action = .pause client ∧ state.wq = true) .idle .pauseWoken
        state.pauseThreads before flag)
      (full : state.numThreads = state.numPaused) :
      Effect state action
        { state.setClient client .idle (pauses + 1) with pauseThreads := flag }
  | unpause {client pauses : Nat} (asked : action = .unpause client)
      (found : state.clients[client]? = some ⟨.idle, pauses⟩) :
      Effect state action
        { state.notifyWorkers.setClient client .idle (pauses - 1) with pauseThreads := false }
  | drainCall {client pauses : Nat} (asked : action = .drain client)
      (found : state.clients[client]? = some ⟨.idle, pauses⟩) :
      Effect state action (state.setClient client (.drainCalled state.queued) pauses)
  | drainBlock {client pauses since : Nat} {before : ClientPc} {flag : Bool}
      (found : state.clients[client]? = some ⟨before, pauses⟩)
      (entry : Entry (action = .drainLock client ∧ state.wq = true) (.drainCalled since)
        (.drainWoken since) state.drainThreads before flag)
      (short : state.numThreads ≠ state.numDrained) :
      Effect state action
        { state.setClient client (.drainWait since) pauses with drainThreads := flag }
  | drainReturn {client pauses since : Nat} {before : ClientPc} {flag : Bool}
      (found : state.clients[client]? = some ⟨before, pauses⟩)
      (entry : Entry (action = .drainLock client ∧ state.wq = true) (.drainCalled since)
        (.drainWoken since) state.drainThreads before flag)
      (full : state.numThreads = state.numDrained) :
      Effect state action
        { state.notifyWorkers.setClient client .idle pauses with
          drainThreads := false
          returned := since :: state.returned }
  | spurious {client : Nat} {one : Client} (found : state.clients[client]? = some one) :
      Effect state action (state.setClient client one.pc.notify one.pauses)
  | abort (stopThreads pauseThreads drainThreads : Bool) (unset : state.wq = false) :
      Effect state action
        { state with
          stopThreads := stopThreads
          pauseThreads := pauseThreads
          drainThreads := drainThreads
          aborted := true }

section Effects

variable {state next : State} {action : Action}

theorem work_effect {worker index : Nat} {pc : WorkerPc} (asked : action = .work worker)
    (found : state.workers[worker]? = some ⟨index, pc⟩)
    (done : work state worker index pc = some next) : Effect state action next := by
  cases pc with
  | starting =>
      rw [work] at done
      split_ifs at done with set
      · cases done
        exact .move found (.started set)
      · cases done
        exact .abort state.stopThreads state.pauseThreads state.drainThreads
          (Bool.eq_false_iff.mpr set)
  | top =>
      cases done
      cases flag : state.stopThreads with
      | true => exact .move found (.leave flag)
      | false => exact .move found (.round flag)
  | pauseTest =>
      cases done
      cases flag : state.pauseThreads with
      | true => exact .move found (.toPause flag)
      | false => exact .move found (.noPause flag)
  | pauseLock =>
      cases done
      unfold pausedLoop
      split
      · rename_i paused
        exact .pauseEnter found paused
      · rename_i unpaused
        exact .pausePass found (Bool.eq_false_iff.mpr unpaused)
  | pauseWaiting => cases done
  | pauseWoken =>
      cases done
      unfold pausedLoop
      split
      · rename_i paused
        exact .move found (.stayPaused paused)
      · rename_i unpaused
        exact .pauseLeave found (Bool.eq_false_iff.mpr unpaused)
  | drainTest =>
      cases done
      cases flag : state.drainThreads with
      | true => exact .move found (.toDrain flag)
      | false => exact .move found (.noDrain flag)
  | drainLock =>
      rw [work] at done
      split_ifs at done with empty
      · cases done
        unfold drainedLoop
        split
        · rename_i draining
          exact .drainEnter found empty draining
        · rename_i idle
          exact .drainPass found empty (Bool.eq_false_iff.mpr idle)
      · cases done
        exact .move found (.filled (Bool.eq_false_iff.mpr empty))
  | drainWaiting => cases done
  | drainWoken =>
      cases done
      unfold drainedLoop
      split
      · rename_i draining
        exact .move found (.stayDrained draining)
      · rename_i idle
        exact .drainLeave found (Bool.eq_false_iff.mpr idle) asked
  | process held =>
      rw [work] at done
      split_ifs at done with empty
      subst empty
      cases done
      exact .move found .again
  | finished => cases done

theorem pauseLoop_effect {client pauses : Nat} {before : ClientPc} {flag : Bool}
    (found : state.clients[client]? = some ⟨before, pauses⟩)
    (entry : Entry (action = .pause client ∧ state.wq = true) .idle .pauseWoken
      state.pauseThreads before flag) :
    Effect state action (pauseLoop { state with pauseThreads := flag } client pauses) := by
  unfold pauseLoop
  split_ifs with short
  · exact .pauseBlock found entry short
  · exact .pauseReturn found entry (not_ne_iff.mp short)

theorem drainLoop_effect {client pauses since : Nat} {before : ClientPc} {flag : Bool}
    (found : state.clients[client]? = some ⟨before, pauses⟩)
    (entry : Entry (action = .drainLock client ∧ state.wq = true) (.drainCalled since)
      (.drainWoken since) state.drainThreads before flag) :
    Effect state action (drainLoop { state with drainThreads := flag } client pauses since) := by
  unfold drainLoop
  split_ifs with short
  · exact .drainBlock found entry short
  · exact .drainReturn found entry (not_ne_iff.mp short)

theorem caller?_eq_some {client pauses : Nat} (called : state.caller? client = some pauses) :
    state.clients[client]? = some ⟨.idle, pauses⟩ := by
  unfold State.caller? at called
  split at called
  · rename_i found
    rw [Option.some.injEq] at called
    rw [found, called]
  · cases called

theorem insertItem_effect {shard : Nat} {change : List Nat → List Nat}
    (inserted : ∀ items, change items = items ++ [state.queued] ∨
      change items = state.queued :: items)
    (done : insertItem state shard change = some next) : Effect state action next := by
  unfold insertItem at done
  split_ifs at done
  obtain ⟨items, atShard, rfl⟩ := Option.map_eq_some_iff.mp done
  exact .insert atShard (inserted items)

theorem clientStep_effect (done : clientStep state action = some next) :
    Effect state action next := by
  cases action with
  | queue shard => exact insertItem_effect (fun _ => Or.inl rfl) done
  | queueFront shard => exact insertItem_effect (fun _ => Or.inr rfl) done
  | setWq =>
      cases done
      exact .setWq
  | start =>
      cases done
      exact .start rfl
  | stop client =>
      obtain ⟨pauses, called, result⟩ := Option.bind_eq_some_iff.mp done
      split_ifs at result with stopping set
      · cases result
        exact .stop rfl (caller?_eq_some called) (Bool.eq_false_iff.mpr stopping)
      · cases result
        exact .abort true state.pauseThreads state.drainThreads (Bool.eq_false_iff.mpr set)
  | join client =>
      rw [clientStep] at done
      split at done
      · rename_i pauses found
        split_ifs at done with ended
        cases done
        exact .join found ended
      · cases done
  | pause client =>
      obtain ⟨pauses, called, result⟩ := Option.map_eq_some_iff.mp done
      split_ifs at result with set
      · subst result
        exact pauseLoop_effect (caller?_eq_some called) (.call ⟨rfl, set⟩)
      · subst result
        exact .abort state.stopThreads true state.drainThreads (Bool.eq_false_iff.mpr set)
  | unpause client =>
      obtain ⟨pauses, called, result⟩ := Option.map_eq_some_iff.mp done
      split_ifs at result with set
      · subst result
        exact .unpause rfl (caller?_eq_some called)
      · subst result
        exact .abort state.stopThreads false state.drainThreads (Bool.eq_false_iff.mpr set)
  | drain client =>
      obtain ⟨pauses, called, rfl⟩ := Option.map_eq_some_iff.mp done
      exact .drainCall rfl (caller?_eq_some called)
  | drainLock client =>
      rw [clientStep] at done
      split at done
      · rename_i since pauses found
        split_ifs at done with set
        · cases done
          exact drainLoop_effect found (.call ⟨rfl, set⟩)
        · cases done
          exact .abort state.stopThreads state.pauseThreads true (Bool.eq_false_iff.mpr set)
      · cases done
  | resume client =>
      rw [clientStep] at done
      split at done
      · rename_i pauses found
        cases done
        exact pauseLoop_effect found .resumed
      · rename_i since pauses found
        cases done
        exact drainLoop_effect found .resumed
      · cases done
  | spurious client =>
      obtain ⟨one, found, rfl⟩ := Option.map_eq_some_iff.mp done
      exact .spurious found
  | work worker => cases done
  | dequeue worker shard place => cases done
  | complete worker place => cases done
  | timeout worker => cases done

theorem step_effect (done : step state action = some next) : Effect state action next := by
  unfold step at done
  split_ifs at done
  cases action with
  | work worker =>
      obtain ⟨one, found, worked⟩ := Option.bind_eq_some_iff.mp done
      exact work_effect rfl found worked
  | dequeue worker shard place =>
      rw [stepLive] at done
      split at done
      · rename_i index held found
        obtain ⟨items, atShard, result⟩ := Option.bind_eq_some_iff.mp done
        obtain ⟨ticket, atPlace, rfl⟩ := Option.map_eq_some_iff.mp result
        exact .dequeue found atShard atPlace
      · cases done
  | complete worker place =>
      rw [stepLive] at done
      split at done
      · rename_i index held found
        obtain ⟨ticket, atPlace, rfl⟩ := Option.map_eq_some_iff.mp done
        exact .complete found atPlace
      · cases done
  | timeout worker =>
      obtain ⟨one, found, rfl⟩ := Option.map_eq_some_iff.mp done
      exact .move found (.wake one.pc)
  | _ => exact clientStep_effect done

theorem Effect.numThreads (effect : Effect state action next) :
    next.numThreads = state.numThreads := by
  cases effect <;> rfl

end Effects

/-! ### What clients do to the workers -/

/-- Signals, and new threads; as for the plain pool, an observation that signals do
not change sees the new threads only. -/
theorem clientStep_workers {state next : State} {action : Action} {β : Type}
    (observe : Worker → β) (blind : ∀ one, observe one.notify = observe one)
    (done : clientStep state action = some next) :
    ∃ missing, next.workers.map observe = state.workers.map observe ++
      (List.range missing).map fun index => observe ⟨index, .starting⟩ := by
  have kept {workers : List Worker}
      (same : workers.map observe = state.workers.map observe) :
      ∃ missing, workers.map observe = state.workers.map observe ++
        (List.range missing).map fun index => observe ⟨index, .starting⟩ :=
    ⟨0, by rw [same, List.range_zero, List.map_nil, List.append_nil]⟩
  have signalled : (state.workers.map Worker.notify).map observe =
      state.workers.map observe := by
    rw [List.map_map]
    exact List.map_congr_left fun one _ => blind one
  have inserted {shard : Nat} {change : List Nat → List Nat}
      (result : insertItem state shard change = some next) :
      next.workers.map observe = state.workers.map observe := by
    unfold insertItem at result
    split_ifs at result
    obtain ⟨items, _, rfl⟩ := Option.map_eq_some_iff.mp result
    rfl
  have paused (raised : State) (client pauses : Nat) :
      (pauseLoop raised client pauses).workers = raised.workers := by
    unfold pauseLoop
    split_ifs
    · rfl
    · rfl
  have drained (raised : State) (client pauses since : Nat)
      (same : raised.workers = state.workers) :
      (drainLoop raised client pauses since).workers.map observe =
        state.workers.map observe := by
    unfold drainLoop
    split_ifs
    · exact congrArg _ same
    · change (raised.workers.map Worker.notify).map observe = _
      rw [same]
      exact signalled
  cases action with
  | queue shard => exact kept (inserted done)
  | queueFront shard => exact kept (inserted done)
  | setWq =>
      cases done
      exact kept rfl
  | start =>
      cases done
      refine ⟨state.numThreads - state.threads.length, ?_⟩
      change (state.workers ++ (List.range _).map fun index =>
        Worker.mk index .starting).map observe = _
      rw [List.map_append, List.map_map]
      rfl
  | stop client =>
      obtain ⟨pauses, _, result⟩ := Option.bind_eq_some_iff.mp done
      split_ifs at result
      · cases result
        exact kept rfl
      · cases result
        exact kept rfl
  | join client =>
      rw [clientStep] at done
      split at done
      · split_ifs at done
        cases done
        exact kept rfl
      · cases done
  | pause client =>
      obtain ⟨pauses, _, rfl⟩ := Option.map_eq_some_iff.mp done
      split_ifs
      · exact kept (congrArg _ (paused _ _ _))
      · exact kept rfl
  | unpause client =>
      obtain ⟨pauses, _, rfl⟩ := Option.map_eq_some_iff.mp done
      split_ifs
      · exact kept signalled
      · exact kept rfl
  | drain client =>
      obtain ⟨pauses, _, rfl⟩ := Option.map_eq_some_iff.mp done
      exact kept rfl
  | drainLock client =>
      rw [clientStep] at done
      split at done
      · split_ifs at done
        · cases done
          exact kept (drained _ _ _ _ rfl)
        · cases done
          exact kept rfl
      · cases done
  | resume client =>
      rw [clientStep] at done
      split at done
      · cases done
        exact kept (congrArg _ (paused _ _ _))
      · cases done
        exact kept (drained _ _ _ _ rfl)
      · cases done
  | spurious client =>
      obtain ⟨one, _, rfl⟩ := Option.map_eq_some_iff.mp done
      exact kept rfl
  | work worker => cases done
  | dequeue worker shard place => cases done
  | complete worker place => cases done
  | timeout worker => cases done

end BlueThread.ShardedThreadPool
