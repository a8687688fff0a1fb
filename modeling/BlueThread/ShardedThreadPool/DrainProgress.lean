/-
How a drain of the sharded pool comes to its end.

A worker enters the drained section when it finds its shard empty. Until then it has to
go on with the items there, so a drain comes to its end only if `_process` takes an
item whenever there is one. What a worker has taken since it entered `_process` is
kept beside the pool. Every item that is taken pays for the rounds that it causes: one
of the worker that takes it, and one of the worker whose shard it leaves empty.
-/

import BlueThread.ShardedThreadPool.Progress

namespace BlueThread.ShardedThreadPool

open Population

/-! ### What nobody waits for in vain -/

def ClientPc.inDrainWait : ClientPc → Bool
  | .drainWait _ => true
  | _ => false

/-- No worker waits in the paused section while its flag is down, and a client in `drain`
waits for a worker that is not drained. -/
structure Expecting (state : State) : Prop where
  unpaused : state.pauseThreads = false → ∀ worker ∈ state.workers, worker.pc ≠ .pauseWaiting
  draining : ∀ client ∈ state.clients, client.pc.inDrainWait = true →
    state.numThreads ≠ state.numDrained

section Expecting

variable {state next : State} {action : Action}

theorem notify_not_pauseWaiting (pc : WorkerPc) : pc.notify ≠ .pauseWaiting := by
  cases pc <;> simp [WorkerPc.notify]

theorem notify_inDrainWait (pc : ClientPc) : pc.notify.inDrainWait = false := by
  cases pc <;> rfl

theorem not_pauseWaiting_notify (workers : List Worker) :
    ∀ one ∈ workers.map Worker.notify, one.pc ≠ .pauseWaiting := by
  intro one member
  obtain ⟨worker, _, rfl⟩ := List.mem_map.mp member
  exact notify_not_pauseWaiting worker.pc

theorem draining_set {clients : List Client} {client pauses : Nat} {pc : ClientPc} {short : Prop}
    (before : ∀ one ∈ clients, one.pc.inDrainWait = true → short)
    (own : pc.inDrainWait = true → short) :
    ∀ one ∈ clients.set client ⟨pc, pauses⟩, one.pc.inDrainWait = true → short := by
  intro one member
  rcases List.mem_or_eq_of_mem_set member with old | rfl
  · exact before one old
  · exact own

theorem draining_notify {clients : List Client} {short : Prop} :
    ∀ one ∈ clients.map Client.notify, one.pc.inDrainWait = true → short := by
  intro one member waits
  obtain ⟨client, _, rfl⟩ := List.mem_map.mp member
  cases (notify_inDrainWait client.pc).symm.trans waits

theorem Move.not_pauseWaiting {index : Nat} {pc after : WorkerPc}
    (moved : Move state index pc after) (down : state.pauseThreads = false) :
    after ≠ .pauseWaiting := by
  cases moved with
  | stayPaused up =>
      rw [down] at up
      cases up
  | wake => exact notify_not_pauseWaiting pc
  | _ => simp

theorem Effect.expecting (effect : Effect state action next)
    (crewed : Crewed state.numThreads state.threads state.workers state.clients)
    (counted : Counted state.numPaused state.numDrained state.workers)
    (expecting : Expecting state) (live : next.aborted = false) : Expecting next := by
  have moved (worker index : Nat) (pc : WorkerPc)
      (outside : state.pauseThreads = false → pc ≠ .pauseWaiting)
      (down : state.pauseThreads = false) :
      ∀ one ∈ state.workers.set worker ⟨index, pc⟩, one.pc ≠ .pauseWaiting :=
    not_at_set (expecting.unpaused down) (outside down)
  have elsewhere {pc : WorkerPc} (apart : pc ≠ .pauseWaiting) :
      state.pauseThreads = false → pc ≠ .pauseWaiting := fun _ => apart
  cases effect with
  | move found shift => exact ⟨moved _ _ _ shift.not_pauseWaiting, expecting.draining⟩
  | @pauseEnter worker index found paused =>
      refine ⟨moved worker index .pauseWaiting ?_, draining_notify⟩
      intro down
      rw [down] at paused
      cases paused
  | @pausePass worker index =>
      exact ⟨moved worker index .drainTest (elsewhere (by simp)), draining_notify⟩
  | @pauseLeave worker index =>
      exact ⟨moved worker index .drainTest (elsewhere (by simp)), expecting.draining⟩
  | @drainEnter worker index =>
      exact ⟨moved worker index .drainWaiting (elsewhere (by simp)), draining_notify⟩
  | @drainPass worker index =>
      exact ⟨moved worker index (.process []) (elsewhere (by simp)), draining_notify⟩
  | @drainLeave worker index found =>
      refine ⟨moved worker index (.process []) (elsewhere (by simp)), ?_⟩
      -- The worker that leaves was counted, so the counter is below the number of threads.
      intro client member waits
      have inside : 1 ≤ total Worker.drained state.workers := le_total Worker.drained found
      have most := total_le_length Worker.drained state.workers drained_le
      have few := crewed.length_le
      have small := crewed.small
      have total := counted.drained
      have lower := decrement_eq (show 0 < state.numDrained by omega) (by omega)
      change state.numThreads ≠ decrement state.numDrained
      omega
  | @dequeue worker index shard place ticket held =>
      exact ⟨moved worker index (.process (ticket :: held)) (elsewhere (by simp)),
        expecting.draining⟩
  | @complete worker index place ticket held =>
      exact ⟨moved worker index (.process (held.eraseIdx place)) (elsewhere (by simp)),
        expecting.draining⟩
  | insert | setWq => exact ⟨expecting.unpaused, expecting.draining⟩
  | start asked =>
      refine ⟨?_, expecting.draining⟩
      intro down one member
      rcases List.mem_append.mp member with old | new
      · exact expecting.unpaused down one old
      · obtain ⟨index, _, rfl⟩ := List.mem_map.mp new
        simp
  | stop | join | drainCall =>
      exact ⟨expecting.unpaused, draining_set expecting.draining (by simp [ClientPc.inDrainWait])⟩
  | pauseBlock found entry | pauseReturn found entry =>
      refine ⟨?_, draining_set expecting.draining (by simp [ClientPc.inDrainWait])⟩
      intro down
      cases entry with
      | call => cases down
      | resumed => exact expecting.unpaused down
  | unpause =>
      exact ⟨fun _ => not_pauseWaiting_notify state.workers,
        draining_set expecting.draining (by simp [ClientPc.inDrainWait])⟩
  | drainBlock found entry short =>
      exact ⟨expecting.unpaused, draining_set expecting.draining fun _ => short⟩
  | drainReturn =>
      exact ⟨fun _ => not_pauseWaiting_notify state.workers,
        draining_set expecting.draining (by simp [ClientPc.inDrainWait])⟩
  | spurious =>
      refine ⟨expecting.unpaused, draining_set expecting.draining ?_⟩
      intro waits
      cases (notify_inDrainWait _).symm.trans waits
  | abort => cases live

end Expecting

theorem reachable_expecting {state : State}
    (reached : Runs.Reachable system (fun _ action => NoStop action) state)
    (live : state.aborted = false) : Expecting state := by
  induction reached with
  | start initial =>
      obtain ⟨numThreads, clients, _, rfl⟩ := initial
      refine ⟨fun _ one member => (by cases member), ?_⟩
      intro client member waits
      rw [List.eq_of_mem_replicate member] at waits
      cases waits
  | next action before permitted taken ih =>
      exact (step_effect taken).expecting (reachable_crewed (fun _ _ running => running) before)
        (reachable_counted (fun _ _ running => running) before) (ih (step_live taken)) live

/-! ### Who has taken an item -/

/-- The pool, and the workers that have taken an item since they entered `_process`. -/
structure Shift where
  pool : State
  served : List Nat

def Shift.servedAfter (shift : Shift) : Action → List Nat
  | .dequeue worker _ _ => worker :: shift.served
  | .work worker => shift.served.filter (· ≠ worker)
  | _ => shift.served

def Shift.step (shift : Shift) (action : Action) : Option Shift :=
  (ShardedThreadPool.step shift.pool action).map fun next =>
    { pool := next
      served := shift.servedAfter action }

def shifts : Runs.System Shift Action where
  initial shift := system.initial shift.pool ∧ shift.served = []
  step := Shift.step

/-- Only the workers and their time-outs go on, and clients that were woken too early;
`_process` takes an item before it returns, unless there is none in its shard. -/
def Diligent (shift : Shift) (action : Action) : Prop :=
  LeftAlone action ∧
    match action with
    | .resume _ => shift.pool.numThreads ≠ shift.pool.numDrained
    | .work worker => ∀ one ∈ shift.pool.workers[worker]?, one.pc = .process [] →
        worker ∈ shift.served ∨ shift.pool.isShardEmpty one.threadIndex = true
    | _ => True

instance (shift : Shift) (action : Action) : Decidable (Diligent shift action) :=
  match action with
  | .resume _ =>
      inferInstanceAs (Decidable (_ ∧ shift.pool.numThreads ≠ shift.pool.numDrained))
  | .work worker =>
      inferInstanceAs (Decidable (_ ∧ ∀ one ∈ shift.pool.workers[worker]?, one.pc = .process [] →
        worker ∈ shift.served ∨ shift.pool.isShardEmpty one.threadIndex = true))
  | .dequeue _ _ _ | .complete _ _ | .timeout _ | .spurious _ | .queue _ | .queueFront _ | .setWq
  | .start | .stop _ | .join _ | .pause _ | .unpause _ | .drain _ | .drainLock _ =>
      inferInstanceAs (Decidable (_ ∧ True))

theorem shifts_pool {shift : Shift} {permitted : Action → Prop}
    (reached : Runs.Reachable shifts (fun _ action => permitted action) shift) :
    Runs.Reachable system (fun _ action => permitted action) shift.pool := by
  induction reached with
  | start initial => exact .start initial.1
  | next action before allowed taken ih =>
      obtain ⟨next, stepped, rfl⟩ := Option.map_eq_some_iff.mp taken
      exact .next action ih allowed stepped

/-! ### The way to the drained section -/

/-- The steps of a worker until it waits in the drained section, once `drain_threads` is
set and no pause is under way; inside `_process` it still has to go round if it has taken
an item or if there is none. -/
def WorkerPc.way (served empty : Bool) : WorkerPc → Nat
  | .drainWaiting | .pauseWaiting | .finished => 0
  | .drainWoken | .drainLock => 1
  | .drainTest => 2
  | .pauseTest | .pauseLock | .pauseWoken => 3
  | .top => 4
  | .starting => 5
  | .process held => held.length + if served || empty then 5 else 0

def way (shards : List (List Nat)) (served : List Nat) (worker : Worker) : Nat :=
  worker.pc.way (worker.threadIndex ∈ served) ((shards[worker.threadIndex]?).all List.isEmpty)

/-- An item pays for itself and for two rounds. -/
def Shift.stepsLeft (shift : Shift) : Nat :=
  12 * total List.length shift.pool.shards +
    total (way shift.pool.shards shift.served) shift.pool.workers

/-- A pool that is being drained, and neither paused nor stopped. -/
structure Draining (state : State) : Prop where
  live : state.aborted = false
  set : state.wq = true
  unpaused : state.pauseThreads = false
  draining : state.drainThreads = true

theorem Crewed.threadIndex_eq {numThreads worker : Nat} {threads : List Nat} {workers : List Worker}
    {clients : List Client} {one : Worker} (crewed : Crewed numThreads threads workers clients)
    (found : workers[worker]? = some one) : one.threadIndex = worker := by
  rcases crewed.started with ⟨_, rfl⟩ | ⟨_, indexed⟩
  · cases found
  · have atPlace : (workers.map Worker.threadIndex)[worker]? = some one.threadIndex := by
      rw [List.getElem?_map, found]
      rfl
    rw [indexed] at atPlace
    obtain ⟨inside, same⟩ := List.getElem?_eq_some_iff.mp atPlace
    rw [List.getElem_range] at same
    exact same.symm

section Ways

variable {state next : State} {worker index : Nat} {pc : WorkerPc} {served : Bool}

theorem work_way (draining : Draining state) (running : state.stopThreads = false)
    (diligent : pc = .process [] → served = true ∨ state.isShardEmpty index = true)
    (done : work state worker index pc = some next) :
    Draining next ∧ next.shards = state.shards ∧ ∃ after,
      next.workers = state.workers.set worker ⟨index, after⟩ ∧
        after.way false (state.isShardEmpty index) + 1 ≤
          pc.way served (state.isShardEmpty index) := by
  have ⟨live, set, unpaused, raised⟩ := draining
  cases pc with
  | starting =>
      rw [work, if_pos set] at done
      cases done
      exact ⟨⟨live, set, unpaused, raised⟩, rfl, .top, rfl, Nat.le_refl _⟩
  | top =>
      rw [work, running] at done
      cases done
      exact ⟨⟨live, set, unpaused, raised⟩, rfl, .pauseTest, rfl, Nat.le_refl _⟩
  | pauseTest =>
      rw [work, unpaused] at done
      cases done
      exact ⟨⟨live, set, unpaused, raised⟩, rfl, .drainTest, rfl, Nat.le_refl _⟩
  | pauseLock =>
      rw [work, pausedLoop_down (by exact unpaused)] at done
      cases done
      exact ⟨⟨live, set, unpaused, raised⟩, rfl, .drainTest, rfl, Nat.le_refl _⟩
  | pauseWaiting => cases done
  | pauseWoken =>
      rw [work, pausedLoop_down unpaused] at done
      cases done
      exact ⟨⟨live, set, unpaused, raised⟩, rfl, .drainTest, rfl, Nat.le_refl _⟩
  | drainTest =>
      rw [work, raised] at done
      cases done
      exact ⟨⟨live, set, unpaused, raised⟩, rfl, .drainLock, rfl, Nat.le_refl _⟩
  | drainLock =>
      rw [work, drainedLoop_up (by exact raised)] at done
      split_ifs at done with empty
      · cases done
        exact ⟨⟨live, set, unpaused, raised⟩, rfl, .drainWaiting, rfl, Nat.le_refl _⟩
      · cases done
        refine ⟨⟨live, set, unpaused, raised⟩, rfl, .process [], rfl, ?_⟩
        rw [Bool.eq_false_iff.mpr empty]
        exact Nat.le_refl _
  | drainWaiting => cases done
  | drainWoken =>
      rw [work, drainedLoop_up raised] at done
      cases done
      exact ⟨⟨live, set, unpaused, raised⟩, rfl, .drainWaiting, rfl, Nat.le_refl _⟩
  | process held =>
      rw [work, Option.ite_none_right_eq_some] at done
      obtain ⟨rfl, result⟩ := done
      cases result
      refine ⟨⟨live, set, unpaused, raised⟩, rfl, .top, rfl, ?_⟩
      have rounds : (served || state.isShardEmpty index) = true :=
        Bool.or_eq_true_iff.mpr (diligent rfl)
      change 4 + 1 ≤ 0 + if served || state.isShardEmpty index then 5 else 0
      rw [rounds]
      exact Nat.le_refl _
  | finished => cases done

theorem resume_way {client : Nat} (draining : Draining state)
    (short : state.numThreads ≠ state.numDrained)
    (done : clientStep state (.resume client) = some next) :
    Draining next ∧ next.shards = state.shards ∧ next.workers = state.workers := by
  have ⟨live, set, unpaused, raised⟩ := draining
  rw [clientStep] at done
  split at done
  · cases done
    unfold pauseLoop
    split_ifs
    · exact ⟨⟨live, set, unpaused, raised⟩, rfl, rfl⟩
    · exact ⟨⟨live, set, unpaused, raised⟩, rfl, rfl⟩
  · cases done
    rw [drainLoop, if_pos short]
    exact ⟨⟨live, set, unpaused, raised⟩, rfl, rfl⟩
  · cases done

theorem way_le (pc : WorkerPc) (served empty later : Bool) :
    pc.way served later ≤ pc.way served empty + 5 := by
  cases pc with
  | process held =>
      simp only [WorkerPc.way]
      split_ifs <;> omega
  | _ => exact Nat.le_add_right _ 5

theorem way_shards {numThreads : Nat} {threads : List Nat} {workers : List Worker}
    {clients : List Client} (shards : List (List Nat)) (shard : Nat) (items taken : List Nat)
    (crewed : Crewed numThreads threads workers clients) :
    total (way (shards.set shard items) taken) workers ≤ total (way shards taken) workers + 5 := by
  have each (one : Worker) : way (shards.set shard items) taken one ≤ way shards taken one +
      if one.threadIndex == shard then 5 else 0 := by
    unfold way
    by_cases own : one.threadIndex = shard
    · rw [if_pos (beq_iff_eq.mpr own)]
      exact way_le _ _ _ _
    · rw [List.getElem?_set_ne (Ne.symm own)]
      exact Nat.le_add_right _ _
  have once : workers.countP (fun one => one.threadIndex == shard) ≤ 1 := by
    have indices : (workers.map Worker.threadIndex).count shard ≤ 1 := by
      rcases crewed.started with ⟨_, rfl⟩ | ⟨_, indexed⟩
      · exact Nat.zero_le _
      · rw [indexed]
        exact List.nodup_iff_count.mp List.nodup_range shard
    rw [List.count_eq_countP, List.countP_map] at indices
    exact indices
  calc total (way (shards.set shard items) taken) workers
      ≤ total (fun one => way shards taken one +
          if one.threadIndex == shard then 5 else 0) workers :=
        List.sum_le_sum fun one _ => each one
    _ = total (way shards taken) workers +
          total (fun one => if one.threadIndex == shard then 5 else 0) workers :=
        List.sum_map_add
    _ ≤ total (way shards taken) workers + 5 := by
        rw [Runs.total_indicator]
        omega

end Ways

theorem step_way {pool state : State} {served : List Nat} {action : Action}
    (stepped : step pool action = some state) (permitted : Diligent ⟨pool, served⟩ action)
    (draining : Draining pool) (alert : Alert pool) (expecting : Expecting pool)
    (crewed : Crewed pool.numThreads pool.threads pool.workers pool.clients) :
    Draining state ∧ state.workers.length = pool.workers.length ∧
      Shift.stepsLeft ⟨state, Shift.servedAfter ⟨pool, served⟩ action⟩ +
          (if action.moves then 1 else 0) ≤
        Shift.stepsLeft ⟨pool, served⟩ + (if action.timesOut then 1 else 0) := by
  have ⟨live, set, unpaused, raised⟩ := draining
  rw [step, live, if_neg Bool.false_ne_true] at stepped
  simp only [Shift.stepsLeft]
  cases action with
  | work worker =>
      obtain ⟨one, found, worked⟩ := Option.bind_eq_some_iff.mp stepped
      have place := crewed.threadIndex_eq found
      have diligent : one.pc = .process [] → decide (worker ∈ served) = true ∨
          pool.isShardEmpty one.threadIndex = true := by
        intro returns
        exact (permitted.2 one found returns).imp_left decide_eq_true
      obtain ⟨still, shards, after, moved, nearer⟩ :=
        work_way draining alert.running diligent worked
      have others : ∀ other party, pool.workers[other]? = some party → other ≠ worker →
          way pool.shards (served.filter (· ≠ worker)) party = way pool.shards served party := by
        intro other party atOther apart
        have elsewhere : party.threadIndex ≠ worker := by
          rw [crewed.threadIndex_eq atOther]
          exact apart
        unfold way
        simp [List.mem_filter, elsewhere]
      have shift := total_set_change ⟨one.threadIndex, after⟩ found others
      have cheaper : way pool.shards (served.filter (· ≠ worker)) ⟨one.threadIndex, after⟩ + 1 ≤
          way pool.shards served one := by
        unfold way
        rw [place]
        rw [place] at nearer
        simpa [List.mem_filter, State.isShardEmpty] using nearer
      refine ⟨still, ?_, ?_⟩
      · rw [moved, List.length_set]
      · rw [shards, moved]
        change 12 * _ + total (way pool.shards (served.filter (· ≠ worker))) _ + 1 ≤ _ + 0
        omega
  | dequeue worker shard position =>
      rw [stepLive] at stepped
      split at stepped
      · rename_i index held found
        obtain ⟨items, atShard, result⟩ := Option.bind_eq_some_iff.mp stepped
        obtain ⟨ticket, atPlace, rfl⟩ := Option.map_eq_some_iff.mp result
        have place : index = worker := crewed.threadIndex_eq found
        have others : ∀ other party, pool.workers[other]? = some party → other ≠ worker →
            way pool.shards (worker :: served) party = way pool.shards served party := by
          intro other party atOther apart
          have elsewhere : party.threadIndex ≠ worker := by
            rw [crewed.threadIndex_eq atOther]
            exact apart
          unfold way
          simp [elsewhere]
        have own := total_set_change ⟨index, .process (ticket :: held)⟩ found others
        have crewedToo : Crewed pool.numThreads pool.threads
            (pool.workers.set worker ⟨index, .process (ticket :: held)⟩) pool.clients :=
          crewed.setWorker found rfl
        have emptied := way_shards pool.shards shard (items.eraseIdx position)
          (worker :: served) crewedToo
        have fewer := total_set List.length (items.eraseIdx position) atShard
        have inside := (List.getElem?_eq_some_iff.mp atPlace).1
        rw [List.length_eraseIdx_of_lt inside] at fewer
        have before : held.length ≤ way pool.shards served ⟨index, .process held⟩ :=
          Nat.le_add_right _ _
        have after : way pool.shards (worker :: served) ⟨index, .process (ticket :: held)⟩ =
            held.length + 6 := by
          simp [way, WorkerPc.way, place]
        refine ⟨⟨live, set, unpaused, raised⟩, List.length_set, ?_⟩
        change 12 * total List.length (pool.shards.set shard (items.eraseIdx position)) +
          total (way (pool.shards.set shard (items.eraseIdx position)) (worker :: served))
            (pool.workers.set worker ⟨index, .process (ticket :: held)⟩) + 1 ≤ _ + 0
        omega
      · cases stepped
  | complete worker position =>
      rw [stepLive] at stepped
      split at stepped
      · rename_i index held found
        obtain ⟨ticket, atPlace, rfl⟩ := Option.map_eq_some_iff.mp stepped
        have shift := total_set (way pool.shards served)
          ⟨index, .process (held.eraseIdx position)⟩ found
        have inside := (List.getElem?_eq_some_iff.mp atPlace).1
        refine ⟨⟨live, set, unpaused, raised⟩, List.length_set, ?_⟩
        change 12 * total List.length pool.shards + total (way pool.shards served)
          (pool.workers.set worker ⟨index, .process (held.eraseIdx position)⟩) + 1 ≤ _ + 0
        simp only [way, WorkerPc.way, List.length_eraseIdx_of_lt inside] at shift
        omega
      · cases stepped
  | timeout worker =>
      obtain ⟨⟨index, pc⟩, found, rfl⟩ := Option.map_eq_some_iff.mp stepped
      have shift := total_set (way pool.shards served) ⟨index, pc.notify⟩ found
      have outside := expecting.unpaused unpaused _ (List.mem_of_getElem? found)
      have once : way pool.shards served ⟨index, pc.notify⟩ ≤
          way pool.shards served ⟨index, pc⟩ + 1 := by
        cases pc with
        | pauseWaiting => exact absurd rfl outside
        | _ => simp [way, WorkerPc.notify, WorkerPc.way]
      refine ⟨⟨live, set, unpaused, raised⟩, List.length_set, ?_⟩
      change 12 * total List.length pool.shards + total (way pool.shards served)
        (pool.workers.set worker ⟨index, pc.notify⟩) + 0 ≤ _ + 1
      omega
  | spurious client =>
      obtain ⟨one, found, rfl⟩ := Option.map_eq_some_iff.mp stepped
      exact ⟨⟨live, set, unpaused, raised⟩, rfl, Nat.le_refl _⟩
  | resume client =>
      obtain ⟨still, shards, workers⟩ := resume_way draining permitted.2 stepped
      rw [shards, workers]
      exact ⟨still, rfl, Nat.le_refl _⟩
  | _ => exact permitted.1.elim

/-! ### Everybody is drained -/

/-- All workers wait in the drained section; nobody waits in `drain`, and whoever was
woken there returns at the next step. -/
structure Drained (state : State) : Prop where
  parked : ∀ worker ∈ state.workers, worker.pc = .drainWaiting
  notified : ∀ client ∈ state.clients, client.pc.inDrainWait = false
  returns : ∀ client pauses since next,
    state.clients[client]? = some ⟨.drainWoken since, pauses⟩ →
    step state (.resume client) = some next →
    next.clients[client]? = some ⟨.idle, pauses⟩ ∧ next.returned = since :: state.returned

theorem exists_diligent {pool : State} {served : List Nat} {worker : Nat} {one : Worker}
    (draining : Draining pool) (alert : Alert pool) (expecting : Expecting pool)
    (crewed : Crewed pool.numThreads pool.threads pool.workers pool.clients)
    (found : pool.workers[worker]? = some one) (outside : one.pc ≠ .drainWaiting) :
    ∃ action, action.moves = true ∧ Diligent ⟨pool, served⟩ action ∧
      (step pool action).isSome = true := by
  obtain ⟨live, set, unpaused, raised⟩ := draining
  have staying := alert.staying one (List.mem_of_getElem? found)
  have atPause := expecting.unpaused unpaused one (List.mem_of_getElem? found)
  have place := crewed.threadIndex_eq found
  obtain ⟨index, pc⟩ := one
  have worked (done : (work pool worker index pc).isSome = true)
      (allowed : pc = .process [] → worker ∈ served ∨ pool.isShardEmpty index = true) :
      ∃ action, action.moves = true ∧ Diligent ⟨pool, served⟩ action ∧
        (step pool action).isSome = true := by
    refine ⟨.work worker, rfl, ⟨trivial, ?_⟩, ?_⟩
    · intro other atOther
      cases found.symm.trans atOther
      exact allowed
    · rw [step, live, if_neg Bool.false_ne_true, stepLive, found]
      exact done
  cases pc with
  | drainWaiting => exact absurd rfl outside
  | pauseWaiting => exact absurd rfl atPause
  | finished => exact absurd rfl staying
  | process held =>
      cases held with
      | cons ticket rest =>
          refine ⟨.complete worker 0, rfl, ⟨trivial, trivial⟩, ?_⟩
          rw [step, live, if_neg Bool.false_ne_true, stepLive, found]
          rfl
      | nil =>
          cases empty : pool.isShardEmpty index with
          | true => exact worked rfl fun _ => Or.inr empty
          | false =>
              -- there is an item in its shard
              unfold State.isShardEmpty at empty
              cases shard : pool.shards[index]? with
              | none =>
                  rw [shard] at empty
                  cases empty
              | some items =>
                  rw [shard] at empty
                  cases items with
                  | nil => cases empty
                  | cons ticket rest =>
                      refine ⟨.dequeue worker index 0, rfl, ⟨trivial, trivial⟩, ?_⟩
                      rw [step, live, if_neg Bool.false_ne_true, stepLive, found]
                      change (dequeue pool worker index index 0 []).isSome = true
                      rw [dequeue, shard]
                      rfl
  | starting =>
      refine worked ?_ (by simp)
      rw [work, if_pos set]
      rfl
  | drainLock =>
      refine worked ?_ (by simp)
      rw [work]
      split_ifs
      · rfl
      · rfl
  | top | pauseTest | pauseLock | pauseWoken | drainTest | drainWoken =>
      exact worked rfl (by simp)

theorem drained_of_parked {state : State} (live : state.aborted = false)
    (expecting : Expecting state)
    (counted : Counted state.numPaused state.numDrained state.workers)
    (staffed : state.workers.length = state.numThreads)
    (parked : ∀ worker ∈ state.workers, worker.pc = .drainWaiting) : Drained state := by
  have full : state.numThreads = state.numDrained := by
    have all : total Worker.drained state.workers = state.workers.length := by
      apply Runs.total_eq_length
      intro worker member
      rw [Worker.drained, parked worker member]
      rfl
    rw [counted.drained, all, staffed]
  refine ⟨parked, ?_, ?_⟩
  · intro client member
    by_contra waits
    exact expecting.draining client member (Bool.eq_true_of_not_eq_false waits) full
  · intro client pauses since next found taken
    rw [step, live, if_neg Bool.false_ne_true] at taken
    change clientStep state (.resume client) = some next at taken
    rw [clientStep, found] at taken
    cases taken
    rw [drainLoop, if_neg (not_ne_iff.mpr full)]
    exact ⟨getElem?_set_found found, rfl⟩

/-- A drain that no pause disturbs comes to its end, however the workers are scheduled, if
`_process` takes an item whenever its shard has one: up to the first return, the workers
make a bounded number of steps, and one more for each time-out; one of them can make a
step until they are all in the drained section, and then every call of `drain`
returns. -/
theorem sharded_drain_ends {shift final : Shift} {past : List Action}
    (reached : Runs.Reachable shifts (fun _ action => NoStop action) shift)
    (staffed : shift.pool.workers.length = shift.pool.numThreads)
    (draining : Draining shift.pool)
    (recorded : Runs.Recorded (shifts.after shift) Diligent past final) :
    past.countP Action.moves ≤ shift.stepsLeft + past.countP Action.timesOut ∧
      (Drained final.pool ∨
        ∃ action, action.moves = true ∧ Diligent final action ∧
          (final.step action).isSome = true) := by
  obtain ⟨⟨later, still, manned⟩, covered⟩ := recorded.budget
    (fun current => Runs.Reachable shifts (fun _ action => NoStop action) current ∧
      Draining current.pool ∧ current.pool.workers.length = current.pool.numThreads)
    Shift.stepsLeft
    (fun action => if action.moves then 1 else 0) (fun action => if action.timesOut then 1 else 0)
    shift.stepsLeft
    (by
      rintro current rfl
      exact ⟨⟨reached, draining, staffed⟩, Nat.le_refl _⟩)
    (by
      intro current action following holds permitted taken
      obtain ⟨here, active, manned⟩ := holds
      obtain ⟨state, stepped, rfl⟩ := Option.map_eq_some_iff.mp taken
      have pool := shifts_pool here
      obtain ⟨onward, length, nearer⟩ := step_way stepped permitted active
        (reachable_alert pool active.live) (reachable_expecting pool active.live)
        (reachable_crewed (fun _ _ running => running) pool)
      refine ⟨⟨here.next action permitted.1.noStop taken, onward, ?_⟩, nearer⟩
      change state.workers.length = state.numThreads
      rw [length, (step_effect stepped).numThreads, manned])
  rw [Runs.total_indicator, Runs.total_indicator, Nat.one_mul, Nat.one_mul] at covered
  refine ⟨by omega, ?_⟩
  have pool := shifts_pool later
  have expecting := reachable_expecting pool still.live
  by_cases parked : ∀ worker ∈ final.pool.workers, worker.pc = .drainWaiting
  · left
    exact drained_of_parked still.live expecting
      (reachable_counted (fun _ _ running => running) pool) manned parked
  · right
    simp only [not_forall] at parked
    obtain ⟨one, member, outside⟩ := parked
    obtain ⟨worker, found⟩ := List.mem_iff_getElem?.mp member
    obtain ⟨action, moves, allowed, enabled⟩ := exists_diligent still
      (reachable_alert pool still.live) expecting
      (reachable_crewed (fun _ _ running => running) pool) found outside
    refine ⟨action, moves, allowed, ?_⟩
    rw [Shift.step, Option.isSome_map]
    exact enabled

/-- Two items in the shard of one worker, and nothing for the other one. -/
theorem sharded_drain_ends_after_items :
    ∃ (shift final : Shift) (past : List Action),
      Runs.Reachable shifts (fun _ action => NoStop action) shift ∧
      shift.pool.shards = [[0, 1], []] ∧ shift.pool.clients = [⟨.drainWait 2, 0⟩] ∧
      Runs.Recorded (shifts.after shift) Diligent past final ∧
      past.countP Action.moves ≤ shift.stepsLeft + past.countP Action.timesOut ∧
      (∀ worker ∈ final.pool.workers, worker.pc = .drainWaiting) ∧
      final.pool.shards = [[], []] := by
  obtain ⟨shift, reached, passed⟩ := Runs.exists_of_replay (fun _ action => NoStop action)
    (show shifts.initial ⟨State.initial 2 1, []⟩ from ⟨⟨2, 1, by decide, rfl⟩, rfl⟩)
    [.setWq, .start, .queue 0, .queue 0, .drain 0, .drainLock 0]
    (fun shift : Shift => decide (shift.pool.workers.length = shift.pool.numThreads ∧
        shift.pool.shards = [[0, 1], []] ∧ shift.pool.clients = [⟨.drainWait 2, 0⟩] ∧
        shift.pool.aborted = false ∧ shift.pool.wq = true ∧ shift.pool.pauseThreads = false ∧
        shift.pool.drainThreads = true) &&
      (Runs.replay (shifts.after shift) Diligent shift
        ([0, 1].flatMap (fun worker =>
            [.work worker, .work worker, .work worker, .work worker, .work worker]) ++
          [.dequeue 0 0 0, .complete 0 0, .work 0, .work 0, .work 0, .work 0, .timeout 1, .work 0,
            .dequeue 0 0 0, .complete 0 0, .work 0, .work 0, .work 0, .work 0, .work 0,
            .work 1])).any
        fun final : Shift => decide (final.pool.shards = [[], []] ∧
          ∀ worker ∈ final.pool.workers, worker.pc = .drainWaiting))
    (by decide +kernel)
  rw [Bool.and_eq_true, decide_eq_true_eq] at passed
  obtain ⟨⟨staffed, shards, waits, live, set, unpaused, raised⟩, replays⟩ := passed
  obtain ⟨final, replayed, ends⟩ := (Option.any_eq_true _ _).mp replays
  obtain ⟨empty, parked⟩ := of_decide_eq_true ends
  have recorded := Runs.replay_recorded (.start rfl) replayed
  have bounded := (sharded_drain_ends reached staffed ⟨live, set, unpaused, raised⟩ recorded).1
  exact ⟨shift, final, _, reached, shards, waits, recorded, bounded, parked, empty⟩

end BlueThread.ShardedThreadPool
