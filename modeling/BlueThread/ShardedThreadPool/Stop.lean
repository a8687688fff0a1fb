/-
The way of a worker out of its loop when the sharded pool is stopped.

`stop_threads` is read only at the top of the loop. A worker that is in a waiting
section, or on its way into one, has to get past it first, and `stop` does not
touch the flags of the sections.
-/

import BlueThread.ShardedThreadPool.Pause

namespace BlueThread.ShardedThreadPool

open Population

/-- The steps of one worker, the items it handles in `_process` included. -/
def OwnStep (worker : Nat) : Action → Prop
  | .work one => one = worker
  | .timeout one => one = worker
  | .dequeue one _ _ => one = worker
  | .complete one _ => one = worker
  | _ => False

/-- The worker can leave its loop by steps of its own. -/
def CanExit (state : State) (worker : Nat) : Prop :=
  ∃ (later : State) (index : Nat),
    Runs.Reachable (system.after state) (fun _ action => OwnStep worker action) later ∧
      later.workers[worker]? = some ⟨index, .finished⟩

/-- Nothing that the worker still has to pass holds it, given the two flags and
whether its shard is empty. -/
def WorkerPc.passable (pauseThreads drainThreads empty : Bool) : WorkerPc → Bool
  | .pauseTest | .pauseLock | .pauseWaiting | .pauseWoken =>
      !pauseThreads && (!drainThreads || !empty)
  | .drainTest | .drainLock => !drainThreads || !empty
  | .drainWaiting | .drainWoken => !drainThreads
  | .starting | .top | .process _ | .finished => true

def Worker.passable (state : State) (worker : Worker) : Bool :=
  worker.pc.passable state.pauseThreads state.drainThreads (state.isShardEmpty worker.threadIndex)

structure Leaving (state : State) (worker index : Nat) (pc : WorkerPc)
    (pauseThreads drainThreads empty : Bool) : Prop where
  found : state.workers[worker]? = some ⟨index, pc⟩
  stopped : state.stopThreads = true
  set : state.wq = true
  live : state.aborted = false
  pause : state.pauseThreads = pauseThreads
  drain : state.drainThreads = drainThreads
  shard : state.isShardEmpty index = empty

section Paths

variable {state next : State} {worker index : Nat} {pc new : WorkerPc}
variable {pauseThreads drainThreads empty : Bool}

theorem pausedLoop_down (down : state.pauseThreads = false) :
    pausedLoop state worker index =
      { state.setWorker worker index .drainTest with numPaused := decrement state.numPaused } :=
  if_neg (Bool.eq_false_iff.mp down)

theorem drainedLoop_down (down : state.drainThreads = false) :
    drainedLoop state worker index =
      { state.setWorker worker index (.process []) with
        numDrained := decrement state.numDrained } :=
  if_neg (Bool.eq_false_iff.mp down)

theorem CanExit.before (action : Action) (own : OwnStep worker action)
    (taken : step state action = some next) (after : CanExit next worker) :
    CanExit state worker := by
  obtain ⟨later, index, reached, finished⟩ := after
  have first : Runs.Reachable (system.after state) (fun _ action => OwnStep worker action) next :=
    .next action (.start rfl) own taken
  exact ⟨later, index, first.append reached, finished⟩

theorem Leaving.work (leaving : Leaving state worker index pc pauseThreads drainThreads empty)
    (worked : work state worker index pc = some next) (after : CanExit next worker) :
    CanExit state worker := by
  refine CanExit.before (.work worker) rfl ?_ after
  rw [step, leaving.live, if_neg Bool.false_ne_true, stepLive, leaving.found]
  exact worked

theorem Leaving.follow (leaving : Leaving state worker index pc pauseThreads drainThreads empty)
    (moved : next.workers = state.workers.set worker ⟨index, new⟩)
    (same : next.stopThreads = state.stopThreads ∧ next.wq = state.wq ∧
      next.aborted = state.aborted ∧ next.pauseThreads = state.pauseThreads ∧
      next.drainThreads = state.drainThreads ∧ next.shards = state.shards) :
    Leaving next worker index new pauseThreads drainThreads empty := by
  obtain ⟨stop, wq, aborted, pause, drain, shards⟩ := same
  exact
    { found := by
        rw [moved]
        exact getElem?_set_found leaving.found
      stopped := stop.trans leaving.stopped
      set := wq.trans leaving.set
      live := aborted.trans leaving.live
      pause := pause.trans leaving.pause
      drain := drain.trans leaving.drain
      shard := by
        unfold State.isShardEmpty
        rw [shards]
        exact leaving.shard }

theorem Leaving.setWorker
    (leaving : Leaving state worker index pc pauseThreads drainThreads empty) (new : WorkerPc) :
    Leaving (state.setWorker worker index new) worker index new pauseThreads drainThreads empty :=
  leaving.follow rfl ⟨rfl, rfl, rfl, rfl, rfl, rfl⟩

theorem exit_finished (found : state.workers[worker]? = some ⟨index, .finished⟩) :
    CanExit state worker :=
  ⟨state, index, .start rfl, found⟩

theorem exit_top (leaving : Leaving state worker index .top pauseThreads drainThreads empty) :
    CanExit state worker := by
  refine leaving.work ?_ (exit_finished (leaving.setWorker .finished).found)
  rw [ShardedThreadPool.work, leaving.stopped]
  rfl

theorem exit_starting
    (leaving : Leaving state worker index .starting pauseThreads drainThreads empty) :
    CanExit state worker := by
  refine leaving.work ?_ (exit_top (leaving.setWorker .top))
  rw [ShardedThreadPool.work, if_pos leaving.set]

theorem exit_process {held : List Nat}
    (leaving : Leaving state worker index (.process held) pauseThreads drainThreads empty) :
    CanExit state worker := by
  induction held generalizing state with
  | nil =>
      refine leaving.work ?_ (exit_top (leaving.setWorker .top))
      rfl
  | cons ticket held ih =>
      have after : Leaving
          { state.setWorker worker index (.process held) with
            processed := ticket :: state.processed }
          worker index (.process held) pauseThreads drainThreads empty :=
        leaving.follow rfl ⟨rfl, rfl, rfl, rfl, rfl, rfl⟩
      refine CanExit.before (.complete worker 0) rfl ?_ (ih after)
      rw [step, leaving.live, if_neg Bool.false_ne_true, stepLive, leaving.found]
      rfl

theorem exit_drainWoken
    (leaving : Leaving state worker index .drainWoken pauseThreads false empty) :
    CanExit state worker := by
  have after : Leaving
      { state.setWorker worker index (.process []) with numDrained := decrement state.numDrained }
      worker index (.process []) pauseThreads false empty :=
    leaving.follow rfl ⟨rfl, rfl, rfl, rfl, rfl, rfl⟩
  refine leaving.work ?_ (exit_process after)
  exact congrArg some (drainedLoop_down leaving.drain)

theorem exit_drainLock (passes : (!drainThreads || !empty) = true)
    (leaving : Leaving state worker index .drainLock pauseThreads drainThreads empty) :
    CanExit state worker := by
  cases empty with
  | false =>
      refine leaving.work ?_ (exit_process (leaving.setWorker (.process [])))
      rw [ShardedThreadPool.work, leaving.shard]
      rfl
  | true =>
      have down : drainThreads = false := by
        simpa using passes
      subst down
      have after : Leaving
          { state.notifyClients.setWorker worker index (.process []) with
            numDrained := decrement (increment state.numDrained) }
          worker index (.process []) pauseThreads false true :=
        leaving.follow rfl ⟨rfl, rfl, rfl, rfl, rfl, rfl⟩
      refine leaving.work ?_ (exit_process after)
      rw [ShardedThreadPool.work, if_pos leaving.shard]
      exact congrArg some (drainedLoop_down leaving.drain)

theorem exit_drainTest (passes : (!drainThreads || !empty) = true)
    (leaving : Leaving state worker index .drainTest pauseThreads drainThreads empty) :
    CanExit state worker := by
  cases drainThreads with
  | false =>
      refine leaving.work ?_ (exit_process (leaving.setWorker (.process [])))
      rw [ShardedThreadPool.work, leaving.drain]
      rfl
  | true =>
      refine leaving.work ?_ (exit_drainLock passes (leaving.setWorker .drainLock))
      rw [ShardedThreadPool.work, leaving.drain]
      rfl

theorem exit_pauseWoken (passes : (!drainThreads || !empty) = true)
    (leaving : Leaving state worker index .pauseWoken false drainThreads empty) :
    CanExit state worker := by
  have after : Leaving
      { state.setWorker worker index .drainTest with numPaused := decrement state.numPaused }
      worker index .drainTest false drainThreads empty :=
    leaving.follow rfl ⟨rfl, rfl, rfl, rfl, rfl, rfl⟩
  refine leaving.work ?_ (exit_drainTest passes after)
  exact congrArg some (pausedLoop_down leaving.pause)

theorem exit_pauseLock (passes : (!drainThreads || !empty) = true)
    (leaving : Leaving state worker index .pauseLock false drainThreads empty) :
    CanExit state worker := by
  have after : Leaving
      { state.notifyClients.setWorker worker index .drainTest with
        numPaused := decrement (increment state.numPaused) }
      worker index .drainTest false drainThreads empty :=
    leaving.follow rfl ⟨rfl, rfl, rfl, rfl, rfl, rfl⟩
  refine leaving.work ?_ (exit_drainTest passes after)
  exact congrArg some (pausedLoop_down leaving.pause)

theorem exit_pauseTest (passes : (!drainThreads || !empty) = true)
    (leaving : Leaving state worker index .pauseTest false drainThreads empty) :
    CanExit state worker := by
  refine leaving.work ?_ (exit_drainTest passes (leaving.setWorker .drainTest))
  rw [ShardedThreadPool.work, leaving.pause]
  rfl

theorem Leaving.timeout
    (leaving : Leaving state worker index pc pauseThreads drainThreads empty)
    (after : CanExit (state.setWorker worker index pc.notify) worker) : CanExit state worker := by
  refine CanExit.before (.timeout worker) rfl ?_ after
  rw [step, leaving.live, if_neg Bool.false_ne_true, stepLive, leaving.found]
  rfl

theorem Leaving.canExit
    (leaving : Leaving state worker index pc pauseThreads drainThreads empty)
    (passes : pc.passable pauseThreads drainThreads empty = true) : CanExit state worker := by
  have unpaused (first : (!pauseThreads && (!drainThreads || !empty)) = true) :
      pauseThreads = false ∧ (!drainThreads || !empty) = true := by
    simpa using first
  cases pc with
  | starting => exact exit_starting leaving
  | top => exact exit_top leaving
  | pauseTest =>
      obtain ⟨rfl, onward⟩ := unpaused passes
      exact exit_pauseTest onward leaving
  | pauseLock =>
      obtain ⟨rfl, onward⟩ := unpaused passes
      exact exit_pauseLock onward leaving
  | pauseWaiting =>
      obtain ⟨rfl, onward⟩ := unpaused passes
      exact leaving.timeout (exit_pauseWoken onward (leaving.setWorker .pauseWoken))
  | pauseWoken =>
      obtain ⟨rfl, onward⟩ := unpaused passes
      exact exit_pauseWoken onward leaving
  | drainTest => exact exit_drainTest passes leaving
  | drainLock => exact exit_drainLock passes leaving
  | drainWaiting =>
      have down : drainThreads = false := by simpa [WorkerPc.passable] using passes
      subst down
      exact leaving.timeout (exit_drainWoken (leaving.setWorker .drainWoken))
  | drainWoken =>
      have down : drainThreads = false := by simpa [WorkerPc.passable] using passes
      subst down
      exact exit_drainWoken leaving
  | process held => exact exit_process leaving
  | finished => exact exit_finished leaving.found

/-! ### No way out -/

def Trapped (state : State) (worker : Nat) : Prop :=
  ∃ one, state.workers[worker]? = some one ∧ one.passable state = false

theorem Trapped.follow (new : WorkerPc) (found : state.workers[worker]? = some ⟨index, pc⟩)
    (moved : next.workers = state.workers.set worker ⟨index, new⟩)
    (same : next.pauseThreads = state.pauseThreads ∧ next.drainThreads = state.drainThreads ∧
      next.shards = state.shards)
    (held : new.passable state.pauseThreads state.drainThreads (state.isShardEmpty index) =
      false) : Trapped next worker := by
  obtain ⟨pause, drain, shards⟩ := same
  refine ⟨⟨index, new⟩, ?_, ?_⟩
  · rw [moved]
    exact getElem?_set_found found
  · unfold Worker.passable State.isShardEmpty
    rw [pause, drain, shards]
    exact held

theorem pausedLoop_up (up : state.pauseThreads = true) :
    pausedLoop state worker index = state.setWorker worker index .pauseWaiting :=
  if_pos up

theorem drainedLoop_up (up : state.drainThreads = true) :
    drainedLoop state worker index = state.setWorker worker index .drainWaiting :=
  if_pos up

theorem Trapped.pausedLoop (found : state.workers[worker]? = some ⟨index, pc⟩)
    (held : (!state.pauseThreads && (!state.drainThreads || !state.isShardEmpty index)) = false) :
    Trapped (pausedLoop state worker index) worker := by
  cases flag : state.pauseThreads with
  | true =>
      rw [pausedLoop_up flag]
      refine .follow _ found rfl ⟨rfl, rfl, rfl⟩ ?_
      rw [flag]
      rfl
  | false =>
      rw [pausedLoop_down flag]
      refine .follow .drainTest found rfl ⟨rfl, rfl, rfl⟩ ?_
      rw [flag] at held
      exact held

theorem Trapped.work (found : state.workers[worker]? = some ⟨index, pc⟩)
    (held : pc.passable state.pauseThreads state.drainThreads (state.isShardEmpty index) = false)
    (worked : work state worker index pc = some next) : Trapped next worker := by
  cases pc with
  | starting => cases held
  | top => cases held
  | pauseTest =>
      cases worked
      refine .follow _ found rfl ⟨rfl, rfl, rfl⟩ ?_
      cases flag : state.pauseThreads with
      | true => rfl
      | false =>
          rw [WorkerPc.passable, flag] at held
          exact held
  | pauseLock =>
      cases worked
      exact Trapped.pausedLoop found held
  | pauseWaiting => cases worked
  | pauseWoken =>
      cases worked
      exact Trapped.pausedLoop found held
  | drainTest =>
      cases worked
      refine .follow _ found rfl ⟨rfl, rfl, rfl⟩ ?_
      cases flag : state.drainThreads with
      | true =>
          rw [WorkerPc.passable, flag] at held
          exact held
      | false =>
          rw [WorkerPc.passable, flag] at held
          cases held
  | drainLock =>
      rw [WorkerPc.passable, Bool.or_eq_false_iff, Bool.not_eq_false', Bool.not_eq_false'] at held
      rw [ShardedThreadPool.work, if_pos held.2, Option.some.injEq] at worked
      subst worked
      have up : drainedLoop { state.notifyClients with
          numDrained := increment state.numDrained } worker index = _ := drainedLoop_up held.1
      rw [up]
      refine .follow .drainWaiting found rfl ⟨rfl, rfl, rfl⟩ ?_
      rw [held.1]
      rfl
  | drainWaiting => cases worked
  | drainWoken =>
      cases worked
      rw [WorkerPc.passable, Bool.not_eq_false'] at held
      rw [drainedLoop_up held]
      refine .follow _ found rfl ⟨rfl, rfl, rfl⟩ ?_
      rw [held]
      rfl
  | process items => cases held
  | finished => cases held

theorem passable_notify (pc : WorkerPc) :
    pc.notify.passable pauseThreads drainThreads empty =
      pc.passable pauseThreads drainThreads empty := by
  cases pc <;> rfl

theorem Trapped.step {action : Action} (trapped : Trapped state worker)
    (own : OwnStep worker action) (taken : step state action = some next) :
    Trapped next worker := by
  obtain ⟨⟨index, pc⟩, found, held⟩ := trapped
  unfold ShardedThreadPool.step at taken
  split_ifs at taken
  cases action with
  | work one =>
      obtain rfl : one = worker := own
      rw [stepLive, found] at taken
      exact Trapped.work found held taken
  | timeout one =>
      obtain rfl : one = worker := own
      rw [stepLive, found] at taken
      cases taken
      refine .follow _ found rfl ⟨rfl, rfl, rfl⟩ ?_
      rw [passable_notify]
      exact held
  | dequeue one shard place =>
      obtain rfl : one = worker := own
      rw [stepLive, found] at taken
      cases pc with
      | process items => cases held
      | _ => cases taken
  | complete one place =>
      obtain rfl : one = worker := own
      rw [stepLive, found] at taken
      cases pc with
      | process items => cases held
      | _ => cases taken
  | _ => cases own

theorem Trapped.not_canExit (trapped : Trapped state worker) : ¬CanExit state worker := by
  rintro ⟨later, index, reached, finished⟩
  have still : Trapped later worker := by
    apply reached.invariant
    · intro current same
      rw [show current = state from same]
      exact trapped
    · intro current action following _ trapped own taken
      exact trapped.step own taken
  obtain ⟨one, found, held⟩ := still
  rw [finished, Option.some.injEq] at found
  subst found
  cases held

end Paths

theorem stop_cases {state next : State} {client : Nat}
    (taken : step state (.stop client) = some next) (live : next.aborted = false) :
    state.wq = true ∧ state.aborted = false ∧ ∃ pauses,
      next = { state.setClient client .stopJoining pauses with stopThreads := true } := by
  unfold step at taken
  split_ifs at taken with aborted
  obtain ⟨pauses, _, result⟩ := Option.bind_eq_some_iff.mp taken
  split_ifs at result with stopping set
  · cases result
    exact ⟨set, Bool.eq_false_iff.mpr aborted, pauses, rfl⟩
  · cases result
    cases live

/-- Once `stop` was called, in whatever state, every worker can leave its loop on
its own exactly if at that time none was held up by a flag before or in a waiting
section. -/
theorem stop_completes {state next : State} {client : Nat}
    (taken : step state (.stop client) = some next) (live : next.aborted = false) :
    (∀ worker < next.workers.length, CanExit next worker) ↔
      ∀ one ∈ state.workers, one.passable state = true := by
  obtain ⟨set, _, pauses, same⟩ := stop_cases taken live
  subst same
  have leaving {worker : Nat} {one : Worker} (found : state.workers[worker]? = some one) :
      Leaving { state.setClient client .stopJoining pauses with stopThreads := true } worker
        one.threadIndex one.pc state.pauseThreads state.drainThreads
        (state.isShardEmpty one.threadIndex) :=
    ⟨found, rfl, set, live, rfl, rfl, rfl⟩
  constructor
  · intro all one member
    obtain ⟨worker, found⟩ := List.mem_iff_getElem?.mp member
    by_contra held
    have trapped :
        Trapped { state.setClient client .stopJoining pauses with stopThreads := true } worker :=
      ⟨one, found, Bool.eq_false_iff.mpr held⟩
    exact trapped.not_canExit (all worker (List.getElem?_eq_some_iff.mp found).1)
  · intro passes worker inside
    have found := List.getElem?_eq_getElem (show worker < state.workers.length from inside)
    exact (leaving found).canExit (passes _ (List.mem_of_getElem? found))

/-- A pool that works, with a worker inside `_process`. -/
theorem stop_completes_while_working :
    ∃ state next : State, Runs.Reachable system (fun _ _ => True) state ∧
      step state (.stop 0) = some next ∧ state.workers = [⟨0, .process [0]⟩, ⟨1, .drainTest⟩] ∧
      ∀ worker < next.workers.length, CanExit next worker := by
  obtain ⟨state, reached, passed⟩ := Runs.exists_of_replay (fun _ _ => True)
    (show system.initial (State.initial 2 1) from ⟨2, 1, by decide, rfl⟩)
    [.setWq, .start, .queue 0, .work 0, .work 0, .work 0, .work 0, .dequeue 0 0 0, .work 1,
      .work 1, .work 1]
    (fun state : State => decide (state.workers = [⟨0, .process [0]⟩, ⟨1, .drainTest⟩] ∧
        ∀ one ∈ state.workers, one.passable state = true) &&
      (step state (.stop 0)).any fun next : State => !next.aborted)
    (by decide +kernel)
  rw [Bool.and_eq_true, decide_eq_true_eq] at passed
  obtain ⟨next, taken, live⟩ := (Option.any_eq_true _ _).mp passed.2
  exact ⟨state, next, reached, taken, passed.1.1,
    (stop_completes taken (by simpa using live)).mpr passed.1.2⟩

/-- A pool that is paused when it is stopped. -/
theorem stop_hangs_while_paused :
    ∃ state next : State, Runs.Reachable system (fun _ _ => True) state ∧
      step state (.stop 0) = some next ∧ next.aborted = false ∧
      state.workers = [⟨0, .pauseWaiting⟩] ∧ state.clients = [⟨.idle, 1⟩] ∧ ¬CanExit next 0 := by
  obtain ⟨state, reached, passed⟩ := Runs.exists_of_replay (fun _ _ => True)
    (show system.initial (State.initial 1 1) from ⟨1, 1, by decide, rfl⟩)
    [.setWq, .start, .work 0, .work 0, .pause 0, .work 0, .work 0, .resume 0]
    (fun state : State => decide (state.workers = [⟨0, .pauseWaiting⟩] ∧
        state.clients = [⟨.idle, 1⟩]) &&
      (step state (.stop 0)).any fun next : State => decide (next.aborted = false ∧
        next.workers[0]? = some (Worker.mk 0 .pauseWaiting) ∧
        (Worker.mk 0 .pauseWaiting).passable next = false))
    (by decide +kernel)
  rw [Bool.and_eq_true, decide_eq_true_eq] at passed
  obtain ⟨next, taken, ends⟩ := (Option.any_eq_true _ _).mp passed.2
  obtain ⟨live, found, held⟩ := of_decide_eq_true ends
  exact ⟨state, next, reached, taken, live, passed.1.1, passed.1.2,
    Trapped.not_canExit ⟨_, found, held⟩⟩

end BlueThread.ShardedThreadPool
