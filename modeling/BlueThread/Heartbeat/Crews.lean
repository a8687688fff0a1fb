/-
The workers of a pool as the heartbeat map sees them.

A worker is created, registers a handle when it enters its loop, and removes the
handle when it leaves. Pools of both kinds go through these stages; they differ in
what a worker passes to `add_worker` as its thread: `pthread_self()` in the plain
pool, and its `thread_index` in the sharded one.
-/

import BlueThread.ShardedThreadPool.Steps
import BlueThread.ThreadPool.Lifecycle

namespace BlueThread.Heartbeat

open ThreadPool (Stage)

variable {α : Type}

inductive Pool (α : Type)
  | threadPool (state : ThreadPool.State α)
  | sharded (state : ShardedThreadPool.State)

inductive PoolAction (α : Type)
  | threadPool (action : ThreadPool.Action α)
  | sharded (action : ShardedThreadPool.Action)

def shardedStage : ShardedThreadPool.WorkerPc → Stage
  | .starting => .created
  | .finished => .gone
  | _ => .registered

namespace Pool

def step : Pool α → PoolAction α → Option (Pool α)
  | .threadPool state, .threadPool action => (ThreadPool.step state action).map .threadPool
  | .sharded state, .sharded action => (ShardedThreadPool.step state action).map .sharded
  | _, _ => none

def Fresh : Pool α → Prop
  | .threadPool state => (ThreadPool.system α).initial state
  | .sharded state => ShardedThreadPool.system.initial state

/-- The stage of every worker so far, with its `thread_index`; the workers of the
plain pool have none. -/
def crew : Pool α → List (Stage × Nat)
  | .threadPool state => state.workers.map fun pc => (pc.stage, 0)
  | .sharded state => state.workers.map fun one => (shardedStage one.pc, one.threadIndex)

/-- The second argument of `add_worker`. -/
def threadId : Pool α → Nat → Nat → Nat
  | .threadPool _, self, _ => self
  | .sharded _, _, index => index

end Pool

/-- The worker whose own step it is. -/
def PoolAction.actor : PoolAction α → Option Nat
  | .threadPool (.work worker) => some worker
  | .sharded (.work worker) => some worker
  | _ => none

inductive CrewStep (before : List (Stage × Nat)) (actor : Option Nat) :
    List (Stage × Nat) → Prop
  | hire (new : List Nat) :
      CrewStep before actor (before ++ new.map fun index => (.created, index))
  | enter {worker index : Nat} (acts : actor = some worker)
      (found : before[worker]? = some (.created, index)) :
      CrewStep before actor (before.set worker (.registered, index))
  | leave {worker index : Nat} (acts : actor = some worker)
      (found : before[worker]? = some (.registered, index)) :
      CrewStep before actor (before.set worker (.gone, index))

theorem CrewStep.same (before : List (Stage × Nat)) (actor : Option Nat) :
    CrewStep before actor before := by
  have step : CrewStep before actor _ := .hire []
  rw [List.map_nil, List.append_nil] at step
  exact step

/-! ### The plain pool -/

section Plain

open ThreadPool

variable {state next : ThreadPool.State α}

private theorem plain_kept {worker : Nat} {pc after : ThreadPool.WorkerPc α}
    {actor : Option Nat} (found : state.workers[worker]? = some pc) (same : after.stage = pc.stage) :
    CrewStep (Pool.threadPool state).crew actor
      ((state.workers.set worker after).map fun pc => (pc.stage, 0)) := by
  have kept : (state.workers.set worker after).map (fun pc => (pc.stage, 0)) =
      (Pool.threadPool state).crew := by
    rw [List.map_set, same]
    apply Population.set_same
    rw [List.getElem?_map, found]
    rfl
  rw [kept]
  exact .same _ _

theorem work_crew {worker : Nat} {pc : ThreadPool.WorkerPc α}
    (found : state.workers[worker]? = some pc) (done : work state worker pc = some next) :
    CrewStep (Pool.threadPool state).crew (some worker) (Pool.threadPool next).crew := by
  have atCrew : (Pool.threadPool state).crew[worker]? = some (pc.stage, 0) := by
    change (state.workers.map _)[worker]? = _
    rw [List.getElem?_map, found]
    rfl
  have moved (after : ThreadPool.WorkerPc α) : (state.workers.set worker after).map
      (fun pc => (pc.stage, 0)) = (Pool.threadPool state).crew.set worker (after.stage, 0) :=
    List.map_set
  cases pc with
  | starting =>
      rw [work] at done
      split_ifs at done
      cases done
      change CrewStep _ _ ((state.workers.set worker .top).map _)
      rw [moved]
      exact .enter rfl atCrew
  | top =>
      rw [work, Option.some.injEq] at done
      subst done
      unfold workerTop
      split_ifs
      · change CrewStep _ _ ((state.workers.set worker .finished).map _)
        rw [moved]
        exact .leave rfl atCrew
      · exact plain_kept found rfl
      · exact plain_kept found rfl
      · split
        · exact plain_kept found rfl
        · exact plain_kept found rfl
  | toProcess wq =>
      obtain ⟨queue, _, result⟩ := Option.map_eq_some_iff.mp done
      split at result
      · subst result
        exact plain_kept found rfl
      · subst result
        exact .same _ _
  | inProcess wq item =>
      obtain ⟨queue, _, rfl⟩ := Option.map_eq_some_iff.mp done
      exact plain_kept found rfl
  | processed wq item =>
      obtain ⟨queue, _, rfl⟩ := Option.map_eq_some_iff.mp done
      exact plain_kept found rfl
  | relock wq =>
      rw [work] at done
      split_ifs at done
      cases done
      exact plain_kept found rfl
  | toFinish wq =>
      obtain ⟨queue, _, result⟩ := Option.map_eq_some_iff.mp done
      split at result
      · subst result
        exact plain_kept found rfl
      · subst result
        exact .same _ _
  | inFinish wq item =>
      obtain ⟨queue, _, rfl⟩ := Option.map_eq_some_iff.mp done
      unfold workerDone
      split_ifs
      · exact plain_kept found rfl
      · exact plain_kept found rfl
  | waiting => cases done
  | woken =>
      rw [work] at done
      split_ifs at done
      cases done
      exact plain_kept found rfl
  | finished => cases done

theorem threadPool_crew {action : ThreadPool.Action α} (taken : step state action = some next) :
    CrewStep (Pool.threadPool state).crew (PoolAction.threadPool action).actor
      (Pool.threadPool next).crew := by
  unfold step at taken
  split_ifs at taken
  have locked {rest : Option (ThreadPool.State α)} (called : rest = clientStep state action)
      (result : (if state.lock = none then rest else none) = some next) :
      CrewStep (Pool.threadPool state).crew (PoolAction.threadPool action).actor
        (Pool.threadPool next).crew := by
    split_ifs at result
    subst called
    obtain ⟨missing, grown⟩ := clientStep_workers (fun pc => (pc.stage, 0))
      (fun pc => congrArg (·, 0) (stage_notify pc)) result
    have hired : (Pool.threadPool next).crew = (Pool.threadPool state).crew ++
        (List.replicate missing 0).map fun index => (.created, index) := by
      rw [List.map_replicate]
      exact grown
    rw [hired]
    exact .hire _
  cases action with
  | work worker =>
      obtain ⟨pc, found, worked⟩ := Option.bind_eq_some_iff.mp taken
      exact work_crew found worked
  | timeout worker =>
      rw [stepLive] at taken
      split_ifs at taken with waiting
      cases taken
      exact plain_kept (waiting_of_isWaiting waiting) rfl
  | spurious client =>
      obtain ⟨one, _, rfl⟩ := Option.map_eq_some_iff.mp taken
      exact .same _ _
  | join client =>
      rw [stepLive] at taken
      split at taken
      · split_ifs at taken
        cases taken
        exact .same _ _
      · cases taken
  | _ => exact locked rfl taken

end Plain

/-! ### The sharded pool -/

section Sharded

open ShardedThreadPool

variable {state next : ShardedThreadPool.State}

theorem shardedStage_notify (pc : ShardedThreadPool.WorkerPc) :
    shardedStage pc.notify = shardedStage pc := by
  cases pc <;> rfl

private theorem sharded_kept {worker index : Nat} {pc after : ShardedThreadPool.WorkerPc}
    {actor : Option Nat} (found : state.workers[worker]? = some ⟨index, pc⟩)
    (same : shardedStage after = shardedStage pc) :
    CrewStep (Pool.sharded state : Pool α).crew actor
      ((state.workers.set worker ⟨index, after⟩).map fun one =>
        (shardedStage one.pc, one.threadIndex)) := by
  have kept : (state.workers.set worker ⟨index, after⟩).map
      (fun one => (shardedStage one.pc, one.threadIndex)) = (Pool.sharded state : Pool α).crew := by
    rw [List.map_set, same]
    apply Population.set_same
    rw [List.getElem?_map, found]
    rfl
  rw [kept]
  exact .same _ _

theorem sharded_work_crew {worker index : Nat} {pc : ShardedThreadPool.WorkerPc}
    (found : state.workers[worker]? = some ⟨index, pc⟩)
    (done : work state worker index pc = some next) :
    CrewStep (Pool.sharded state : Pool α).crew (some worker) (Pool.sharded next : Pool α).crew := by
  have atCrew : (Pool.sharded state : Pool α).crew[worker]? = some (shardedStage pc, index) := by
    change (state.workers.map _)[worker]? = _
    rw [List.getElem?_map, found]
    rfl
  have moved (after : ShardedThreadPool.WorkerPc) : (state.workers.set worker ⟨index, after⟩).map
      (fun one => (shardedStage one.pc, one.threadIndex)) =
        (Pool.sharded state : Pool α).crew.set worker (shardedStage after, index) :=
    List.map_set
  cases pc with
  | starting =>
      rw [work] at done
      split_ifs at done
      · cases done
        change CrewStep _ _ ((state.workers.set worker ⟨index, .top⟩).map _)
        rw [moved]
        exact .enter rfl atCrew
      · cases done
        exact .same _ _
  | top =>
      rw [work, Option.some.injEq] at done
      subst done
      split_ifs
      · change CrewStep _ _ ((state.workers.set worker ⟨index, .finished⟩).map _)
        rw [moved]
        exact .leave rfl atCrew
      · exact sharded_kept found rfl
  | pauseTest =>
      rw [work, Option.some.injEq] at done
      subst done
      split_ifs
      · exact sharded_kept found rfl
      · exact sharded_kept found rfl
  | pauseLock =>
      rw [work, Option.some.injEq] at done
      subst done
      unfold pausedLoop
      split_ifs
      · exact sharded_kept found rfl
      · exact sharded_kept found rfl
  | pauseWaiting => cases done
  | pauseWoken =>
      rw [work, Option.some.injEq] at done
      subst done
      unfold pausedLoop
      split_ifs
      · exact sharded_kept found rfl
      · exact sharded_kept found rfl
  | drainTest =>
      rw [work, Option.some.injEq] at done
      subst done
      split_ifs
      · exact sharded_kept found rfl
      · exact sharded_kept found rfl
  | drainLock =>
      rw [work] at done
      unfold drainedLoop at done
      split_ifs at done
      · cases done
        exact sharded_kept found rfl
      · cases done
        exact sharded_kept found rfl
      · cases done
        exact sharded_kept found rfl
  | drainWaiting => cases done
  | drainWoken =>
      rw [work, Option.some.injEq] at done
      subst done
      unfold drainedLoop
      split_ifs
      · exact sharded_kept found rfl
      · exact sharded_kept found rfl
  | process held =>
      rw [work] at done
      split_ifs at done
      cases done
      exact sharded_kept found rfl
  | finished => cases done

theorem sharded_crew {action : ShardedThreadPool.Action} (taken : step state action = some next) :
    CrewStep (Pool.sharded state : Pool α).crew (PoolAction.sharded action : PoolAction α).actor
      (Pool.sharded next : Pool α).crew := by
  unfold step at taken
  split_ifs at taken
  have called (result : clientStep state action = some next) :
      CrewStep (Pool.sharded state : Pool α).crew (PoolAction.sharded action : PoolAction α).actor
        (Pool.sharded next : Pool α).crew := by
    obtain ⟨missing, grown⟩ := clientStep_workers
      (fun one => (shardedStage one.pc, one.threadIndex))
      (fun one => congrArg (·, one.threadIndex) (shardedStage_notify one.pc)) result
    have hired : (Pool.sharded next : Pool α).crew = (Pool.sharded state : Pool α).crew ++
        (List.range missing).map fun index => (.created, index) := grown
    rw [hired]
    exact .hire _
  cases action with
  | work worker =>
      obtain ⟨⟨index, pc⟩, found, worked⟩ := Option.bind_eq_some_iff.mp taken
      exact sharded_work_crew found worked
  | dequeue worker shard place =>
      rw [stepLive] at taken
      split at taken
      · rename_i index held found
        obtain ⟨items, _, result⟩ := Option.bind_eq_some_iff.mp taken
        obtain ⟨ticket, _, rfl⟩ := Option.map_eq_some_iff.mp result
        exact sharded_kept found rfl
      · cases taken
  | complete worker place =>
      rw [stepLive] at taken
      split at taken
      · rename_i index held found
        obtain ⟨ticket, _, rfl⟩ := Option.map_eq_some_iff.mp taken
        exact sharded_kept found rfl
      · cases taken
  | timeout worker =>
      obtain ⟨⟨index, pc⟩, found, rfl⟩ := Option.map_eq_some_iff.mp taken
      exact sharded_kept found (shardedStage_notify pc)
  | _ => exact called taken

end Sharded

theorem step_crew {pool after : Pool α} {action : PoolAction α}
    (taken : pool.step action = some after) :
    CrewStep pool.crew action.actor after.crew ∧ after.threadId = pool.threadId := by
  cases pool with
  | threadPool state =>
      cases action with
      | threadPool action =>
          obtain ⟨next, stepped, rfl⟩ := Option.map_eq_some_iff.mp taken
          exact ⟨threadPool_crew stepped, rfl⟩
      | sharded action => cases taken
  | sharded state =>
      cases action with
      | threadPool action => cases taken
      | sharded action =>
          obtain ⟨next, stepped, rfl⟩ := Option.map_eq_some_iff.mp taken
          exact ⟨sharded_crew stepped, rfl⟩

end BlueThread.Heartbeat
