/-
The end of the heartbeat map.

`~HeartbeatMap` asserts that no handle is left. The handles are those of the workers
that are in their loops, so the assertion is about the pools: it passes once every
pool that was started has been stopped, in whichever order they came and went.
-/

import BlueThread.Foundation.Budget
import BlueThread.Heartbeat.Watchdog
import BlueThread.ShardedThreadPool.Lifecycle

namespace BlueThread.Heartbeat

open ThreadPool (Stage)

variable {α : Type}

/-- The assertion of `~HeartbeatMap`. -/
def HeartbeatMap.destroyable {ι : Type} (map : HeartbeatMap ι) : Bool := map.workers.isEmpty

namespace Pool

def aborted : Pool α → Bool
  | .threadPool state => state.aborted
  | .sharded state => state.aborted

/-- The threads that were started and not joined yet. -/
def threads : Pool α → List Nat
  | .threadPool state => state.threads
  | .sharded state => state.threads

def numThreads : Pool α → Nat
  | .threadPool state => state.numThreads
  | .sharded state => state.numThreads

/-- How many workers are in their loops. -/
def inLoop (pool : Pool α) : Nat := pool.crew.countP fun entry => entry.1 = .registered

/-- `start` is not called while a `stop` is under way. -/
def Controlled : Pool α → PoolAction α → Prop
  | .threadPool state, .threadPool action => ThreadPool.OneController state action
  | _, _ => True

end Pool

instance (pool : Pool α) (action : PoolAction α) : Decidable (pool.Controlled action) :=
  match pool, action with
  | .threadPool state, .threadPool action =>
      inferInstanceAs (Decidable (ThreadPool.OneController state action))
  | .threadPool _, .sharded _ | .sharded _, _ => inferInstanceAs (Decidable True)

def Supervised (process : Process α) : ProcessAction α → Prop
  | .pool index action _ => ∀ pool ∈ process.pools[index]?, pool.Controlled action
  | _ => True

instance (process : Process α) (action : ProcessAction α) :
    Decidable (Supervised process action) :=
  match action with
  | .pool index action _ =>
      inferInstanceAs (Decidable (∀ pool ∈ process.pools[index]?, pool.Controlled action))
  | .resetTimeout _ _ _ _ | .clearTimeout _ _ | .isHealthy _ => inferInstanceAs (Decidable True)

/-! ### Each pool runs by itself -/

def Pool.Reached : Pool α → Prop
  | .threadPool state => Runs.Reachable (ThreadPool.system α) ThreadPool.OneController state
  | .sharded state => Runs.Reachable ShardedThreadPool.system (fun _ _ => True) state

theorem Pool.Fresh.reached {pool : Pool α} (fresh : pool.Fresh) : pool.Reached := by
  cases pool with
  | threadPool state => exact .start fresh
  | sharded state => exact .start fresh

theorem Pool.Reached.step {pool after : Pool α} {action : PoolAction α} (reached : pool.Reached)
    (controlled : pool.Controlled action) (taken : pool.step action = some after) :
    after.Reached := by
  cases pool with
  | threadPool state =>
      cases action with
      | threadPool action =>
          obtain ⟨next, stepped, rfl⟩ := Option.map_eq_some_iff.mp taken
          exact .next action reached controlled stepped
      | sharded action => cases taken
  | sharded state =>
      cases action with
      | threadPool action => cases taken
      | sharded action =>
          obtain ⟨next, stepped, rfl⟩ := Option.map_eq_some_iff.mp taken
          exact .next action reached trivial stepped

theorem call_frame {process next : Process α} {call : Call (Nat × Nat)}
    (done : process.call call = some next) :
    ∃ map, perform process.map call = some (.ok map) ∧ next = { process with map := map } := by
  unfold Process.call at done
  split at done
  · rename_i map performed
    cases done
    exact ⟨map, performed, rfl⟩
  · cases done

theorem reachable_pools {process : Process α}
    (reached : Runs.Reachable (processes α) Supervised process) :
    ∀ pool ∈ process.pools, pool.Reached := by
  apply reached.invariant
  · intro current initial pool member
    exact (initial.1 pool member).reached
  · intro current action following _ kept permitted taken
    cases action with
    | pool index action fresh =>
        obtain ⟨before, found, result⟩ := Option.bind_eq_some_iff.mp taken
        obtain ⟨after, stepped, rfl⟩ := Option.map_eq_some_iff.mp result
        intro pool member
        rcases List.mem_or_eq_of_mem_set member with old | rfl
        · exact kept pool old
        · exact (kept before (List.mem_of_getElem? found)).step (permitted before found) stepped
    | resetTimeout address now grace suicideGrace =>
        obtain ⟨map, _, rfl⟩ := call_frame taken
        exact kept
    | clearTimeout address now =>
        obtain ⟨map, _, rfl⟩ := call_frame taken
        exact kept
    | isHealthy now =>
        obtain ⟨map, _, rfl⟩ := call_frame taken
        exact kept

/-! ### As many handles as workers in their loops -/

section Counting

variable {process : Process α} {pool after : Pool α} {place : Nat} {actor : Option Nat}

theorem countP_set {crew : List (Stage × Nat)} {worker : Nat} {old : Stage × Nat}
    (new : Stage × Nat) (found : crew[worker]? = some old) :
    (crew.set worker new).countP (fun entry => entry.1 = .registered) +
        (if old.1 = .registered then 1 else 0) =
      crew.countP (fun entry => entry.1 = .registered) +
        (if new.1 = .registered then 1 else 0) := by
  have sums := Population.total_set
    (fun entry : Stage × Nat => if decide (entry.1 = .registered) then 1 else 0) new found
  rw [Runs.total_indicator, Runs.total_indicator, Nat.one_mul, Nat.one_mul] at sums
  simpa only [decide_eq_true_eq] using sums

theorem handle_of_live (roster : Roster process.map.owners process.Live process.Passes)
    {address : Nat × Nat} (live : process.Live address) :
    ∃ handle ∈ process.map.workers, handle.address = address := by
  have listed := (roster.listed address).mpr live
  unfold HeartbeatMap.owners at listed
  rw [List.map_map] at listed
  exact List.mem_map.mp listed

theorem register_count (roster : Roster process.map.owners process.Live process.Passes)
    (found : process.pools[place]? = some pool)
    (crewStep : CrewStep pool.crew actor after.crew) :
    (process.register place pool after actor).workers.length + pool.inLoop =
      process.map.workers.length + after.inLoop := by
  unfold Pool.inLoop
  generalize same : after.crew = crew at crewStep ⊢
  cases crewStep with
  | hire new =>
      have quiet : process.register place pool after actor = process.map := by
        apply register_same
        intro worker below
        rw [same, List.getElem?_append_left below]
      have none : (new.map fun index => (Stage.created, index)).countP
          (fun entry => entry.1 = .registered) = 0 := by
        rw [List.countP_map, List.countP_eq_zero]
        simp
      rw [quiet, List.countP_append, none, Nat.add_zero]
  | @enter worker index acts atWorker =>
      have added : (process.register place pool after actor).workers.length =
          process.map.workers.length + 1 := by
        subst acts
        unfold Process.register
        simp only [atWorker, same, Population.getElem?_set_found atWorker]
        rfl
      have counted := countP_set (Stage.registered, index) atWorker
      simp only [reduceCtorEq, if_false, if_true] at counted
      omega
  | @leave worker index acts atWorker =>
      have live : process.Live (place, worker) := by
        refine ⟨index, ?_⟩
        rw [member?_here found]
        exact atWorker
      obtain ⟨handle, member, atAddress⟩ := handle_of_live roster live
      have removed : (process.register place pool after actor).workers.length =
          process.map.workers.length - 1 := by
        subst acts
        unfold Process.register
        simp only [atWorker, same, Population.getElem?_set_found atWorker]
        exact List.length_eraseP_of_mem member (by simpa using atAddress)
      have nonempty := List.length_pos_of_mem member
      have counted := countP_set (Stage.gone, index) atWorker
      simp only [reduceCtorEq, if_false, if_true] at counted
      omega

end Counting

structure Tallied (process : Process α) : Prop where
  roster : Roster process.map.owners process.Live process.Passes
  counted : process.map.workers.length = Population.total Pool.inLoop process.pools

theorem Tallied.call {process next : Process α} {call : Call (Nat × Nat)}
    (tallied : Tallied process) (done : process.call call = some next) (plain : call.Plain) :
    Tallied next := by
  obtain ⟨map, performed, rfl⟩ := call_frame done
  have owners := perform_owners plain tallied.roster.distinct performed
  have length : map.workers.length = process.map.workers.length := by
    have lengths := congrArg List.length owners
    unfold HeartbeatMap.owners at lengths
    rwa [List.length_map, List.length_map] at lengths
  refine ⟨?_, length.trans tallied.counted⟩
  change Roster map.owners process.Live process.Passes
  rw [owners]
  exact tallied.roster

theorem reachable_tallied {discipline : Process α → ProcessAction α → Prop} {process : Process α}
    (reached : Runs.Reachable (processes α) discipline process) : Tallied process := by
  apply reached.invariant
  · intro current initial
    refine ⟨(Attended.initial initial).roster, ?_⟩
    have nobody : ∀ pool ∈ current.pools, pool.inLoop = 0 := by
      intro pool member
      unfold Pool.inLoop
      rw [(initial.1 pool member).crew]
      rfl
    rw [Population.total_eq_zero _ nobody, initial.2]
    rfl
  · intro current action following _ tallied _ taken
    cases action with
    | pool place action fresh =>
        obtain ⟨pool, found, result⟩ := Option.bind_eq_some_iff.mp taken
        obtain ⟨after, stepped, rfl⟩ := Option.map_eq_some_iff.mp result
        refine ⟨tallied.roster.poolStep found stepped, ?_⟩
        have moved := register_count tallied.roster found (step_crew stepped).1
        have sums := Population.total_set Pool.inLoop after found
        have counted := tallied.counted
        change (current.register place pool after action.actor).workers.length =
          Population.total Pool.inLoop (current.pools.set place after)
        omega
    | resetTimeout address now grace suicideGrace => exact tallied.call taken trivial
    | clearTimeout address now => exact tallied.call taken trivial
    | isHealthy now => exact tallied.call taken trivial

/-! ### Threads -/

theorem Pool.Reached.listed {pool : Pool α} (reached : pool.Reached)
    (alive : pool.aborted = false) {worker : Nat} {stage : Stage} {index : Nat}
    (found : pool.crew[worker]? = some (stage, index)) (inside : stage = .registered) :
    worker ∈ pool.threads := by
  subst inside
  cases pool with
  | threadPool state =>
      have staffed := ThreadPool.reachable_staffed (fun _ _ controlled => controlled) reached
      refine staffed.listed worker .registered ?_ (by decide)
      change (state.workers.map fun pc => (pc.stage, 0))[worker]? = _ at found
      rw [List.getElem?_map, Option.map_eq_some_iff] at found
      obtain ⟨pc, atWorker, same⟩ := found
      rw [ThreadPool.State.stages, List.getElem?_map, atWorker, Option.map_some,
        (Prod.mk.inj same).1]
  | sharded state =>
      have manned := ShardedThreadPool.reachable_manned reached alive
      change (state.workers.map fun one => (shardedStage one.pc, one.threadIndex))[worker]? = _
        at found
      rw [List.getElem?_map, Option.map_eq_some_iff] at found
      obtain ⟨one, atWorker, same⟩ := found
      refine manned.listed worker one atWorker ?_
      intro finished
      rw [finished] at same
      cases same

theorem Pool.Reached.within {pool : Pool α} (reached : pool.Reached)
    (alive : pool.aborted = false) : pool.threads.length ≤ pool.numThreads := by
  cases pool with
  | threadPool state =>
      exact (ThreadPool.reachable_staffed (fun _ _ controlled => controlled) reached).within
  | sharded state =>
      rcases (ShardedThreadPool.reachable_manned reached alive).full with none | full
      · change state.threads.length ≤ _
        rw [none]
        exact Nat.zero_le _
      · exact Nat.le_of_eq full

theorem Pool.Reached.inLoop_le {pool : Pool α} (reached : pool.Reached)
    (alive : pool.aborted = false) : pool.inLoop ≤ pool.threads.length := by
  apply Population.countP_le_places
  intro worker entry found inside
  exact reached.listed alive found (of_decide_eq_true inside)

theorem isHealthy_total {ι : Type} {map after : HeartbeatMap ι} {now : Int64} {healthy : Bool}
    (done : map.isHealthy now = .ok (after, healthy)) :
    after.totalWorkers = map.workers.length := by
  have spec := checkAll_spec now map.workers true 0 0
  unfold HeartbeatMap.isHealthy at done
  generalize checkAll now map.workers true 0 0 = outcome at spec done
  cases outcome with
  | error threadId => cases done
  | ok counts =>
      obtain ⟨result, failed, counted⟩ := counts
      cases done
      exact spec.2.2.2.trans (Nat.zero_add _)

end BlueThread.Heartbeat
