/-
What the watchdog measures.

The deadline of a worker follows the place where it stands: asleep it is timed by the
limits of its pool, and with an item by those of the queue of that item, in every
interleaving of the pools that share the map.
-/

import BlueThread.Heartbeat.Watch

namespace BlueThread.Heartbeat

open ThreadPool (Stage)

variable {α : Type}

/-! ### Places along the steps of a pool -/

inductive Stride : Place → Place → Prop
  | enter : Stride .outside .passing
  | leave : Stride .passing .outside
  | pass : Stride .passing .passing
  | sleep : Stride .passing .asleep
  | sleepAgain : Stride .asleep .asleep
  | wake : Stride .asleep .passing
  | take (wq : Option Nat) : Stride .passing (.serving wq)
  | wakeAndTake (wq : Option Nat) : Stride .asleep (.serving wq)
  | serve (wq : Option Nat) : Stride (.serving wq) (.serving wq)
  | done (wq : Option Nat) : Stride (.serving wq) .passing

inductive PlaceStep (before : List Place) (mover : Option Nat) : List Place → Prop
  | hire (count : Nat) : PlaceStep before mover (before ++ List.replicate count .outside)
  | move {worker : Nat} {was place : Place} (moves : mover = some worker)
      (found : before[worker]? = some was) (stride : Stride was place) :
      PlaceStep before mover (before.set worker place)

theorem PlaceStep.same (before : List Place) (mover : Option Nat) :
    PlaceStep before mover before := by
  have step : PlaceStep before mover _ := .hire 0
  rw [List.replicate_zero, List.append_nil] at step
  exact step

section Plain

open ThreadPool

variable {state next : ThreadPool.State α}

theorem work_places {worker : Nat} {pc : ThreadPool.WorkerPc α}
    (found : state.workers[worker]? = some pc) (done : work state worker pc = some next) :
    PlaceStep (Pool.threadPool state).places (some worker) (Pool.threadPool next).places := by
  have atPlace : (Pool.threadPool state).places[worker]? = some (plainPlace pc) := by
    change (state.workers.map plainPlace)[worker]? = _
    rw [List.getElem?_map, found]
    rfl
  have moved {after : ThreadPool.WorkerPc α} (stride : Stride (plainPlace pc) (plainPlace after)) :
      PlaceStep (Pool.threadPool state).places (some worker)
        ((state.workers.set worker after).map plainPlace) := by
    rw [List.map_set]
    exact .move rfl atPlace stride
  cases pc with
  | starting =>
      rw [work] at done
      split_ifs at done
      cases done
      exact moved .enter
  | top =>
      rw [work, Option.some.injEq] at done
      subst done
      unfold workerTop
      split_ifs
      · exact moved .leave
      · exact moved .sleep
      · exact moved .sleep
      · split
        · exact moved (.take _)
        · exact moved .sleep
  | toProcess wq =>
      obtain ⟨queue, _, result⟩ := Option.map_eq_some_iff.mp done
      split at result
      · subst result
        exact moved (.serve _)
      · subst result
        exact .same _ _
  | inProcess wq item =>
      obtain ⟨queue, _, rfl⟩ := Option.map_eq_some_iff.mp done
      exact moved (.serve _)
  | processed wq item =>
      obtain ⟨queue, _, rfl⟩ := Option.map_eq_some_iff.mp done
      exact moved (.serve _)
  | relock wq =>
      rw [work] at done
      split_ifs at done
      cases done
      exact moved (.serve _)
  | toFinish wq =>
      obtain ⟨queue, _, result⟩ := Option.map_eq_some_iff.mp done
      split at result
      · subst result
        exact moved (.serve _)
      · subst result
        exact .same _ _
  | inFinish wq item =>
      obtain ⟨queue, _, rfl⟩ := Option.map_eq_some_iff.mp done
      unfold workerDone
      split_ifs
      · exact moved (.done _)
      · exact moved (.done _)
  | waiting => cases done
  | woken =>
      rw [work] at done
      split_ifs at done
      cases done
      exact moved .wake
  | finished => cases done

theorem plainPlace_notify (pc : ThreadPool.WorkerPc α) : plainPlace pc.notify = plainPlace pc := by
  cases pc <;> rfl

theorem threadPool_places {action : ThreadPool.Action α} (taken : step state action = some next) :
    PlaceStep (Pool.threadPool state).places (PoolAction.threadPool action).mover
      (Pool.threadPool next).places := by
  unfold step at taken
  split_ifs at taken
  have locked {rest : Option (ThreadPool.State α)} (called : rest = clientStep state action)
      (result : (if state.lock = none then rest else none) = some next) :
      PlaceStep (Pool.threadPool state).places (PoolAction.threadPool action).mover
        (Pool.threadPool next).places := by
    split_ifs at result
    subst called
    obtain ⟨missing, grown⟩ := clientStep_workers plainPlace plainPlace_notify result
    have hired : (Pool.threadPool next).places = (Pool.threadPool state).places ++
        List.replicate missing .outside := grown
    rw [hired]
    exact .hire missing
  cases action with
  | work worker =>
      obtain ⟨pc, found, worked⟩ := Option.bind_eq_some_iff.mp taken
      exact work_places found worked
  | timeout worker =>
      rw [stepLive] at taken
      split_ifs at taken with waiting
      cases taken
      have kept : (state.workers.set worker .woken).map plainPlace =
          (Pool.threadPool state).places := by
        rw [List.map_set]
        apply Population.set_same
        rw [List.getElem?_map, waiting_of_isWaiting waiting]
        rfl
      change PlaceStep _ _ ((state.workers.set worker .woken).map plainPlace)
      rw [kept]
      exact .same _ _
  | spurious client =>
      obtain ⟨one, _, rfl⟩ := Option.map_eq_some_iff.mp taken
      exact .same _ _
  | join client =>
      rw [stepLive] at taken
      split at taken
      · split_ifs at taken
        cases taken
        exact .same _ _
      · cases taken
  | _ => exact locked rfl taken

end Plain

section Sharded

open ShardedThreadPool

variable {state next : ShardedThreadPool.State}

theorem shardedPlace_notify (pc : ShardedThreadPool.WorkerPc) :
    shardedPlace pc.notify = shardedPlace pc := by
  cases pc <;> rfl

private theorem sharded_moved {worker index : Nat} {pc after : ShardedThreadPool.WorkerPc}
    (found : state.workers[worker]? = some ⟨index, pc⟩)
    (stride : Stride (shardedPlace pc) (shardedPlace after)) :
    PlaceStep (Pool.sharded state : Pool α).places (some worker)
      ((state.workers.set worker ⟨index, after⟩).map fun one => shardedPlace one.pc) := by
  have atPlace : (Pool.sharded state : Pool α).places[worker]? = some (shardedPlace pc) := by
    change (state.workers.map fun one => shardedPlace one.pc)[worker]? = _
    rw [List.getElem?_map, found]
    rfl
  rw [List.map_set]
  exact .move rfl atPlace stride

theorem sharded_work_places {worker index : Nat} {pc : ShardedThreadPool.WorkerPc}
    (found : state.workers[worker]? = some ⟨index, pc⟩)
    (done : work state worker index pc = some next) :
    PlaceStep (Pool.sharded state : Pool α).places (some worker)
      (Pool.sharded next : Pool α).places := by
  cases pc with
  | starting =>
      rw [work] at done
      split_ifs at done
      · cases done
        exact sharded_moved found .enter
      · cases done
        exact .same _ _
  | top =>
      rw [work, Option.some.injEq] at done
      subst done
      split_ifs
      · exact sharded_moved found .leave
      · exact sharded_moved found .pass
  | pauseTest =>
      rw [work, Option.some.injEq] at done
      subst done
      split_ifs
      · exact sharded_moved found .pass
      · exact sharded_moved found .pass
  | pauseLock =>
      rw [work, Option.some.injEq] at done
      subst done
      unfold pausedLoop
      split_ifs
      · exact sharded_moved found .sleep
      · exact sharded_moved found .pass
  | pauseWaiting => cases done
  | pauseWoken =>
      rw [work, Option.some.injEq] at done
      subst done
      unfold pausedLoop
      split_ifs
      · exact sharded_moved found .sleepAgain
      · exact sharded_moved found .wake
  | drainTest =>
      rw [work, Option.some.injEq] at done
      subst done
      split_ifs
      · exact sharded_moved found .pass
      · exact sharded_moved found (.take none)
  | drainLock =>
      rw [work] at done
      unfold drainedLoop at done
      split_ifs at done
      · cases done
        exact sharded_moved found .sleep
      · cases done
        exact sharded_moved found (.take none)
      · cases done
        exact sharded_moved found (.take none)
  | drainWaiting => cases done
  | drainWoken =>
      rw [work, Option.some.injEq] at done
      subst done
      unfold drainedLoop
      split_ifs
      · exact sharded_moved found .sleepAgain
      · exact sharded_moved found (.wakeAndTake none)
  | process held =>
      rw [work] at done
      split_ifs at done
      cases done
      exact sharded_moved found (.done none)
  | finished => cases done

theorem sharded_places {action : ShardedThreadPool.Action} (taken : step state action = some next) :
    PlaceStep (Pool.sharded state : Pool α).places (PoolAction.sharded action : PoolAction α).mover
      (Pool.sharded next : Pool α).places := by
  unfold step at taken
  split_ifs at taken
  have called (result : clientStep state action = some next) :
      PlaceStep (Pool.sharded state : Pool α).places
        (PoolAction.sharded action : PoolAction α).mover (Pool.sharded next : Pool α).places := by
    obtain ⟨missing, grown⟩ := clientStep_workers (fun one => shardedPlace one.pc)
      (fun one => shardedPlace_notify one.pc) result
    have hired : (Pool.sharded next : Pool α).places = (Pool.sharded state : Pool α).places ++
        List.replicate missing .outside := by
      rw [← List.length_range (n := missing), ← List.map_const']
      exact grown
    rw [hired]
    exact .hire missing
  cases action with
  | work worker =>
      obtain ⟨⟨index, pc⟩, found, worked⟩ := Option.bind_eq_some_iff.mp taken
      exact sharded_work_places found worked
  | dequeue worker shard place =>
      rw [stepLive] at taken
      split at taken
      · rename_i index held found
        obtain ⟨items, _, result⟩ := Option.bind_eq_some_iff.mp taken
        obtain ⟨ticket, _, rfl⟩ := Option.map_eq_some_iff.mp result
        exact sharded_moved found (.serve none)
      · cases taken
  | complete worker place =>
      rw [stepLive] at taken
      split at taken
      · rename_i index held found
        obtain ⟨ticket, _, rfl⟩ := Option.map_eq_some_iff.mp taken
        exact sharded_moved found (.serve none)
      · cases taken
  | timeout worker =>
      obtain ⟨⟨index, pc⟩, found, rfl⟩ := Option.map_eq_some_iff.mp taken
      have kept : (state.workers.set worker ⟨index, pc.notify⟩).map
          (fun one => shardedPlace one.pc) = (Pool.sharded state : Pool α).places := by
        rw [List.map_set, shardedPlace_notify]
        apply Population.set_same
        rw [List.getElem?_map, found]
        rfl
      change PlaceStep _ _ ((state.workers.set worker ⟨index, pc.notify⟩).map
        fun one => shardedPlace one.pc)
      rw [kept]
      exact .same _ _
  | _ => exact called taken

end Sharded

theorem step_places {pool after : Pool α} {action : PoolAction α}
    (taken : pool.step action = some after) :
    PlaceStep pool.places action.mover after.places := by
  cases pool with
  | threadPool state =>
      cases action with
      | threadPool action =>
          obtain ⟨next, stepped, rfl⟩ := Option.map_eq_some_iff.mp taken
          exact threadPool_places stepped
      | sharded action => cases taken
  | sharded state =>
      cases action with
      | threadPool action => cases taken
      | sharded action =>
          obtain ⟨next, stepped, rfl⟩ := Option.map_eq_some_iff.mp taken
          exact sharded_places stepped

theorem places_crew {pool : Pool α} {worker : Nat} {place : Place}
    (found : pool.places[worker]? = some place) :
    ∃ stage index, pool.crew[worker]? = some (stage, index) ∧
      (stage = .registered ↔ place ≠ .outside) := by
  cases pool with
  | threadPool state =>
      change (state.workers.map plainPlace)[worker]? = some place at found
      rw [List.getElem?_map, Option.map_eq_some_iff] at found
      obtain ⟨pc, atPc, rfl⟩ := found
      refine ⟨pc.stage, 0, ?_, ?_⟩
      · change (state.workers.map fun pc => (pc.stage, 0))[worker]? = _
        rw [List.getElem?_map, atPc]
        rfl
      · cases pc <;> simp [plainPlace, ThreadPool.WorkerPc.stage]
  | sharded state =>
      change (state.workers.map fun one => shardedPlace one.pc)[worker]? = some place at found
      rw [List.getElem?_map, Option.map_eq_some_iff] at found
      obtain ⟨⟨index, pc⟩, atPc, rfl⟩ := found
      refine ⟨shardedStage pc, index, ?_, ?_⟩
      · change (state.workers.map fun one => (shardedStage one.pc, one.threadIndex))[worker]? = _
        rw [List.getElem?_map, atPc]
        rfl
      · cases pc <;> simp [shardedPlace, shardedStage]

section Places

variable {before after : List Place} {mover : Option Nat} {worker : Nat} {place : Place}

theorem hired_place {count : Nat}
    (found : (before ++ List.replicate count .outside)[worker]? = some place) :
    before[worker]? = some place ∨ place = .outside := by
  rcases Nat.lt_or_ge worker before.length with below | above
  · rw [List.getElem?_append_left below] at found
    exact Or.inl found
  · rw [List.getElem?_append_right above] at found
    exact Or.inr (List.eq_of_mem_replicate (List.mem_of_getElem? found))

theorem PlaceStep.elsewhere (step : PlaceStep before mover after) (apart : mover ≠ some worker)
    (found : after[worker]? = some place) : before[worker]? = some place ∨ place = .outside := by
  cases step with
  | hire count => exact hired_place found
  | @move other was next moves atOther stride =>
      have different : other ≠ worker := by
        rintro rfl
        exact apart moves
      rw [List.getElem?_set_ne different] at found
      exact Or.inl found

theorem PlaceStep.serving {wq : Option Nat} (step : PlaceStep before (some worker) after)
    (found : after[worker]? = some (.serving wq)) :
    before[worker]? = some (.serving wq) ∨
      ∃ was, before[worker]? = some was ∧ ∀ other, was ≠ .serving other := by
  cases step with
  | hire count =>
      rcases hired_place found with old | new
      · exact Or.inl old
      · cases new
  | @move other was next moves atOther stride =>
      cases moves
      rw [Population.getElem?_set_found atOther, Option.some.injEq] at found
      subst found
      cases stride with
      | take => exact Or.inr ⟨_, atOther, by simp⟩
      | wakeAndTake => exact Or.inr ⟨_, atOther, by simp⟩
      | serve => exact Or.inl atOther

end Places

/-! ### Calls of the workers -/

theorem mover_of_actor {action : PoolAction α} {worker : Nat}
    (acts : action.actor = some worker) : action.mover = some worker := by
  cases action with
  | threadPool action => exact acts
  | sharded action =>
      cases action <;> first | exact acts | cases acts

section Registration

variable {process : Process α} {index : Nat} {before after : Pool α} {actor : Option Nat}
  {past : List (Call (Nat × Nat))}

variable (process index before after) in
theorem registration_cases (worker : Nat) :
    (process.registration index before after (some worker) = [] ∧
        process.register index before after (some worker) = process.map) ∨
      (∃ number threadId, before.crew[worker]? = some (.created, number) ∧
        process.registration index before after (some worker) =
          [.addWorker (index, worker) threadId] ∧
        process.register index before after (some worker) =
          process.map.addWorker (index, worker) threadId) ∨
      (process.registration index before after (some worker) = [.removeWorker (index, worker)] ∧
        process.register index before after (some worker) =
          process.map.removeWorker (index, worker)) := by
  simp only [Process.registration, Process.register]
  -- The event and the map look at the same two stages, so one case split decides both.
  generalize before.crew[worker]? = earlier
  generalize after.crew[worker]? = later
  rcases earlier with _ | ⟨stage, number⟩
  · exact Or.inl ⟨rfl, rfl⟩
  · rcases later with _ | ⟨next, _⟩
    · cases stage <;> exact Or.inl ⟨rfl, rfl⟩
    · cases stage with
      | created =>
          cases next with
          | registered => exact Or.inr (Or.inl ⟨number, _, rfl, rfl, rfl⟩)
          | created => exact Or.inl ⟨rfl, rfl⟩
          | gone => exact Or.inl ⟨rfl, rfl⟩
      | registered =>
          cases next with
          | gone => exact Or.inr (Or.inr ⟨rfl, rfl⟩)
          | created => exact Or.inl ⟨rfl, rfl⟩
          | registered => exact Or.inl ⟨rfl, rfl⟩
      | gone => exact Or.inl ⟨rfl, rfl⟩

theorem registration_elsewhere {address : Nat × Nat}
    (apart : ∀ worker, actor = some worker → address ≠ (index, worker)) :
    lastReset address (process.registration index before after actor ++ past) =
      lastReset address past := by
  cases actor with
  | none => rfl
  | some worker =>
      have different := (apart worker rfl).symm
      rcases registration_cases process index before after worker with
        ⟨same, _⟩ | ⟨_, _, _, added, _⟩ | ⟨removed, _⟩
      · rw [same]
        rfl
      · rw [added]
        exact if_neg different
      · rw [removed]
        exact if_neg different

theorem registration_inside {worker : Nat} {was place : Place}
    (found : before.places[worker]? = some was) (inside : was ≠ .outside)
    (later : after.places[worker]? = some place) (still : place ≠ .outside) :
    process.registration index before after (some worker) = [] := by
  obtain ⟨stage, number, atCrew, registered⟩ := places_crew found
  obtain ⟨next, numberToo, atCrewToo, registeredToo⟩ := places_crew later
  cases registered.mpr inside
  cases registeredToo.mpr still
  unfold Process.registration
  simp only [atCrew, atCrewToo]

theorem register_faithful (faithful : Faithful past process.map)
    (roster : Roster process.map.owners process.Live process.Passes)
    (found : process.pools[index]? = some before) :
    Faithful (process.registration index before after actor ++ past)
      (process.register index before after actor) := by
  cases actor with
  | none => exact faithful
  | some worker =>
      rcases registration_cases process index before after worker with
        ⟨same, kept⟩ | ⟨_, _, created, added, grown⟩ | ⟨removed, shrunk⟩
      · rw [same, kept]
        exact faithful
      · rw [added, grown]
        apply faithful.addWorker
        rw [← Option.not_isSome_iff_eq_none, ← mem_addresses]
        intro listed
        have owned : (index, worker) ∈ process.map.owners.map Prod.fst := by
          unfold HeartbeatMap.owners
          rw [List.map_map]
          exact listed
        obtain ⟨_, live⟩ := (roster.listed _).mp owned
        rw [member?_here found, created] at live
        cases live
      · rw [removed, shrunk]
        exact faithful.removeWorker _

end Registration

/-- Neither `add_worker` nor `remove_worker`. -/
def Call.Plain {ι : Type} : Call ι → Prop
  | .addWorker _ _ => False
  | .removeWorker _ => False
  | _ => True

theorem perform_owners {ι : Type} [DecidableEq ι] {map after : HeartbeatMap ι} {call : Call ι}
    (plain : call.Plain) (single : (map.owners.map Prod.fst).Nodup)
    (done : perform map call = some (.ok after)) : after.owners = map.owners := by
  cases call with
  | addWorker address threadId => exact plain.elim
  | removeWorker address => exact plain.elim
  | resetTimeout address now grace suicideGrace =>
      refine update_owners single ?_ done
      intro handle result checked
      cases checked_ok checked
      exact ⟨rfl, rfl⟩
  | clearTimeout address now =>
      refine update_owners single ?_ done
      intro handle result checked
      cases checked_ok checked
      exact ⟨rfl, rfl⟩
  | isHealthy now =>
      unfold HeartbeatMap.owners
      rw [isHealthy_workers (Option.some.inj done)]

/-! ### Deadlines by place -/

def Reset.limits (reset : Reset) : Limits := ⟨reset.grace, reset.suicideGrace⟩

def Timed (graces : Graces) (owed : Prop) (reset : Option Reset) : Place → Prop
  | .outside => True
  | .passing => True
  | .asleep => ∃ one, reset = some one ∧ one.limits = graces.own
  | .serving none => True
  | .serving (some wq) => owed ∨ ∀ one ∈ reset, one.limits = graces.queue wq

structure Watchful (graces : Nat → Graces) (watched : Watched α) : Prop where
  roster : Roster watched.process.map.owners watched.process.Live watched.process.Passes
  faithful : Faithful watched.calls watched.process.map
  timed : ∀ address place, watched.process.place? address = some place →
    Timed (graces address.1) (address ∈ watched.owing) (lastReset address watched.calls) place

section Settle

variable {watched after : Watched α} {call : Option (Call (Nat × Nat))}

theorem settle_kept (roster : Roster watched.process.map.owners watched.process.Live
      watched.process.Passes)
    (faithful : Faithful watched.calls watched.process.map) (plain : ∀ one ∈ call, one.Plain)
    (fits : ∀ one ∈ after.calls, one.Fits) (done : watched.settle call = some (.ok after)) :
    ∃ map, after = { watched with
        process := { watched.process with map := map }
        calls := call.toList ++ watched.calls } ∧
      map.owners = watched.process.map.owners ∧ Faithful (call.toList ++ watched.calls) map := by
  cases call with
  | none =>
      cases done
      exact ⟨watched.process.map, rfl, rfl, faithful⟩
  | some one =>
      obtain ⟨outcome, performed, result⟩ := Option.map_eq_some_iff.mp done
      cases outcome with
      | error target => cases result
      | ok map =>
          cases result
          exact ⟨map, rfl, perform_owners (plain one rfl) roster.distinct performed,
            faithful.perform (fits one List.mem_cons_self) performed⟩

theorem Watchful.settle {graces : Nat → Graces}
    (roster : Roster watched.process.map.owners watched.process.Live watched.process.Passes)
    (faithful : Faithful watched.calls watched.process.map) (plain : ∀ one ∈ call, one.Plain)
    (timed : ∀ address place, watched.process.place? address = some place →
      Timed (graces address.1) (address ∈ watched.owing)
        (lastReset address (call.toList ++ watched.calls)) place)
    (fits : ∀ one ∈ after.calls, one.Fits) (done : watched.settle call = some (.ok after)) :
    Watchful graces after := by
  obtain ⟨map, rfl, owners, later⟩ := settle_kept roster faithful plain fits done
  refine ⟨?_, later, timed⟩
  change Roster map.owners watched.process.Live watched.process.Passes
  rw [owners]
  exact roster

theorem Watchful.callFor {graces : Nat → Graces} {call : Call (Nat × Nat)}
    {owing : List (Nat × Nat)} (watchful : Watchful graces watched) (target : Nat × Nat)
    (plain : call.Plain) (unowed : ∀ address, address ≠ target →
      (address ∈ owing ↔ address ∈ watched.owing))
    (elsewhere : ∀ address, address ≠ target →
      lastReset address (call :: watched.calls) = lastReset address watched.calls)
    (own : ∀ place, watched.process.place? target = some place →
      Timed (graces target.1) (target ∈ owing) (lastReset target (call :: watched.calls)) place)
    (fits : ∀ one ∈ after.calls, one.Fits)
    (done : { watched with owing := owing }.settle (some call) = some (.ok after)) :
    Watchful graces after := by
  refine Watchful.settle ?_ ?_ ?_ ?_ fits done
  · exact watchful.roster
  · exact watchful.faithful
  · rintro one ⟨⟩
    exact plain
  · intro address place found
    by_cases same : address = target
    · subst same
      exact own place found
    · change Timed _ (address ∈ owing) (lastReset address (call :: watched.calls)) place
      rw [elsewhere address same, unowed address same]
      exact watchful.timed address place found

end Settle

theorem armed_elsewhere {target address : Nat × Nat} (now : Int64) (limits : Limits)
    (past : List (Call (Nat × Nat))) (apart : address ≠ target) :
    lastReset address (armed target now limits :: past) = lastReset address past :=
  if_neg (Ne.symm apart)

theorem armed_own (target : Nat × Nat) (now : Int64) (limits : Limits)
    (past : List (Call (Nat × Nat))) : lastReset target (armed target now limits :: past) =
      some ⟨now, limits.grace, limits.suicideGrace⟩ :=
  if_pos rfl

theorem Watchful.arm {graces : Nat → Graces} {watched after : Watched α} {target : Nat × Nat}
    {owing : List (Nat × Nat)} {now : Int64} {limits : Limits}
    (watchful : Watchful graces watched)
    (unowed : ∀ address, address ≠ target → (address ∈ owing ↔ address ∈ watched.owing))
    (own : ∀ place, watched.process.place? target = some place →
      Timed (graces target.1) (target ∈ owing)
        (some ⟨now, limits.grace, limits.suicideGrace⟩) place)
    (fits : ∀ one ∈ after.calls, one.Fits)
    (done : { watched with owing := owing }.settle (some (armed target now limits)) =
      some (.ok after)) : Watchful graces after := by
  refine watchful.callFor target ?_ unowed ?_ ?_ fits done
  · trivial
  · intro address apart
    exact armed_elsewhere now limits watched.calls apart
  · intro place found
    rw [armed_own]
    exact own place found

theorem Watchful.disarm {graces : Nat → Graces} {watched after : Watched α}
    {target : Nat × Nat} {now : Int64} (watchful : Watchful graces watched)
    (own : ∀ place, watched.process.place? target = some place →
      Timed (graces target.1) (target ∈ watched.owing) none place)
    (fits : ∀ one ∈ after.calls, one.Fits)
    (done : watched.settle (some (.clearTimeout target now)) = some (.ok after)) :
    Watchful graces after := by
  refine watchful.callFor target ?_ (fun _ _ => Iff.rfl) ?_ ?_ fits done
  · trivial
  · intro address apart
    exact if_neg (Ne.symm apart)
  · intro place found
    rw [lastReset, if_pos rfl]
    exact own place found

theorem place_of_inProcess {process : Process α} {address : Nat × Nat} {wq : Option Nat}
    (inside : process.inProcess? address = some wq) :
    process.place? address = some (.serving wq) := by
  obtain ⟨pool, found, within⟩ := Option.bind_eq_some_iff.mp inside
  unfold Process.place?
  rw [found]
  change pool.places[address.2]? = some (.serving wq)
  cases pool with
  | threadPool state =>
      change (state.workers.map plainPlace)[address.2]? = _
      simp only [Pool.inProcess?] at within
      split at within
      · rename_i atPc
        cases within
        rw [List.getElem?_map, atPc]
        rfl
      · cases within
  | sharded state =>
      change (state.workers.map fun one => shardedPlace one.pc)[address.2]? = _
      simp only [Pool.inProcess?] at within
      split at within
      · rename_i atPc
        cases within
        rw [List.getElem?_map, atPc]
        rfl
      · cases within

/-! ### Steps of the watched process -/

section PoolStep

variable {graces : Nat → Graces} {watched : Watched α} {index : Nat} {before after : Pool α}
  {action : PoolAction α} {fresh : Nat → Nat} {now : Int64}

theorem afterPool_place (found : watched.process.pools[index]? = some before)
    {worker : Nat} : (watched.afterPool index before after action fresh).process.place?
      (index, worker) = after.places[worker]? := by
  unfold Process.place? Watched.afterPool
  rw [Population.getElem?_set_found found]
  rfl

theorem afterPool_place_elsewhere {address : Nat × Nat} (apart : address.1 ≠ index) :
    (watched.afterPool index before after action fresh).process.place? address =
      watched.process.place? address := by
  unfold Process.place? Watched.afterPool
  rw [List.getElem?_set_ne (Ne.symm apart)]

theorem owingAfter_elsewhere {address : Nat × Nat}
    (apart : ∀ worker, action.mover = some worker → address ≠ (index, worker)) :
    address ∈ watched.owingAfter index before after action.mover ↔ address ∈ watched.owing := by
  cases moves : action.mover with
  | none => rfl
  | some worker =>
      simp only [Watched.owingAfter]
      split
      · rfl
      · rw [List.mem_cons]
        exact or_iff_right (apart worker moves)
      · rfl

theorem bedtime_elsewhere {address : Nat × Nat} {past : List (Call (Nat × Nat))}
    (apart : ∀ worker, action.mover = some worker → address ≠ (index, worker)) :
    lastReset address
      ((Watched.bedtime (graces index) index after now action.mover).toList ++ past) =
        lastReset address past := by
  cases moves : action.mover with
  | none => rfl
  | some worker =>
      simp only [Watched.bedtime]
      split
      · exact armed_elsewhere now _ past (apart worker moves)
      · rfl

theorem timed_mover (watchful : Watchful graces watched) {worker : Nat} {place : Place}
    (found : watched.process.pools[index]? = some before) (taken : before.step action = some after)
    (idle : watched.idle index action = true) (moves : action.mover = some worker)
    (atPlace : after.places[worker]? = some place) :
    Timed (graces index) ((index, worker) ∈ watched.owingAfter index before after action.mover)
      (lastReset (index, worker)
        ((Watched.bedtime (graces index) index after now action.mover).toList ++
          (watched.process.registration index before after action.actor ++ watched.calls)))
      place := by
  have step := step_places taken
  rw [moves] at step ⊢
  cases place with
  | outside => trivial
  | passing => trivial
  | asleep =>
      simp only [Watched.bedtime, atPlace, if_true]
      exact ⟨_, armed_own _ now _ _, rfl⟩
  | serving wq =>
      cases wq with
      | none => trivial
      | some wq =>
          have awake : Watched.bedtime (graces index) index after now (some worker) = none := by
            simp only [Watched.bedtime, atPlace]
            exact if_neg (by simp)
          rw [awake]
          rcases step.serving atPlace with kept | ⟨was, atWas, idling⟩
          · -- the item that it had before
            right
            have quiet : lastReset (index, worker) (watched.process.registration index before
                after action.actor ++ watched.calls) =
                  lastReset (index, worker) watched.calls := by
              cases acts : action.actor with
              | none => rfl
              | some actor =>
                  cases (mover_of_actor acts).symm.trans moves
                  rw [registration_inside kept (by simp) atPlace (by simp)]
                  rfl
            rw [Option.toList_none, List.nil_append, quiet]
            have unowed : (index, worker) ∉ watched.owing := by
              unfold Watched.idle at idle
              rw [moves] at idle
              simpa using idle
            have here : watched.process.place? (index, worker) = some (.serving (some wq)) := by
              unfold Process.place?
              rw [found]
              exact kept
            exact (watchful.timed _ _ here).resolve_left unowed
          · left
            simp only [Watched.owingAfter, atWas, atPlace]
            split
            · rename_i serving
              cases serving
              exact absurd rfl (idling _)
            · exact List.mem_cons_self
            · rename_i impossible
              exact absurd rfl (impossible _)

theorem timed_pool (watchful : Watchful graces watched)
    (found : watched.process.pools[index]? = some before) (taken : before.step action = some after)
    (idle : watched.idle index action = true) (address : Nat × Nat) (place : Place)
    (atPlace : (watched.afterPool index before after action fresh).process.place? address =
      some place) :
    Timed (graces address.1) (address ∈ watched.owingAfter index before after action.mover)
      (lastReset address
        ((Watched.bedtime (graces index) index after now action.mover).toList ++
          (watched.process.registration index before after action.actor ++ watched.calls)))
      place := by
  by_cases own : ∃ worker, action.mover = some worker ∧ address = (index, worker)
  · obtain ⟨worker, moves, rfl⟩ := own
    rw [afterPool_place found] at atPlace
    exact timed_mover watchful found taken idle moves atPlace
  · have apart (worker : Nat) (moves : action.mover = some worker) :
        address ≠ (index, worker) := fun same => own ⟨worker, moves, same⟩
    rw [owingAfter_elsewhere apart, bedtime_elsewhere apart,
      registration_elsewhere fun worker acts => apart worker (mover_of_actor acts)]
    by_cases here : address.1 = index
    · obtain ⟨pool, worker⟩ := address
      cases here
      rw [afterPool_place found] at atPlace
      rcases (step_places taken).elsewhere (fun moves => apart worker moves rfl) atPlace with
        old | rfl
      · apply watchful.timed
        unfold Process.place?
        rw [found]
        exact old
      · trivial
    · rw [afterPool_place_elsewhere here] at atPlace
      exact watchful.timed address place atPlace

end PoolStep

theorem Watchful.step {graces : Nat → Graces} {watched next : Watched α} {action : WatchAction α}
    (watchful : Watchful graces watched) (fits : ∀ call ∈ next.calls, call.Fits)
    (taken : watched.attempt graces action = some (.ok next)) : Watchful graces next := by
  cases action with
  | pool index action fresh now =>
      obtain ⟨before, found, result⟩ := Option.bind_eq_some_iff.mp taken
      obtain ⟨after, stepped, settled⟩ := Option.bind_eq_some_iff.mp result
      split_ifs at settled with idle
      refine Watchful.settle ?_ ?_ ?_ ?_ fits settled
      · exact watchful.roster.poolStep found stepped
      · exact register_faithful watchful.faithful watchful.roster found
      · intro call member
        cases moves : action.mover with
        | none =>
            rw [moves] at member
            cases member
        | some worker =>
            rw [moves] at member
            simp only [Watched.bedtime] at member
            split at member
            · cases member
              trivial
            · cases member
      · exact timed_pool watchful found stepped idle
  | begin address now =>
      simp only [Watched.attempt] at taken
      split at taken
      · rename_i wq atPlace
        split_ifs at taken with owed
        refine watchful.arm (fun other apart => List.mem_erase_of_ne apart) ?_ fits taken
        intro place found
        rw [atPlace, Option.some.injEq] at found
        subst found
        cases wq with
        | none => trivial
        | some wq =>
            right
            rintro one ⟨⟩
            rfl
      · cases taken
  | resetTpTimeout address now =>
      simp only [Watched.attempt] at taken
      split at taken
      · rename_i wq inside
        refine watchful.arm (fun other _ => Iff.rfl) ?_ fits taken
        intro place found
        rw [place_of_inProcess inside, Option.some.injEq] at found
        subst found
        right
        rintro one ⟨⟩
        rfl
      · cases taken
  | suspentTpTimeout address now =>
      simp only [Watched.attempt] at taken
      split at taken
      · rename_i wq inside
        refine watchful.disarm ?_ fits taken
        intro place found
        rw [place_of_inProcess inside, Option.some.injEq] at found
        subst found
        right
        intro one member
        cases member
      · cases taken
  | resetTimeout address now limits =>
      simp only [Watched.attempt] at taken
      split at taken
      · rename_i inside
        split_ifs at taken
        refine watchful.arm (fun other _ => Iff.rfl) ?_ fits taken
        intro place found
        rw [place_of_inProcess inside, Option.some.injEq] at found
        subst found
        trivial
      · cases taken
  | clearTimeout address now =>
      simp only [Watched.attempt] at taken
      split at taken
      · rename_i inside
        split_ifs at taken
        refine watchful.disarm ?_ fits taken
        intro place found
        rw [place_of_inProcess inside, Option.some.injEq] at found
        subst found
        trivial
      · cases taken
  | isHealthy now =>
      have settled : watched.settle (some (.isHealthy now)) = some (.ok next) := taken
      refine Watchful.settle ?_ ?_ ?_ ?_ fits settled
      · exact watchful.roster
      · exact watchful.faithful
      · rintro one ⟨⟩
        trivial
      · exact watchful.timed

theorem settle_calls {watched next : Watched α} {call : Option (Call (Nat × Nat))}
    (done : watched.settle call = some (.ok next)) :
    next.calls = call.toList ++ watched.calls := by
  cases call with
  | none =>
      cases done
      rfl
  | some one =>
      obtain ⟨outcome, performed, result⟩ := Option.map_eq_some_iff.mp done
      cases outcome with
      | error target => cases result
      | ok map =>
          cases result
          rfl

theorem calls_grow {graces : Nat → Graces} {watched next : Watched α} {action : WatchAction α}
    (taken : watched.attempt graces action = some (.ok next)) :
    ∃ new, next.calls = new ++ watched.calls := by
  cases action with
  | pool index action fresh now =>
      obtain ⟨before, found, result⟩ := Option.bind_eq_some_iff.mp taken
      obtain ⟨after, stepped, ended⟩ := Option.bind_eq_some_iff.mp result
      split_ifs at ended
      have grown := settle_calls ended
      exact ⟨_ ++ _, grown.trans (List.append_assoc _ _ _).symm⟩
  | isHealthy now =>
      have settled : watched.settle (some (.isHealthy now)) = some (.ok next) := taken
      exact ⟨_, settle_calls settled⟩
  | _ =>
      simp only [Watched.attempt] at taken
      split at taken
      · try split_ifs at taken
        have grown := settle_calls taken
        exact ⟨_, grown⟩
      · cases taken

theorem reachable_watchful {graces : Nat → Graces} {watched : Watched α}
    (reached : Runs.Reachable (watches α graces) (fun _ _ => True) watched)
    (fits : ∀ call ∈ watched.calls, call.Fits) : Watchful graces watched := by
  revert fits
  apply reached.invariant
  · rintro current ⟨initial, owing, calls⟩ _
    refine ⟨(Attended.initial initial).roster, ?_, ?_⟩
    · rw [calls, initial.2]
      exact .initial
    · intro address place found
      obtain ⟨pool, atPool, atPlace⟩ := Option.bind_eq_some_iff.mp found
      obtain ⟨stage, index, atCrew, _⟩ := places_crew atPlace
      rw [(initial.1 pool (List.mem_of_getElem? atPool)).crew] at atCrew
      cases atCrew
  · intro current action following _ kept _ taken fits
    unfold watches at taken
    dsimp only at taken
    split at taken
    · rename_i after attempted
      cases taken
      obtain ⟨new, grown⟩ := calls_grow attempted
      have earlier : ∀ call ∈ current.calls, call.Fits := by
        intro call member
        apply fits
        rw [grown]
        exact List.mem_append_right new member
      exact (kept earlier).step fits attempted
    · cases taken

/-! ### What a check finds -/

/-- Since when the deadlines of a worker run; nothing while it has none. -/
def timedSince (calls : List (Call (Nat × Nat))) (address : Nat × Nat) : Option Int64 :=
  (lastReset address calls).map Reset.since

def Late (since : Option Int64) (limit : UInt64) (now : Int64) : Prop :=
  ∃ start ∈ since, start.toInt + limit.toNat < now.toInt

/-- A check of the handle finds what these limits demand. -/
structure Judged (handle : Handle (Nat × Nat)) (since : Option Int64) (limits : Limits)
    (now : Int64) : Prop where
  unhealthy : (check handle now).healthy = false ↔ Late since limits.grace now
  killed : (check handle now).kill ≠ none ↔
    0 < limits.suicideGrace ∧ Late since limits.suicideGrace now

theorem judged_of_limits {calls : List (Call (Nat × Nat))} {handle : Handle (Nat × Nat)}
    {limits : Limits} (reflects : handle.Reflects (lastReset handle.address calls))
    (limited : ∀ one ∈ lastReset handle.address calls, one.limits = limits) (now : Int64) :
    Judged handle (timedSince calls handle.address) limits now := by
  have unhealthy := reflects.unhealthy_iff now
  have killed := reflects.kill_iff now
  unfold Overdue at unhealthy
  unfold Doomed at killed
  unfold timedSince
  cases last : lastReset handle.address calls with
  | none =>
      rw [last] at unhealthy killed
      refine ⟨unhealthy.trans ?_, killed.trans ?_⟩
      · simp [Late]
      · simp [Late]
  | some reset =>
      rw [last] at unhealthy killed
      have same : (⟨reset.grace, reset.suicideGrace⟩ : Limits) = limits := limited reset last
      subst same
      refine ⟨unhealthy.trans ?_, killed.trans ?_⟩
      · simp [Late]
      · simp [Late]

/-- Exactly the workers in their loops have a handle, each of them one. Asleep a worker
is timed, and a check judges it by the limits of its pool; with an item, once the reset
is made for it, a check judges it by the limits of the queue of that item and no
other. -/
theorem watchdog_exact {graces : Nat → Graces} {watched : Watched α}
    (reached : Runs.Reachable (watches α graces) (fun _ _ => True) watched)
    (fits : ∀ call ∈ watched.calls, call.Fits) (now : Int64) :
    (watched.process.map.workers.map Handle.address).Nodup ∧
      (∀ address, (∃ handle ∈ watched.process.map.workers, handle.address = address) ↔
        watched.process.Live address) ∧
      ∀ handle ∈ watched.process.map.workers,
        (watched.process.place? handle.address = some .asleep →
          timedSince watched.calls handle.address ≠ none ∧
            Judged handle (timedSince watched.calls handle.address)
              (graces handle.address.1).own now) ∧
        ∀ wq, watched.process.place? handle.address = some (.serving (some wq)) →
          handle.address ∉ watched.owing →
            Judged handle (timedSince watched.calls handle.address)
              ((graces handle.address.1).queue wq) now := by
  have watchful := reachable_watchful reached fits
  refine ⟨?_, ?_, ?_⟩
  · rw [watchful.faithful.addresses]
    exact watchful.faithful.distinct
  · intro address
    rw [← watchful.roster.listed, HeartbeatMap.owners, List.map_map, List.mem_map]
    rfl
  · intro handle member
    have reflects := watchful.faithful.reflects handle member
    constructor
    · intro asleep
      obtain ⟨one, last, limited⟩ := watchful.timed _ _ asleep
      refine ⟨?_, judged_of_limits reflects ?_ now⟩
      · unfold timedSince
        rw [last]
        exact Option.some_ne_none _
      · intro other found
        rw [last] at found
        cases found
        exact limited
    · intro wq serving reset
      exact judged_of_limits reflects ((watchful.timed _ _ serving).resolve_left reset) now

/-- A worker that took an item from the second queue at the time 5, after its wait: it
is late for the limit of that queue, and for no other. -/
theorem watchdog_exact_late_item :
    ∃ (watched : Watched Nat) (handle : Handle (Nat × Nat)),
      Runs.Reachable (watches Nat fun _ => ⟨⟨1000, 0⟩, fun wq => if wq = 1 then ⟨10, 100⟩
          else ⟨500, 0⟩⟩) (fun _ _ => True) watched ∧
        handle ∈ watched.process.map.workers ∧
        watched.process.place? handle.address = some (.serving (some 1)) ∧
        (check handle 20).healthy = false ∧ (check handle 20).kill = none := by
  let graces : Nat → Graces := fun _ => ⟨⟨1000, 0⟩, fun wq => if wq = 1 then ⟨10, 100⟩
    else ⟨500, 0⟩⟩
  have initial : (watches Nat graces).initial ⟨⟨[.threadPool (ThreadPool.State.initial 1 0)],
      fun _ => 0, HeartbeatMap.initial⟩, [], []⟩ := by
    refine ⟨⟨?_, rfl⟩, rfl, rfl⟩
    intro pool member
    cases List.mem_singleton.mp member
    exact ⟨1, 0, rfl⟩
  obtain ⟨watched, reached, passed⟩ := Runs.exists_of_replay (fun _ _ => True) initial
    [.pool 0 (.threadPool (.newQueue false)) id 0, .pool 0 (.threadPool (.newQueue false)) id 0,
      .pool 0 (.threadPool .start) id 0, .pool 0 (.threadPool (.work 0)) id 0,
      .pool 0 (.threadPool (.work 0)) id 1, .pool 0 (.threadPool (.queue 1 7 (some 0))) id 2,
      .pool 0 (.threadPool (.work 0)) id 3, .pool 0 (.threadPool (.work 0)) id 4,
      .begin (0, 0) 5, .pool 0 (.threadPool (.work 0)) id 6]
    (fun watched : Watched Nat => decide (
      watched.process.map.workers.map Handle.address = [(0, 0)] ∧
      watched.process.place? (0, 0) = some (.serving (some 1)) ∧ watched.owing = [] ∧
      watched.calls = [armed (0, 0) 5 ⟨10, 100⟩, armed (0, 0) 1 ⟨1000, 0⟩, .addWorker (0, 0) 0]))
    (by decide +kernel)
  obtain ⟨addresses, place, owing, calls⟩ := of_decide_eq_true passed
  have fits : ∀ call ∈ watched.calls, call.Fits := by
    rw [calls]
    decide +kernel
  have found := watchdog_exact reached fits 20
  have listed : (0, 0) ∈ watched.process.map.workers.map Handle.address := by
    rw [addresses]
    exact List.mem_singleton.mpr rfl
  obtain ⟨handle, member, same⟩ := List.mem_map.mp listed
  have judged := (found.2.2 handle member).2 1 (by rw [same]; exact place) (by rw [owing]; simp)
  have since : timedSince watched.calls handle.address = some 5 := by
    rw [calls, same]
    decide +kernel
  rw [since] at judged
  refine ⟨watched, handle, reached, member, by rw [same]; exact place, ?_, ?_⟩
  · exact judged.unhealthy.mpr ⟨5, rfl, by decide +kernel⟩
  · by_contra killed
    obtain ⟨_, start, member, late⟩ := judged.killed.mp killed
    cases member
    revert late
    decide +kernel

end BlueThread.Heartbeat
