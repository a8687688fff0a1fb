/-
How a pause of the sharded pool comes to its end.

A worker looks at `pause_threads` once in every round of its loop. If no drain keeps
it elsewhere, it is in the paused section after a bounded number of its own steps,
counting what it still has to process; and the last worker that gets there tells the
client. A worker in the paused section looks at the flag again after every wait, and
stays.
-/

import BlueThread.Foundation.Budget
import BlueThread.ShardedThreadPool.Overlap
import BlueThread.ShardedThreadPool.Stop

namespace BlueThread.ShardedThreadPool

open Population

/-! ### What nobody waits for in vain -/

/-- While the pool is not stopped, every worker stays in its loop, none waits in a
section whose flag is down, and a client in `pause` waits for a worker that is not
parked. -/
structure Alert (state : State) : Prop where
  running : state.stopThreads = false
  staying : ∀ worker ∈ state.workers, worker.pc ≠ .finished
  drained : state.drainThreads = false → ∀ worker ∈ state.workers, worker.pc ≠ .drainWaiting
  pausing : ∀ client ∈ state.clients, client.pc = .pauseWait → state.numThreads ≠ state.numPaused

section Alertness

variable {state next : State} {action : Action}

theorem notify_not_drainWaiting (pc : WorkerPc) : pc.notify ≠ .drainWaiting := by
  cases pc <;> exact nofun

theorem notify_not_finished {pc : WorkerPc} (stays : pc ≠ .finished) : pc.notify ≠ .finished := by
  cases pc with
  | finished => exact absurd rfl stays
  | _ => exact nofun

theorem notify_not_pauseWait (pc : ClientPc) : pc.notify ≠ .pauseWait := by
  cases pc <;> exact nofun

theorem not_at_set {workers : List Worker} {worker index : Nat} {pc place : WorkerPc}
    (before : ∀ one ∈ workers, one.pc ≠ place) (elsewhere : pc ≠ place) :
    ∀ one ∈ workers.set worker ⟨index, pc⟩, one.pc ≠ place := by
  intro one member
  rcases List.mem_or_eq_of_mem_set member with old | rfl
  · exact before one old
  · exact elsewhere

theorem not_drainWaiting_notify (workers : List Worker) :
    ∀ one ∈ workers.map Worker.notify, one.pc ≠ .drainWaiting := by
  intro one member
  obtain ⟨worker, _, rfl⟩ := List.mem_map.mp member
  exact notify_not_drainWaiting worker.pc

theorem not_finished_notify {workers : List Worker}
    (before : ∀ one ∈ workers, one.pc ≠ .finished) :
    ∀ one ∈ workers.map Worker.notify, one.pc ≠ .finished := by
  intro one member
  obtain ⟨worker, present, rfl⟩ := List.mem_map.mp member
  exact notify_not_finished (before worker present)

theorem pausing_set {clients : List Client} {client pauses : Nat} {pc : ClientPc} {short : Prop}
    (before : ∀ one ∈ clients, one.pc = .pauseWait → short) (own : pc = .pauseWait → short) :
    ∀ one ∈ clients.set client ⟨pc, pauses⟩, one.pc = .pauseWait → short := by
  intro one member
  rcases List.mem_or_eq_of_mem_set member with old | rfl
  · exact before one old
  · exact own

theorem pausing_notify {clients : List Client} {short : Prop} :
    ∀ one ∈ clients.map Client.notify, one.pc = .pauseWait → short := by
  intro one member waits
  obtain ⟨client, _, rfl⟩ := List.mem_map.mp member
  exact absurd waits (notify_not_pauseWait client.pc)

theorem Move.stays {index : Nat} {pc after : WorkerPc} (moved : Move state index pc after)
    (running : state.stopThreads = false) (before : pc ≠ .finished) : after ≠ .finished := by
  cases moved with
  | leave stopped =>
      rw [running] at stopped
      cases stopped
  | wake => exact notify_not_finished before
  | _ => exact nofun

theorem Move.not_drainWaiting {index : Nat} {pc after : WorkerPc}
    (moved : Move state index pc after) (down : state.drainThreads = false) :
    after ≠ .drainWaiting := by
  cases moved with
  | stayDrained up =>
      rw [down] at up
      cases up
  | wake => exact notify_not_drainWaiting pc
  | _ => exact nofun

theorem Alert.setWorker (alert : Alert state) {worker index : Nat} {pc : WorkerPc}
    (stays : pc ≠ .finished) (undrained : state.drainThreads = false → pc ≠ .drainWaiting) :
    Alert (state.setWorker worker index pc) where
  running := alert.running
  staying := not_at_set alert.staying stays
  drained down := not_at_set (alert.drained down) (undrained down)
  pausing := alert.pausing

theorem Effect.alert (effect : Effect state action next) (running : NoStop action)
    (crewed : Crewed state.numThreads state.threads state.workers state.clients)
    (counted : Counted state.numPaused state.numDrained state.workers)
    (alert : Alert state) (live : next.aborted = false) : Alert next := by
  have moved (worker index : Nat) (pc : WorkerPc) (stays : pc ≠ .finished)
      (undrained : state.drainThreads = false → pc ≠ .drainWaiting) :
      Alert (state.setWorker worker index pc) := alert.setWorker stays undrained
  cases effect with
  | move found shift =>
      refine moved _ _ _ (shift.stays alert.running ?_) shift.not_drainWaiting
      exact alert.staying _ (List.mem_of_getElem? found)
  | @pauseEnter worker index =>
      have after := moved worker index .pauseWaiting nofun nofun
      exact ⟨after.running, after.staying, after.drained, pausing_notify⟩
  | @pausePass worker index =>
      have after := moved worker index .drainTest nofun nofun
      exact ⟨after.running, after.staying, after.drained, pausing_notify⟩
  | @pauseLeave worker index found =>
      have after := moved worker index .drainTest nofun nofun
      refine ⟨after.running, after.staying, after.drained, ?_⟩
      -- The worker that leaves was counted, so the counter is below the number of threads.
      intro client member waits
      have inside : 1 ≤ total Worker.paused state.workers := le_total Worker.paused found
      have most := total_le_length Worker.paused state.workers paused_le
      have few := crewed.length_le
      have small := crewed.small
      have total := counted.paused
      have lower := decrement_eq (show 0 < state.numPaused by omega) (by omega)
      change state.numThreads ≠ decrement state.numPaused
      omega
  | @drainEnter worker index found empty draining =>
      have raised : state.drainThreads = false → WorkerPc.drainWaiting ≠ .drainWaiting := by
        intro down
        rw [down] at draining
        cases draining
      have after := moved worker index .drainWaiting nofun raised
      exact ⟨after.running, after.staying, after.drained, pausing_notify⟩
  | @drainPass worker index =>
      have after := moved worker index (.process []) nofun nofun
      exact ⟨after.running, after.staying, after.drained, pausing_notify⟩
  | @drainLeave worker index =>
      have after := moved worker index (.process []) nofun nofun
      exact ⟨after.running, after.staying, after.drained, after.pausing⟩
  | @dequeue worker index shard place ticket held =>
      have after := moved worker index (.process (ticket :: held)) nofun nofun
      exact ⟨after.running, after.staying, after.drained, after.pausing⟩
  | @complete worker index place ticket held =>
      have after := moved worker index (.process (held.eraseIdx place)) nofun nofun
      exact ⟨after.running, after.staying, after.drained, after.pausing⟩
  | insert | setWq => exact ⟨alert.running, alert.staying, alert.drained, alert.pausing⟩
  | start asked =>
      have fresh {place : WorkerPc} (elsewhere : WorkerPc.starting ≠ place)
          (before : ∀ one ∈ state.workers, one.pc ≠ place) :
          ∀ one ∈ (startThreads state).workers, one.pc ≠ place := by
        intro one member
        rcases List.mem_append.mp member with old | new
        · exact before one old
        · obtain ⟨index, _, rfl⟩ := List.mem_map.mp new
          exact elsewhere
      exact ⟨alert.running, fresh nofun alert.staying, fun down => fresh nofun (alert.drained down),
        alert.pausing⟩
  | stop asked =>
      rw [asked] at running
      exact running.elim
  | join => exact ⟨alert.running, alert.staying, alert.drained, pausing_set alert.pausing nofun⟩
  | pauseBlock found entry short =>
      exact ⟨alert.running, alert.staying, alert.drained,
        pausing_set alert.pausing fun _ => short⟩
  | pauseReturn =>
      exact ⟨alert.running, alert.staying, alert.drained, pausing_set alert.pausing nofun⟩
  | unpause =>
      exact ⟨alert.running, not_finished_notify alert.staying,
        fun _ => not_drainWaiting_notify state.workers, pausing_set alert.pausing nofun⟩
  | drainCall =>
      exact ⟨alert.running, alert.staying, alert.drained, pausing_set alert.pausing nofun⟩
  | drainBlock found entry =>
      refine ⟨alert.running, alert.staying, ?_, pausing_set alert.pausing nofun⟩
      intro down
      cases entry with
      | call => cases down
      | resumed => exact alert.drained down
  | drainReturn =>
      exact ⟨alert.running, not_finished_notify alert.staying,
        fun _ => not_drainWaiting_notify state.workers, pausing_set alert.pausing nofun⟩
  | spurious =>
      refine ⟨alert.running, alert.staying, alert.drained, pausing_set alert.pausing ?_⟩
      intro waits
      exact absurd waits (notify_not_pauseWait _)
  | abort => cases live

end Alertness

theorem reachable_alert {state : State}
    (reached : Runs.Reachable system (fun _ action => NoStop action) state)
    (live : state.aborted = false) : Alert state := by
  induction reached with
  | start initial =>
      obtain ⟨numThreads, clients, _, rfl⟩ := initial
      refine ⟨rfl, nofun, fun _ => nofun, ?_⟩
      intro client member waits
      rw [List.eq_of_mem_replicate member] at waits
      cases waits
  | next action before permitted taken ih =>
      exact (step_effect taken).alert permitted
        (reachable_crewed (fun _ _ running => running) before)
        (reachable_counted (fun _ _ running => running) before) (ih (step_live taken)) live

/-! ### The way to the paused section -/

/-- The steps of a worker until it waits in the paused section, once `pause_threads` is
set and no drain is under way; those for the items it has are counted too. -/
def WorkerPc.load : WorkerPc → Nat
  | .pauseWaiting | .drainWaiting | .finished => 0
  | .pauseWoken | .pauseLock => 1
  | .pauseTest => 2
  | .top => 3
  | .starting => 4
  | .process held => 4 + held.length
  | .drainTest | .drainLock | .drainWoken => 5

def Worker.load (worker : Worker) : Nat := worker.pc.load

/-- Two steps for each item, and those of the workers. -/
def State.stepsLeft (state : State) : Nat :=
  2 * total List.length state.shards + total Worker.load state.workers

/-- A step of a worker, or of `_process` for it. -/
def Action.moves : Action → Bool
  | .work _ | .dequeue _ _ _ | .complete _ _ => true
  | _ => false

def Action.timesOut : Action → Bool
  | .timeout _ => true
  | _ => false

/-- Workers go on and time out, and woken clients look at what they wait for. -/
def LeftAlone : Action → Prop
  | .work _ => True
  | .dequeue _ _ _ => True
  | .complete _ _ => True
  | .timeout _ => True
  | .spurious _ => True
  | .resume _ => True
  | _ => False

instance (action : Action) : Decidable (LeftAlone action) :=
  match action with
  | .work _ | .dequeue _ _ _ | .complete _ _ | .timeout _ | .spurious _ | .resume _ =>
      inferInstanceAs (Decidable True)
  | .queue _ | .queueFront _ | .setWq | .start | .stop _ | .join _ | .pause _ | .unpause _
  | .drain _ | .drainLock _ => inferInstanceAs (Decidable False)

theorem LeftAlone.noStop {action : Action} (permitted : LeftAlone action) : NoStop action := by
  cases action with
  | stop => exact permitted.elim
  | _ => trivial

/-- A pool that is being paused, and neither drained nor stopped. -/
structure Pausing (state : State) : Prop where
  live : state.aborted = false
  set : state.wq = true
  paused : state.pauseThreads = true
  undrained : state.drainThreads = false
  calm : ∀ client ∈ state.clients, client.awaitsDrain = false

section Pausing

variable {state next : State} {action : Action} {worker index : Nat} {pc : WorkerPc}

theorem calm_notify (calm : ∀ client ∈ state.clients, client.awaitsDrain = false) :
    ∀ client ∈ state.clients.map Client.notify, client.awaitsDrain = false := by
  intro client member
  obtain ⟨one, present, rfl⟩ := List.mem_map.mp member
  rw [(notify_asks one).1]
  exact calm one present

theorem calm_set {client : Nat} {one : Client}
    (calm : ∀ client ∈ state.clients, client.awaitsDrain = false) (own : one.awaitsDrain = false) :
    ∀ other ∈ state.clients.set client one, other.awaitsDrain = false := by
  intro other member
  rcases List.mem_or_eq_of_mem_set member with old | rfl
  · exact calm other old
  · exact own

theorem work_load (pausing : Pausing state) (running : state.stopThreads = false)
    (done : work state worker index pc = some next) :
    Pausing next ∧ next.shards = state.shards ∧ ∃ after,
      next.workers = state.workers.set worker ⟨index, after⟩ ∧ after.load + 1 ≤ pc.load := by
  have ⟨live, set, paused, undrained, calm⟩ := pausing
  have told : Pausing state.notifyClients := ⟨live, set, paused, undrained, calm_notify calm⟩
  cases pc with
  | starting =>
      rw [work, if_pos set] at done
      cases done
      exact ⟨⟨live, set, paused, undrained, calm⟩, rfl, .top, rfl, Nat.le_refl _⟩
  | top =>
      rw [work, running] at done
      cases done
      exact ⟨⟨live, set, paused, undrained, calm⟩, rfl, .pauseTest, rfl, Nat.le_refl _⟩
  | pauseTest =>
      rw [work, paused] at done
      cases done
      exact ⟨⟨live, set, paused, undrained, calm⟩, rfl, .pauseLock, rfl, Nat.le_refl _⟩
  | pauseLock =>
      rw [work, pausedLoop_up (by exact paused)] at done
      cases done
      exact ⟨⟨live, set, paused, undrained, told.calm⟩, rfl, .pauseWaiting, rfl, Nat.le_refl _⟩
  | pauseWaiting => cases done
  | pauseWoken =>
      rw [work, pausedLoop_up paused] at done
      cases done
      exact ⟨⟨live, set, paused, undrained, calm⟩, rfl, .pauseWaiting, rfl, Nat.le_refl _⟩
  | drainTest =>
      rw [work, undrained] at done
      cases done
      exact ⟨⟨live, set, paused, undrained, calm⟩, rfl, .process [], rfl, Nat.le_refl _⟩
  | drainLock =>
      rw [work, drainedLoop_down (by exact undrained)] at done
      split_ifs at done
      · cases done
        exact ⟨⟨live, set, paused, undrained, told.calm⟩, rfl, .process [], rfl, Nat.le_refl _⟩
      · cases done
        exact ⟨⟨live, set, paused, undrained, calm⟩, rfl, .process [], rfl, Nat.le_refl _⟩
  | drainWaiting => cases done
  | drainWoken =>
      rw [work, drainedLoop_down undrained] at done
      cases done
      exact ⟨⟨live, set, paused, undrained, calm⟩, rfl, .process [], rfl, Nat.le_refl _⟩
  | process held =>
      rw [work, Option.ite_none_right_eq_some] at done
      cases done.2
      refine ⟨⟨live, set, paused, undrained, calm⟩, rfl, .top, rfl, ?_⟩
      rw [done.1]
      exact Nat.le_refl _
  | finished => cases done

theorem resume_load {client : Nat} (pausing : Pausing state)
    (done : clientStep state (.resume client) = some next) :
    Pausing next ∧ next.shards = state.shards ∧ next.workers = state.workers := by
  obtain ⟨live, set, paused, undrained, calm⟩ := pausing
  rw [clientStep] at done
  split at done
  · rename_i pauses _found
    cases done
    unfold pauseLoop
    split_ifs
    · exact ⟨⟨live, set, paused, undrained, calm_set calm rfl⟩, rfl, rfl⟩
    · exact ⟨⟨live, set, paused, undrained, calm_set calm rfl⟩, rfl, rfl⟩
  · rename_i since pauses found
    cases calm _ (List.mem_of_getElem? found)
  · cases done

theorem step_stepsLeft (taken : step state action = some next) (permitted : LeftAlone action)
    (pausing : Pausing state) (alert : Alert state) :
    Pausing next ∧ next.workers.length = state.workers.length ∧
      next.stepsLeft + (if action.moves then 1 else 0) ≤
        state.stepsLeft + (if action.timesOut then 1 else 0) := by
  have ⟨live, set, paused, undrained, calm⟩ := pausing
  rw [step, live, if_neg Bool.false_ne_true] at taken
  rw [State.stepsLeft, State.stepsLeft]
  cases action with
  | work worker =>
      obtain ⟨one, found, worked⟩ := Option.bind_eq_some_iff.mp taken
      obtain ⟨still, shards, after, moved, nearer⟩ := work_load pausing alert.running worked
      have shift := total_set Worker.load ⟨one.threadIndex, after⟩ found
      rw [shards, moved]
      refine ⟨still, List.length_set, ?_⟩
      change _ + 1 ≤ _ + 0
      change after.load + 1 ≤ one.load at nearer
      change _ + one.load = _ + after.load at shift
      omega
  | dequeue worker shard place =>
      rw [stepLive] at taken
      split at taken
      · rename_i index held found
        obtain ⟨items, atShard, result⟩ := Option.bind_eq_some_iff.mp taken
        obtain ⟨ticket, atPlace, rfl⟩ := Option.map_eq_some_iff.mp result
        have shift := total_set Worker.load ⟨index, .process (ticket :: held)⟩ found
        have taken := total_set List.length (items.eraseIdx place) atShard
        have inside := (List.getElem?_eq_some_iff.mp atPlace).1
        rw [List.length_eraseIdx_of_lt inside] at taken
        refine ⟨⟨live, set, paused, undrained, calm⟩, List.length_set, ?_⟩
        change 2 * total List.length (state.shards.set shard (items.eraseIdx place)) +
          total Worker.load (state.workers.set worker ⟨index, .process (ticket :: held)⟩) + 1 ≤
            _ + 0
        simp only [Worker.load, WorkerPc.load, List.length_cons] at shift
        omega
      · cases taken
  | complete worker place =>
      rw [stepLive] at taken
      split at taken
      · rename_i index held found
        obtain ⟨ticket, atPlace, rfl⟩ := Option.map_eq_some_iff.mp taken
        have shift := total_set Worker.load ⟨index, .process (held.eraseIdx place)⟩ found
        have inside := (List.getElem?_eq_some_iff.mp atPlace).1
        refine ⟨⟨live, set, paused, undrained, calm⟩, List.length_set, ?_⟩
        change 2 * total List.length state.shards + total Worker.load
          (state.workers.set worker ⟨index, .process (held.eraseIdx place)⟩) + 1 ≤ _ + 0
        simp only [Worker.load, WorkerPc.load, List.length_eraseIdx_of_lt inside] at shift
        omega
      · cases taken
  | timeout worker =>
      obtain ⟨⟨index, pc⟩, found, rfl⟩ := Option.map_eq_some_iff.mp taken
      have shift := total_set Worker.load ⟨index, pc.notify⟩ found
      have outside := alert.drained undrained _ (List.mem_of_getElem? found)
      have once : pc.notify.load ≤ pc.load + 1 := by
        cases pc with
        | drainWaiting => exact absurd rfl outside
        | _ => simp [WorkerPc.notify, WorkerPc.load]
      refine ⟨⟨live, set, paused, undrained, calm⟩, List.length_set, ?_⟩
      change 2 * total List.length state.shards +
        total Worker.load (state.workers.set worker ⟨index, pc.notify⟩) + 0 ≤ _ + 1
      change _ + pc.load = _ + pc.notify.load at shift
      omega
  | spurious client =>
      obtain ⟨one, found, rfl⟩ := Option.map_eq_some_iff.mp taken
      refine ⟨⟨live, set, paused, undrained, calm_set calm ?_⟩, rfl, Nat.le_refl _⟩
      have own := calm one (List.mem_of_getElem? found)
      rw [← (notify_asks one).1] at own
      exact own
  | resume client =>
      obtain ⟨still, shards, workers⟩ := resume_load pausing taken
      rw [shards, workers]
      exact ⟨still, rfl, Nat.le_refl _⟩
  | _ => exact permitted.elim

end Pausing

/-! ### Everybody is parked -/

/-- All workers wait in the paused section; nobody waits in `pause`, and whoever was
woken there returns at the next step. -/
structure Standstill (state : State) : Prop where
  parked : ∀ worker ∈ state.workers, worker.pc = .pauseWaiting
  notified : ∀ client ∈ state.clients, client.pc ≠ .pauseWait
  returns : ∀ client pauses next, state.clients[client]? = some ⟨.pauseWoken, pauses⟩ →
    step state (.resume client) = some next →
    next.clients[client]? = some ⟨.idle, pauses + 1⟩

section Standstill

variable {state : State} {worker : Nat} {one : Worker}

theorem exists_move (pausing : Pausing state) (alert : Alert state)
    (found : state.workers[worker]? = some one) (outside : one.pc ≠ .pauseWaiting) :
    ∃ action, action.moves = true ∧ (step state action).isSome = true := by
  obtain ⟨live, set, paused, undrained, calm⟩ := pausing
  have staying := alert.staying one (List.mem_of_getElem? found)
  have atDrain := alert.drained undrained one (List.mem_of_getElem? found)
  obtain ⟨index, pc⟩ := one
  have stepped (done : (work state worker index pc).isSome = true) :
      (step state (.work worker)).isSome = true := by
    rw [step, live, if_neg Bool.false_ne_true, stepLive, found]
    exact done
  cases pc with
  | pauseWaiting => exact absurd rfl outside
  | drainWaiting => exact absurd rfl atDrain
  | finished => exact absurd rfl staying
  | process held =>
      cases held with
      | nil => exact ⟨.work worker, rfl, stepped rfl⟩
      | cons ticket rest =>
          refine ⟨.complete worker 0, rfl, ?_⟩
          rw [step, live, if_neg Bool.false_ne_true, stepLive, found]
          rfl
  | starting =>
      refine ⟨.work worker, rfl, stepped ?_⟩
      rw [work, if_pos set]
      rfl
  | drainLock =>
      refine ⟨.work worker, rfl, stepped ?_⟩
      rw [work]
      split_ifs
      · rfl
      · rfl
  | top | pauseTest | pauseLock | pauseWoken | drainTest | drainWoken =>
      exact ⟨.work worker, rfl, stepped rfl⟩

theorem standstill (alert : Alert state)
    (counted : Counted state.numPaused state.numDrained state.workers)
    (staffed : state.workers.length = state.numThreads)
    (parked : ∀ worker ∈ state.workers, worker.pc = .pauseWaiting) : Standstill state := by
  have full : state.numThreads = state.numPaused := by
    have all : total Worker.paused state.workers = state.workers.length := by
      apply Runs.total_eq_length
      intro worker member
      rw [Worker.paused, parked worker member]
      rfl
    rw [counted.paused, all, staffed]
  refine ⟨parked, ?_, ?_⟩
  · intro client member waits
    exact alert.pausing client member waits full
  · intro client pauses next found taken
    unfold step at taken
    split_ifs at taken
    change clientStep state (.resume client) = some next at taken
    rw [clientStep, found] at taken
    cases taken
    rw [pauseLoop, if_neg (not_ne_iff.mpr full)]
    exact getElem?_set_found found

end Standstill

/-- A pause that no drain disturbs comes to its end, whatever is queued and however the
workers are scheduled: they are all parked after a bounded number of steps, and one more
for each time-out; until then one of them can make a step, and then every call of
`pause` returns. -/
theorem sharded_pause_ends {state final : State} {past : List Action}
    (reached : Runs.Reachable system (fun _ action => NoStop action) state)
    (staffed : state.workers.length = state.numThreads) (pausing : Pausing state)
    (recorded : Runs.Recorded (system.after state) (fun _ action => LeftAlone action) past final) :
    past.countP Action.moves ≤ state.stepsLeft + past.countP Action.timesOut ∧
      (Standstill final ∨
        ∃ action, action.moves = true ∧ (step final action).isSome = true) := by
  obtain ⟨⟨later, still, manned⟩, covered⟩ := recorded.budget
    (fun current => Runs.Reachable system (fun _ action => NoStop action) current ∧
      Pausing current ∧ current.workers.length = current.numThreads)
    State.stepsLeft
    (fun action => if action.moves then 1 else 0) (fun action => if action.timesOut then 1 else 0)
    state.stepsLeft
    (by
      rintro current rfl
      exact ⟨⟨reached, pausing, staffed⟩, Nat.le_refl _⟩)
    (by
      intro current action following holds permitted taken
      obtain ⟨here, active, manned⟩ := holds
      have alert := reachable_alert here active.live
      obtain ⟨onward, length, nearer⟩ := step_stepsLeft taken permitted active alert
      refine ⟨⟨here.next action permitted.noStop taken, onward, ?_⟩, nearer⟩
      rw [length, (step_effect taken).numThreads, manned])
  rw [Runs.total_indicator, Runs.total_indicator, Nat.one_mul, Nat.one_mul] at covered
  refine ⟨by omega, ?_⟩
  have alert := reachable_alert later still.live
  by_cases parked : ∀ worker ∈ final.workers, worker.pc = .pauseWaiting
  · left
    exact standstill alert (reachable_counted (fun _ _ running => running) later) manned parked
  · right
    simp only [not_forall] at parked
    obtain ⟨one, member, outside⟩ := parked
    obtain ⟨worker, found⟩ := List.mem_iff_getElem?.mp member
    exact exists_move still alert found outside

/-- One worker inside `_process` with an item, the other one at the top of its loop. -/
theorem sharded_pause_ends_after_item :
    ∃ (state final : State) (past : List Action),
      Runs.Reachable system (fun _ action => NoStop action) state ∧
      state.workers = [⟨0, .process [0]⟩, ⟨1, .top⟩] ∧ state.clients = [⟨.pauseWait, 0⟩] ∧
      Runs.Recorded (system.after state) (fun _ action => LeftAlone action) past final ∧
      past.countP Action.moves ≤ state.stepsLeft + past.countP Action.timesOut ∧
      final.workers = [⟨0, .pauseWaiting⟩, ⟨1, .pauseWaiting⟩] ∧
      final.clients = [⟨.pauseWoken, 0⟩] := by
  obtain ⟨state, reached, passed⟩ := Runs.exists_of_replay (fun _ action => NoStop action)
    (show system.initial (State.initial 2 1) from ⟨2, 1, by decide, rfl⟩)
    [.setWq, .start, .queue 0, .work 0, .work 0, .work 0, .work 0, .dequeue 0 0 0, .work 1,
      .pause 0]
    (fun state : State => decide (state.workers.length = state.numThreads ∧
        state.workers = [⟨0, .process [0]⟩, ⟨1, .top⟩] ∧ state.clients = [⟨.pauseWait, 0⟩] ∧
        state.aborted = false ∧ state.wq = true ∧ state.pauseThreads = true ∧
        state.drainThreads = false ∧ ∀ client ∈ state.clients, client.awaitsDrain = false) &&
      (Runs.replay (system.after state) (fun _ action => LeftAlone action) state
        [.work 1, .work 1, .work 1, .complete 0 0, .work 0, .work 0, .timeout 1, .work 0, .work 1,
          .work 0]).any
        fun final : State => decide (final.workers = [⟨0, .pauseWaiting⟩, ⟨1, .pauseWaiting⟩] ∧
          final.clients = [⟨.pauseWoken, 0⟩]))
    (by decide +kernel)
  rw [Bool.and_eq_true, decide_eq_true_eq] at passed
  obtain ⟨⟨staffed, working, waits, live, set, paused, undrained, calm⟩, replays⟩ := passed
  obtain ⟨final, replayed, ends⟩ := (Option.any_eq_true _ _).mp replays
  obtain ⟨parked, woken⟩ := of_decide_eq_true ends
  have recorded := Runs.replay_recorded (.start rfl) replayed
  have bounded :=
    (sharded_pause_ends reached staffed ⟨live, set, paused, undrained, calm⟩ recorded).1
  exact ⟨state, final, _, reached, working, waits, recorded, bounded, parked, woken⟩

end BlueThread.ShardedThreadPool
