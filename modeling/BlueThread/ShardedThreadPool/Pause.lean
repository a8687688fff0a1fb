/-
`pause` of the sharded pool as a barrier.

A pause returns when every worker is in the paused section, and from there a
worker gets out only after `pause_threads` was cleared. But a pause that waited
does not look at the flag again. If somebody cleared it in the meantime, then the
pause returns on workers that are about to leave.
-/

import BlueThread.ShardedThreadPool.Counters

namespace BlueThread.ShardedThreadPool

open Population

/-- A pause that ends its wait finds the flag it set. -/
def FlagKept (state : State) : Action → Prop
  | .resume client =>
      ∀ one ∈ state.clients[client]?, one.pc = .pauseWoken →
        state.numThreads = state.numPaused → state.pauseThreads = true
  | _ => True

instance (state : State) (action : Action) : Decidable (FlagKept state action) :=
  match action with
  | .resume client => inferInstanceAs (Decidable (∀ one ∈ state.clients[client]?, _))
  | .work _ | .dequeue _ _ _ | .complete _ _ | .timeout _ | .spurious _ | .queue _
  | .queueFront _ | .setWq | .start | .stop _ | .join _ | .pause _ | .unpause _ | .drain _
  | .drainLock _ => inferInstanceAs (Decidable True)

def NoUnpause : Action → Prop
  | .unpause _ => False
  | _ => True

instance (action : Action) : Decidable (NoUnpause action) :=
  match action with
  | .unpause _ => inferInstanceAs (Decidable False)
  | .work _ | .dequeue _ _ _ | .complete _ _ | .timeout _ | .spurious _ | .queue _
  | .queueFront _ | .setWq | .start | .stop _ | .join _ | .pause _ | .drain _
  | .drainLock _ | .resume _ => inferInstanceAs (Decidable True)

/-- The step at which a call `pause()` of the client returns. -/
def PauseReturns (state : State) (action : Action) (next : State) (client : Nat) : Prop :=
  (action = .pause client ∨
      action = .resume client ∧
        ∃ pauses, state.clients[client]? = some ⟨.pauseWoken, pauses⟩) ∧
    next.aborted = false ∧ ∃ pauses, next.clients[client]? = some ⟨.idle, pauses⟩

theorem step_live {state next : State} {action : Action}
    (taken : step state action = some next) : state.aborted = false := by
  unfold step at taken
  split_ifs at taken with aborted
  exact Bool.eq_false_iff.mpr aborted

/-! ### The return of a pause -/

theorem pauseLoop_idle {state : State} {client pauses later : Nat}
    (inside : client < state.clients.length)
    (idle : (pauseLoop state client pauses).clients[client]? = some ⟨.idle, later⟩) :
    state.numThreads = state.numPaused ∧
      pauseLoop state client pauses = state.setClient client .idle (pauses + 1) := by
  unfold pauseLoop at idle ⊢
  split_ifs at idle ⊢ with short
  · change (state.clients.set client ⟨.pauseWait, pauses⟩)[client]? = _ at idle
    rw [List.getElem?_set_self inside] at idle
    cases idle
  · exact ⟨not_ne_iff.mp short, rfl⟩

theorem pauseReturns_full {state next : State} {action : Action} {client : Nat}
    (kept : FlagKept state action) (taken : step state action = some next)
    (returns : PauseReturns state action next client) :
    state.numThreads = state.numPaused ∧ next.pauseThreads = true ∧
      next.workers = state.workers ∧ next.numThreads = state.numThreads ∧
      next.threads = state.threads := by
  obtain ⟨call, live, later, idle⟩ := returns
  unfold step at taken
  split_ifs at taken
  rcases call with rfl | ⟨rfl, pauses, found⟩
  · obtain ⟨pauses, called, result⟩ := Option.map_eq_some_iff.mp taken
    have inside := (List.getElem?_eq_some_iff.mp (caller?_eq_some called)).1
    split_ifs at result
    · subst result
      obtain ⟨full, same⟩ :=
        @pauseLoop_idle { state with pauseThreads := true } client pauses later inside idle
      rw [same]
      exact ⟨full, rfl, rfl, rfl, rfl⟩
    · subst result
      cases live
  · change clientStep state (.resume client) = some next at taken
    rw [clientStep, found] at taken
    simp only [Option.some.injEq] at taken
    subst taken
    obtain ⟨full, same⟩ := pauseLoop_idle (List.getElem?_eq_some_iff.mp found).1 idle
    rw [same]
    exact ⟨full, kept _ found rfl full, rfl, rfl, rfl⟩

/-! ### The paused section -/

structure Parked (state : State) : Prop where
  flag : state.aborted = false → state.pauseThreads = true
  inside : ∀ worker ∈ state.workers, worker.paused = 1
  full : state.threads.length = state.numThreads

theorem Parked.outside {state : State} (parked : Parked state) {worker : Worker}
    (member : worker ∈ state.workers) (held : List Nat) : worker.pc ≠ .process held := by
  intro busy
  have inside := parked.inside worker member
  rw [Worker.paused, busy] at inside
  cases inside

theorem Crewed.parked {state : State}
    (crewed : Crewed state.numThreads state.threads state.workers state.clients)
    (counted : Counted state.numPaused state.numDrained state.workers)
    (full : state.numThreads = state.numPaused) :
    (∀ worker ∈ state.workers, worker.paused = 1) ∧ state.threads.length = state.numThreads := by
  have most := total_le_length Worker.paused state.workers paused_le
  have few := crewed.length_le
  have paused := counted.paused
  constructor
  · intro worker member
    exact counted_of_total_eq_length Worker.paused paused_le (by omega) member
  · rcases crewed.started with ⟨noThreads, nobody⟩ | ⟨all, _⟩
    · rw [nobody, total_nil] at paused
      rw [noThreads, List.length_nil]
      omega
    · exact all

theorem Parked.setWorker {workers : List Worker} {worker : Nat} {old new : Worker}
    (inside : ∀ one ∈ workers, one.paused = 1) (found : workers[worker]? = some old)
    (same : new.paused = old.paused) : ∀ one ∈ workers.set worker new, one.paused = 1 := by
  intro one member
  rcases List.mem_or_eq_of_mem_set member with kept | rfl
  · exact inside one kept
  · exact same.trans (inside old (List.mem_of_getElem? found))

theorem Parked.notifyWorkers {workers : List Worker}
    (inside : ∀ one ∈ workers, one.paused = 1) :
    ∀ one ∈ workers.map Worker.notify, one.paused = 1 := by
  intro one member
  obtain ⟨before, present, rfl⟩ := List.mem_map.mp member
  exact (notify_kept before).2.1.trans (inside before present)

theorem Effect.parked {state next : State} {action : Action} (effect : Effect state action next)
    (live : state.aborted = false) (kept : NoUnpause action)
    (crewed : Crewed state.numThreads state.threads state.workers state.clients)
    (parked : Parked state) : Parked next := by
  have flag := parked.flag live
  have notOut {worker index : Nat} {pc : WorkerPc}
      (found : state.workers[worker]? = some ⟨index, pc⟩) (out : pc.paused = 0) : False := by
    have inside := parked.inside _ (List.mem_of_getElem? found)
    rw [Worker.paused, out] at inside
    cases inside
  cases effect with
  | move found moved =>
      exact ⟨fun _ => flag, Parked.setWorker parked.inside found moved.kept.1, parked.full⟩
  | pauseEnter found paused => exact (notOut found rfl).elim
  | pausePass found unpaused => exact (notOut found rfl).elim
  | pauseLeave found unpaused =>
      rw [flag] at unpaused
      cases unpaused
  | drainEnter found empty draining => exact (notOut found rfl).elim
  | drainPass found empty idle => exact (notOut found rfl).elim
  | drainLeave found idle => exact (notOut found rfl).elim
  | dequeue found atShard atPlace => exact (notOut found rfl).elim
  | complete found atPlace => exact (notOut found rfl).elim
  | start asked =>
      have same : startThreads state = state := by
        unfold startThreads
        simp only [parked.full, Nat.sub_self, List.range'_zero, List.range_zero, List.map_nil,
          List.append_nil]
      rw [same]
      exact parked
  | join found ended => exact absurd rfl (crewed.running _ (List.mem_of_getElem? found))
  | pauseBlock found entry short =>
      cases entry with
      | call asked => exact ⟨fun _ => rfl, parked.inside, parked.full⟩
      | resumed => exact ⟨fun _ => flag, parked.inside, parked.full⟩
  | pauseReturn found entry full =>
      cases entry with
      | call asked => exact ⟨fun _ => rfl, parked.inside, parked.full⟩
      | resumed => exact ⟨fun _ => flag, parked.inside, parked.full⟩
  | unpause asked found =>
      subst asked
      cases kept
  | drainReturn found entry full =>
      exact ⟨fun _ => flag, Parked.notifyWorkers parked.inside, parked.full⟩
  | abort stopThreads pauseThreads drainThreads unset =>
      exact ⟨nofun, parked.inside, parked.full⟩
  | _ => exact ⟨fun _ => flag, parked.inside, parked.full⟩

/-- In a run in which every pause that ends its wait finds its flag set, the
counters are exact, and from the return of a pause to the next `unpause` no
worker is in `_process`. -/
theorem pause_holds_workers {state : State}
    (reached : Runs.Reachable system
      (fun state action => NoStop action ∧ FlagKept state action) state) :
    (state.numPaused = total Worker.paused state.workers ∧
        state.numPaused ≤ state.numThreads ∧
        state.numDrained = total Worker.drained state.workers ∧
        state.numDrained ≤ state.numThreads) ∧
      ∀ (action : Action) (next : State) (client : Nat), NoStop action →
        FlagKept state action → step state action = some next →
        PauseReturns state action next client →
        ∀ later : State, Runs.Reachable (system.after next)
            (fun _ action => NoStop action ∧ NoUnpause action) later →
          ∀ worker ∈ later.workers, ∀ held, worker.pc ≠ .process held := by
  have whole : Runs.Reachable system (fun _ action => NoStop action) state :=
    reached.mono fun _ _ permitted => permitted.1
  have crewed := reachable_crewed (fun _ _ running => running) whole
  have counted := reachable_counted (fun _ _ running => running) whole
  have few := crewed.length_le
  constructor
  · have paused := total_le_length Worker.paused state.workers paused_le
    have drained := total_le_length Worker.drained state.workers drained_le
    have countPaused := counted.paused
    have countDrained := counted.drained
    exact ⟨countPaused, by omega, countDrained, by omega⟩
  · intro action next client running kept taken returns later between
    have after : Runs.Reachable system (fun _ action => NoStop action) next :=
      .next action whole running taken
    obtain ⟨full, flag, workers, size, threads⟩ := pauseReturns_full kept taken returns
    obtain ⟨inside, all⟩ := crewed.parked counted full
    have parked : Parked later := by
      apply between.invariant
      · intro current same
        rw [show current = next from same]
        exact ⟨fun _ => flag, by rw [workers]; exact inside, by rw [threads, size]; exact all⟩
      · intro current act following before parked permitted done
        have reachedHere : Runs.Reachable system (fun _ action => NoStop action) current :=
          after.append (before.mono fun _ _ permitted => permitted.1)
        exact (step_effect done).parked (step_live done) permitted.2
          (reachable_crewed (fun _ _ running => running) reachedHere) parked
    intro worker member held
    exact parked.outside member held

/-- One worker, which parks before the pause resumes. -/
theorem pause_holds_workers_run :
    ∃ state next : State, Runs.Reachable system
        (fun state action => NoStop action ∧ FlagKept state action) state ∧
      step state (.resume 0) = some next ∧ PauseReturns state (.resume 0) next 0 ∧
      state.numPaused = total Worker.paused state.workers ∧
      ∀ worker ∈ next.workers, ∀ held, worker.pc ≠ .process held := by
  obtain ⟨state, reached, passed⟩ := Runs.exists_of_replay
    (fun state action => NoStop action ∧ FlagKept state action)
    (show system.initial (State.initial 1 1) from ⟨1, 1, by decide, rfl⟩)
    [.setWq, .start, .work 0, .work 0, .pause 0, .work 0, .work 0]
    (fun state : State => decide (state.clients[0]? = some (Client.mk .pauseWoken 0) ∧
        FlagKept state (.resume 0)) &&
      (step state (.resume 0)).any fun next : State =>
        decide (next.aborted = false ∧ next.clients[0]? = some (Client.mk .idle 1)))
    (by decide +kernel)
  rw [Bool.and_eq_true, decide_eq_true_eq] at passed
  obtain ⟨next, taken, ends⟩ := (Option.any_eq_true _ _).mp passed.2
  rw [decide_eq_true_eq] at ends
  have returns : PauseReturns state (.resume 0) next 0 :=
    ⟨Or.inr ⟨rfl, 0, passed.1.1⟩, ends.1, 1, ends.2⟩
  obtain ⟨counters, outside⟩ := pause_holds_workers reached
  exact ⟨state, next, reached, taken, returns, counters.1,
    outside (.resume 0) next 0 trivial passed.1.2 taken returns next (.start rfl)⟩

/-- A second client pauses and unpauses while the first is about to resume. Then
the first pause returns, and the worker goes on to `_process`. -/
theorem pause_returns_unpaused :
    ∃ state next later : State, Runs.Reachable system (fun _ action => NoStop action) state ∧
      step state (.resume 0) = some next ∧ PauseReturns state (.resume 0) next 0 ∧
      Runs.Reachable (system.after next) (fun _ action => NoStop action ∧ NoUnpause action)
        later ∧
      ∃ worker ∈ later.workers, worker.pc = .process [] := by
  obtain ⟨state, reached, passed⟩ := Runs.exists_of_replay (fun _ action => NoStop action)
    (show system.initial (State.initial 1 2) from ⟨1, 2, by decide, rfl⟩)
    [.setWq, .start, .work 0, .work 0, .pause 0, .work 0, .work 0, .pause 1, .unpause 1]
    (fun state : State => decide (state.clients[0]? = some (Client.mk .pauseWoken 0)) &&
      (step state (.resume 0)).any fun next : State =>
        decide (next.aborted = false ∧ next.clients[0]? = some (Client.mk .idle 1)) &&
          (Runs.replay (system.after next) (fun _ action => NoStop action ∧ NoUnpause action)
            next [.work 0, .work 0]).any fun later : State =>
              decide (∃ worker ∈ later.workers, worker.pc = .process []))
    (by decide +kernel)
  rw [Bool.and_eq_true, decide_eq_true_eq] at passed
  obtain ⟨next, taken, ends⟩ := (Option.any_eq_true _ _).mp passed.2
  rw [Bool.and_eq_true, decide_eq_true_eq] at ends
  obtain ⟨later, replayed, busy⟩ := (Option.any_eq_true _ _).mp ends.2
  exact ⟨state, next, later, reached, taken,
    ⟨Or.inr ⟨rfl, 0, passed.1⟩, ends.1.1, 1, ends.1.2⟩,
    Runs.replay_reachable (.start rfl) replayed, of_decide_eq_true busy⟩

end BlueThread.ShardedThreadPool
