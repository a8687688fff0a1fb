/-
Clients inside `drain` while the pool is stopped.

A worker tells the waiting clients whenever it may have ended their wait. `stop`
ends waits as well, when it clears the queues, and tells nobody. So a client that
sleeps in `drain` at that moment, for one of the queues that are cleared, has
nothing to wait for afterwards and sleeps on.
-/

import BlueThread.ThreadPool.Lifecycle

namespace BlueThread.ThreadPool

open Population

variable {α : Type}

/-- The subclass of every queue empties its list in `_clear`. -/
def ClearOverridden : Action α → Prop
  | .newQueue overridesClear => overridesClear = true
  | _ => True

instance (action : Action α) : Decidable (ClearOverridden action) :=
  match action with
  | .newQueue overridesClear => inferInstanceAs (Decidable (overridesClear = true))
  | .work _ | .timeout _ | .spurious _ | .queue _ _ _ | .queueFront _ _ _ | .wake
  | .addWorkQueue _ | .removeWorkQueue _ | .start | .stop _ | .join _ | .clear _
  | .pause _ | .unpause _ | .drain _ _ | .resume _ => inferInstanceAs (Decidable True)

/-- Asleep in `drain` of one of the queues. -/
def Client.drainsOne (workQueues : List Nat) (client : Client) : Bool :=
  match client.pc with
  | .drainWait (some wq) => wq ∈ workQueues
  | _ => false

/-- `stop` clears the queues only when nobody sleeps in `drain` of one of them. -/
def ClearedUndrained (state : State α) : Action α → Prop
  | .clear _ => ∀ client ∈ state.clients, client.drainsOne state.workQueues = false
  | _ => True

instance (state : State α) (action : Action α) : Decidable (ClearedUndrained state action) :=
  match action with
  | .clear _ => inferInstanceAs (Decidable (∀ client ∈ state.clients, _))
  | .newQueue _ | .work _ | .timeout _ | .spurious _ | .queue _ _ _ | .queueFront _ _ _ | .wake
  | .addWorkQueue _ | .removeWorkQueue _ | .start | .stop _ | .join _
  | .pause _ | .unpause _ | .drain _ _ | .resume _ => inferInstanceAs (Decidable True)

/-- Whoever sleeps in `drain` and was not told has a reason to. -/
def DrainsNeeded (state : State α) : Prop :=
  ∀ (client : Nat) (wq : Option Nat) (pauses : Nat),
    state.clients[client]? = some ⟨.drainWait wq, pauses⟩ → mustDrain state wq = true

/-! ### Clearing -/

theorem clearQueues_other {queues : List (WorkQueue α)} {workQueues : List Nat} {wq : Nat}
    (unregistered : wq ∉ workQueues) : (clearQueues queues workQueues)[wq]? = queues[wq]? := by
  induction workQueues generalizing queues with
  | nil => rfl
  | cons head rest ih =>
      rw [List.mem_cons, not_or] at unregistered
      rw [clearQueues, ih unregistered.2, List.getElem?_modify_ne _ _ (Ne.symm unregistered.1)]

theorem clear_empties {queue : WorkQueue α} (empties : queue.overridesClear = true) :
    queue.clear.overridesClear = true ∧ queue.clear.items = [] := by
  unfold WorkQueue.clear
  rw [if_pos empties]
  exact ⟨empties, rfl⟩

theorem modify_clear_empties {queues : List (WorkQueue α)} {wq place : Nat} {after : WorkQueue α}
    (atPlace : (queues.modify wq WorkQueue.clear)[place]? = some after) :
    ∃ before, queues[place]? = some before ∧
      (wq = place ∧ after = before.clear ∨ wq ≠ place ∧ after = before) := by
  by_cases same : wq = place
  · subst place
    rw [List.getElem?_modify_eq] at atPlace
    obtain ⟨before, found, cleared⟩ := Option.map_eq_some_iff.mp atPlace
    exact ⟨before, found, Or.inl ⟨rfl, cleared.symm⟩⟩
  · rw [List.getElem?_modify_ne _ _ same] at atPlace
    exact ⟨after, atPlace, Or.inr ⟨same, rfl⟩⟩

theorem modify_clear_overrides {queues : List (WorkQueue α)} {wq : Nat}
    (empties : ∀ queue ∈ queues, queue.overridesClear = true) :
    ∀ queue ∈ queues.modify wq WorkQueue.clear, queue.overridesClear = true := by
  intro one member
  obtain ⟨place, atPlace⟩ := List.mem_iff_getElem?.mp member
  obtain ⟨before, found, change⟩ := modify_clear_empties atPlace
  have overrides := empties before (List.mem_of_getElem? found)
  rcases change with ⟨_, rfl⟩ | ⟨_, rfl⟩
  · exact (clear_empties overrides).1
  · exact overrides

/-- A queue whose `_clear` empties its list is empty after it was cleared, and
stays empty while the other queues are cleared. -/
theorem clearQueues_items {queues : List (WorkQueue α)} {workQueues : List Nat} {wq : Nat}
    {queue : WorkQueue α} (empties : ∀ queue ∈ queues, queue.overridesClear = true)
    (cleared : wq ∈ workQueues ∨ ∀ before, queues[wq]? = some before → before.items = [])
    (atQueue : (clearQueues queues workQueues)[wq]? = some queue) : queue.items = [] := by
  induction workQueues generalizing queues with
  | nil =>
      rcases cleared with registered | empty
      · cases registered
      · exact empty queue atQueue
  | cons head rest ih =>
      rw [clearQueues] at atQueue
      refine ih (modify_clear_overrides empties) ?_ atQueue
      by_cases later : wq ∈ rest
      · exact Or.inl later
      · right
        intro one atOne
        obtain ⟨before, found, change⟩ := modify_clear_empties atOne
        rcases change with ⟨_, rfl⟩ | ⟨elsewhere, rfl⟩
        · exact (clear_empties (empties before (List.mem_of_getElem? found))).2
        · rcases cleared with registered | empty
          · rcases List.mem_cons.mp registered with here | there
            · exact absurd here.symm elsewhere
            · exact absurd there later
          · exact empty one found

/-- Every queue was made by a subclass that overrides `_clear`. -/
def AllOverride (state : State α) : Prop :=
  ∀ queue ∈ state.queues, queue.overridesClear = true

theorem Pass.overrides {wq : Nat} {queue after : WorkQueue α} {pc next : WorkerPc α}
    (pass : Pass wq queue pc after next) : after.overridesClear = queue.overridesClear := by
  cases pass with
  | start popped =>
      obtain ⟨rest, _, rfl⟩ := WorkQueue.popToProcess_eq_some popped
      rfl
  | returned => rfl
  | push => rfl
  | finish popped =>
      obtain ⟨rest, _, rfl⟩ := WorkQueue.popToFinish_eq_some popped
      rfl

theorem voidDequeue_overrides {queue after : WorkQueue α}
    (dequeued : queue.voidDequeue = some after) :
    after.overridesClear = queue.overridesClear := by
  obtain ⟨item, rest, _, rfl⟩ := WorkQueue.voidDequeue_eq_some dequeued
  rfl

theorem clearQueues_overrides {queues : List (WorkQueue α)} (workQueues : List Nat)
    (empties : ∀ queue ∈ queues, queue.overridesClear = true) :
    ∀ queue ∈ clearQueues queues workQueues, queue.overridesClear = true := by
  induction workQueues generalizing queues with
  | nil => exact empties
  | cons head rest ih =>
      rw [clearQueues]
      exact ih (modify_clear_overrides empties)

theorem Effect.allOverride {state next : State α} {action : Action α}
    (effect : Effect state action next) (overridden : ClearOverridden action)
    (empties : AllOverride state) : AllOverride next := by
  have kept {wq : Nat} {queue after : WorkQueue α} (atQueue : state.queues[wq]? = some queue)
      (same : after.overridesClear = queue.overridesClear) :
      ∀ one ∈ state.queues.set wq after, one.overridesClear = true := by
    intro one member
    rcases List.mem_or_eq_of_mem_set member with old | rfl
    · exact empties one old
    · exact same.trans (empties queue (List.mem_of_getElem? atQueue))
  cases effect with
  | dequeue found live unpaused left registered atQueue dequeued =>
      exact kept atQueue (voidDequeue_overrides dequeued)
  | pass found atQueue pass => exact kept atQueue pass.overrides
  | done found atQueue clients told => exact kept atQueue rfl
  | insert atQueue inserted notified => exact kept atQueue (by cases inserted <;> rfl)
  | newQueue overridesClear asked =>
      subst asked
      intro queue member
      rcases List.mem_append.mp member with old | new
      · exact empties queue old
      · rw [List.mem_singleton.mp new]
        exact overridden
  | clear asked found => exact clearQueues_overrides state.workQueues empties
  | _ => exact empties

/-! ### Steps -/

theorem mustDrain_busy {state : State α} (busy : state.processing ≠ 0) (wq : Option Nat) :
    mustDrain state wq = true :=
  mustWait_busy busy ⟨.drainWait wq, 0⟩

theorem drainWait_of_notify {client : Client} {wq : Option Nat}
    (asleep : client.notify.pc = .drainWait wq) : False := by
  obtain ⟨pc, pauses⟩ := client
  cases pc <;> cases asleep

theorem DrainsNeeded.clear {state : State α} {client pauses : Nat}
    (needed : DrainsNeeded state)
    (undrained : ∀ one ∈ state.clients, one.drainsOne state.workQueues = false) :
    DrainsNeeded
      { state.setClient client .idle pauses with
        queues := clearQueues state.queues state.workQueues
        stop := false } := by
  intro place wq count atPlace
  have before : state.clients[place]? = some ⟨.drainWait wq, count⟩ := by
    change (state.clients.set client ⟨.idle, pauses⟩)[place]? = _ at atPlace
    rw [List.getElem?_set] at atPlace
    split_ifs at atPlace
    · cases atPlace
    · exact atPlace
  have waits := needed place wq count before
  cases wq with
  | none => exact waits
  | some wq =>
      have elsewhere : wq ∉ state.workQueues := by
        have outside := undrained _ (List.mem_of_getElem? before)
        simpa [Client.drainsOne] using outside
      rw [mustDrain] at waits ⊢
      change (decide (state.processing ≠ 0) ||
        ((clearQueues state.queues state.workQueues)[wq]?).any _) = true
      rw [clearQueues_other elsewhere]
      exact waits

theorem Effect.drainsNeeded {state next : State α} {action : Action α}
    (effect : Effect state action next)
    (accounts : Accounts state.queues state.workers state.processing)
    (counted : state.draining = total Client.drains state.clients)
    (undrained : ClearedUndrained state action) (needed : DrainsNeeded state) :
    DrainsNeeded next := by
  have processing := accounts.processing
  have moved {client : Nat} {old new : Client} (found : state.clients[client]? = some old)
      (waits : ∀ wq, new.pc = .drainWait wq → mustDrain state wq = true) :
      ∀ (place : Nat) (wq : Option Nat) (pauses : Nat),
        (state.clients.set client new)[place]? = some ⟨.drainWait wq, pauses⟩ →
        mustDrain state wq = true := by
    intro place wq pauses atPlace
    rcases getElem?_set_cases found atPlace with ⟨_, rfl⟩ | ⟨_, before⟩
    · exact waits wq rfl
    · exact needed place wq pauses before
  cases effect with
  | dequeue found live unpaused left registered atQueue dequeued =>
      intro place wq pauses _
      have busy : state.processing + 1 ≠ 0 := by omega
      exact mustDrain_busy busy wq
  | pass found atQueue pass =>
      intro place wq pauses atPlace
      exact @mustWait_set α state _ ⟨.drainWait wq, pauses⟩ _ _ _ (needed place wq pauses atPlace)
        atQueue (by rw [pass.items.1]; exact id) rfl rfl
  | done found atQueue clients told =>
      subst told
      intro place wq pauses atPlace
      change (ite _ _ _ : List Client)[place]? = _ at atPlace
      split_ifs at atPlace with asked
      · rw [List.getElem?_map, Option.map_eq_some_iff] at atPlace
        obtain ⟨before, _, notified⟩ := atPlace
        exact (drainWait_of_notify (congrArg Client.pc notified)).elim
      · have one := le_total Client.drains atPlace
        change 1 ≤ _ at one
        rw [not_or, not_ne_iff, not_ne_iff] at asked
        omega
  | spurious found =>
      exact moved found (fun wq asleep => (drainWait_of_notify asleep).elim)
  | @insert wq queue after workers atQueue inserted notified =>
      intro place other pauses atPlace
      have larger := size_insert inserted
      refine @mustWait_set α state _ ⟨.drainWait other, pauses⟩ _ _ _
        (needed place other pauses atPlace) atQueue ?_ rfl rfl
      intro _ empty
      rw [WorkQueue.size, empty] at larger
      cases larger
  | newQueue overridesClear =>
      intro place wq pauses atPlace
      refine @mustWait_grow α state _ ⟨.drainWait wq, pauses⟩ (needed place wq pauses atPlace)
        rfl ?_
      intro other queue atQueue filled
      have inside := (List.getElem?_eq_some_iff.mp atQueue).1
      exact ⟨queue, (List.getElem?_append_left inside).trans atQueue, filled⟩
  | stop asked found alone =>
      refine moved found ?_
      intro wq asleep
      cases asleep
  | join found =>
      refine moved found ?_
      intro wq asleep
      cases asleep
  | clear asked found =>
      subst asked
      exact needed.clear undrained
  | pauseBlock found entry busy =>
      refine moved found ?_
      intro wq asleep
      cases asleep
  | pauseReturn found entry quiet =>
      refine moved found ?_
      intro wq asleep
      cases asleep
  | unpause asked found =>
      refine moved found ?_
      intro wq asleep
      cases asleep
  | drainBlock found entry busy =>
      refine moved found ?_
      intro wq asleep
      cases asleep
      exact busy
  | drainReturn found entry quiet =>
      refine moved found ?_
      intro wq asleep
      cases asleep
  | _ => exact needed

/-! ### Runs -/

section Reached

variable {discipline : State α → Action α → Prop} {state : State α}

theorem reachable_allOverride
    (overridden : ∀ state action, discipline state action → ClearOverridden action)
    (reached : Runs.Reachable (system α) discipline state) : AllOverride state := by
  apply reached.invariant
  · rintro current ⟨numThreads, clients, rfl⟩
    exact nofun
  · intro current action following _ empties permitted taken
    exact (step_effect taken).allOverride (overridden current action permitted) empties

theorem reachable_drainsNeeded
    (undrained : ∀ state action, discipline state action → ClearedUndrained state action)
    (reached : Runs.Reachable (system α) discipline state) : DrainsNeeded state := by
  apply reached.invariant
  · rintro current ⟨numThreads, clients, rfl⟩ client wq pauses found
    cases List.eq_of_mem_replicate (List.mem_of_getElem? found)
  · intro current action following before needed permitted taken
    exact (step_effect taken).drainsNeeded (reachable_accounts before)
      (reachable_draining before) (undrained current action permitted) needed

end Reached

theorem undrained_of_drainsNeeded {state next : State α} {client : Nat}
    (empties : AllOverride state) (quiet : state.processing = 0)
    (taken : step state (.clear client) = some next) (needed : DrainsNeeded next) :
    ClearedUndrained state (.clear client) := by
  obtain ⟨pauses, found, rfl⟩ := clear_cases taken
  intro one member
  obtain ⟨place, atPlace⟩ := List.mem_iff_getElem?.mp member
  obtain ⟨pc, count⟩ := one
  unfold Client.drainsOne
  split
  · rename_i wq asleep
    rw [show pc = .drainWait (some wq) from asleep] at atPlace
    have apart : client ≠ place := by
      intro same
      subst place
      rw [found] at atPlace
      cases atPlace
    have after := needed place (some wq) count ((List.getElem?_set_ne apart).trans atPlace)
    apply decide_eq_false
    intro registered
    simp only [mustDrain, Bool.or_eq_true, decide_eq_true_eq, Option.any_eq_true] at after
    rcases after with busy | ⟨queue, atQueue, filled⟩
    · exact busy quiet
    · rw [clearQueues_items empties (Or.inl registered) atQueue] at filled
      cases filled
  · rfl

/-- Nobody is left asleep in `drain` without a reason, as long as `stop` clears
the queues only when nobody sleeps for one of them. A `stop` that does otherwise,
after it has joined the workers, leaves somebody. -/
theorem drainers_not_stranded {state : State α}
    (reached : Runs.Reachable (system α)
      (fun state action => ClearOverridden action ∧ ClearedUndrained state action) state) :
    DrainsNeeded state ∧
      ∀ (client : Nat) (next : State α), state.processing = 0 →
        step state (.clear client) = some next →
        (DrainsNeeded next ↔ ClearedUndrained state (.clear client)) := by
  have needed := reachable_drainsNeeded (fun _ _ permitted => permitted.2) reached
  have empties := reachable_allOverride (fun _ _ permitted => permitted.1) reached
  refine ⟨needed, ?_⟩
  intro client next quiet taken
  constructor
  · exact undrained_of_drainsNeeded empties quiet taken
  · intro undrained
    exact (step_effect taken).drainsNeeded (reachable_accounts reached)
      (reachable_draining reached) undrained needed

/-- In a second cycle, the drainer was told by the last worker and fell asleep
again before the queue is cleared. -/
theorem drainers_not_stranded_run :
    ∃ state : State Nat, Runs.Reachable (system Nat)
        (fun state action => ClearOverridden action ∧ ClearedUndrained state action) state ∧
      state.clients[1]? = some ⟨.drainWait (some 0), 0⟩ ∧ mustDrain state (some 0) = true := by
  obtain ⟨state, reached, passed⟩ := Runs.exists_of_replay
    (fun state action => ClearOverridden action ∧ ClearedUndrained state action)
    (show (system Nat).initial (State.initial 1 2) from ⟨1, 2, rfl⟩)
    ([.newQueue true, .stop 0, .join 0, .clear 0, .start, .queue 0 7 none, .queue 0 8 none,
      .work 0, .work 0, .drain 1 (some 0), .stop 0] ++ List.replicate 7 (.work 0) ++ [.resume 1])
    (fun state : State Nat => decide (state.clients[1]? =
      some (Client.mk (.drainWait (some 0)) 0)))
    (by decide +kernel)
  have found := of_decide_eq_true passed
  exact ⟨state, reached, found, (drainers_not_stranded reached).1 1 (some 0) 0 found⟩

/-- Then `stop` returns, and the drainer sleeps for an empty queue. -/
theorem drainer_stranded_by_stop :
    ∃ state : State Nat, Runs.Reachable (system Nat)
        (fun _ action => ClearOverridden action) state ∧
      state.clients = [⟨.idle, 0⟩, ⟨.drainWait (some 0), 0⟩] ∧ state.threads = [] ∧
      state.stop = false ∧ mustDrain state (some 0) = false := by
  obtain ⟨state, reached, passed⟩ := Runs.exists_of_replay
    (fun _ action => ClearOverridden action)
    (show (system Nat).initial (State.initial 1 2) from ⟨1, 2, rfl⟩)
    ([.newQueue true, .start, .queue 0 7 none, .queue 0 8 none, .work 0, .work 0,
      .drain 1 (some 0), .stop 0] ++ List.replicate 7 (.work 0) ++ [.resume 1, .join 0, .clear 0])
    (fun state : State Nat => decide (state.clients =
      [⟨.idle, 0⟩, ⟨.drainWait (some 0), 0⟩] ∧ state.threads = [] ∧ state.stop = false ∧
        mustDrain state (some 0) = false))
    (by decide +kernel)
  obtain ⟨clients, threads, live, empty⟩ := of_decide_eq_true passed
  exact ⟨state, reached, clients, threads, live, empty⟩

end BlueThread.ThreadPool
