/-
`drain` and `pause` as barriers.

A drain that returns has seen no item in progress and none in the list, so the
account of its queue is closed. A pause that returned keeps `_pause` positive
until it is undone; meanwhile no worker dequeues, and what was in progress had
ended before the pause returned.
-/

import BlueThread.ThreadPool.Accounting

namespace BlueThread.ThreadPool

open Population

variable {α : Type}

/-! ### Drain -/

theorem Accounts.idle {queues : List (WorkQueue α)} {workers : List (WorkerPc α)}
    (accounts : Accounts queues workers 0) (pc : WorkerPc α) (member : pc ∈ workers) :
    pc.queue? = none := by
  have none : total WorkerPc.busy workers = 0 := by
    have counted := accounts.processing
    omega
  obtain ⟨worker, found⟩ := List.mem_iff_getElem?.mp member
  have idle := eq_zero_of_total_eq_zero WorkerPc.busy none found
  unfold WorkerPc.busy at idle
  cases about : pc.queue? with
  | none => rfl
  | some wq =>
      rw [about] at idle
      cases idle

theorem Accounts.closed {queues : List (WorkQueue α)} {workers : List (WorkerPc α)}
    (accounts : Accounts queues workers 0) {wq : Nat} {queue : WorkQueue α}
    (atQueue : queues[wq]? = some queue) :
    (queue.enqueued : Multiset α) = queue.items + queue.completed + queue.discarded ∧
      (queue.completed : Multiset α) = queue.returned := by
  have balanced := accounts.balanced wq queue atQueue
  have silent (pc : WorkerPc α) (member : pc ∈ workers) :=
    silent_elsewhere pc wq (accounts.idle pc member ▸ nofun)
  have toProcess := balanced.toProcess
  rw [total_eq_zero _ (fun pc member => (silent pc member).1)] at toProcess
  have toFinish := balanced.toFinish
  rw [total_eq_zero _ (fun pc member => (silent pc member).2.1)] at toFinish
  have started := balanced.started
  rw [total_eq_zero _ (fun pc member => (silent pc member).2.2.1), zero_add] at started
  have returned := balanced.returned
  rw [total_eq_zero _ (fun pc member => (silent pc member).2.2.2.1), zero_add,
    List.eq_nil_of_length_eq_zero toFinish, Multiset.coe_nil, zero_add] at returned
  have passed := balanced.passed
  rw [total_eq_zero _ (fun pc member => (silent pc member).2.2.2.2), zero_add] at passed
  refine ⟨?_, (returned.trans passed).symm⟩
  rw [balanced.enqueued, List.eq_nil_of_length_eq_zero toProcess, started, returned, passed,
    Multiset.coe_nil, add_zero]

/-- The step at which a call `drain(wq)` of the client finds its loop condition
false and returns. -/
def DrainReturns (state : State α) (action : Action α) (next : State α) (client wq : Nat) : Prop :=
  (action = .drain client (some wq) ∨
      action = .resume client ∧
        ∃ pauses, state.clients[client]? = some ⟨.drainWoken (some wq), pauses⟩) ∧
    ∃ pauses, next.clients[client]? = some ⟨.idle, pauses⟩

theorem drainLoop_idle {state : State α} {client pauses later : Nat} {wq : Option Nat}
    {draining : Int} (inside : client < state.clients.length)
    (idle : (drainLoop { state with draining := draining } client pauses wq).clients[client]? =
      some ⟨.idle, later⟩) :
    mustDrain state wq = false ∧
      (drainLoop { state with draining := draining } client pauses wq).queues = state.queues := by
  have same : mustDrain { state with draining := draining } wq = mustDrain state wq := by
    cases wq <;> rfl
  unfold drainLoop at idle ⊢
  rw [same] at idle ⊢
  split_ifs at idle ⊢ with busy
  · change (state.clients.set client ⟨.drainWait wq, pauses⟩)[client]? = _ at idle
    rw [List.getElem?_set_self inside] at idle
    cases idle
  · exact ⟨Bool.eq_false_iff.mpr busy, rfl⟩

theorem drainReturns_test {state next : State α} {action : Action α} {client wq : Nat}
    (taken : step state action = some next)
    (returns : DrainReturns state action next client wq) :
    mustDrain state (some wq) = false ∧ next.queues = state.queues := by
  obtain ⟨call, later, idle⟩ := returns
  unfold step at taken
  split at taken
  · cases taken
  · rcases call with rfl | ⟨rfl, pauses, found⟩
    · change (if state.lock = none then clientStep state (.drain client (some wq)) else none) =
        some next at taken
      split_ifs at taken
      obtain ⟨pauses, called, rfl⟩ := Option.map_eq_some_iff.mp taken
      exact drainLoop_idle (List.getElem?_eq_some_iff.mp (caller?_eq_some called)).1 idle
    · change (if state.lock = none then clientStep state (.resume client) else none) =
        some next at taken
      split_ifs at taken
      rw [clientStep, found] at taken
      simp only [Option.some.injEq] at taken
      subst taken
      change (drainLoop { state with draining := state.draining } client pauses
        (some wq)).clients[client]? = _ at idle
      exact drainLoop_idle (List.getElem?_eq_some_iff.mp found).1 idle

theorem mustDrain_false {state : State α} {wq : Nat} (test : mustDrain state (some wq) = false) :
    state.processing = 0 ∧ ∀ queue, state.queues[wq]? = some queue → queue.items = [] := by
  simp only [mustDrain, Bool.or_eq_false_iff, decide_eq_false_iff_not, not_not] at test
  refine ⟨test.1, ?_⟩
  intro queue atQueue
  have empty := test.2
  rw [atQueue] at empty
  simpa using empty

/-- The counter counts the busy workers in every state, and when a drain
returns, everything that was inserted is completed or was discarded. -/
theorem drain_completes {state : State α}
    (reached : Runs.Reachable (system α) (fun _ _ => True) state) :
    (state.processing = total WorkerPc.busy state.workers ∧ 0 ≤ state.processing) ∧
      ∀ (action : Action α) (next : State α) (client wq : Nat) (queue : WorkQueue α),
        step state action = some next → DrainReturns state action next client wq →
        next.queues[wq]? = some queue →
        (queue.enqueued : Multiset α) = queue.completed + queue.discarded ∧
          (queue.completed : Multiset α) = queue.returned := by
  have accounts := reachable_accounts reached
  have counted := accounts.processing
  refine ⟨⟨counted, by omega⟩, ?_⟩
  intro action next client wq queue taken returns atQueue
  obtain ⟨test, queues⟩ := drainReturns_test taken returns
  obtain ⟨none, empty⟩ := mustDrain_false test
  rw [queues] at atQueue
  rw [none] at accounts
  obtain ⟨closed, completed⟩ := accounts.closed atQueue
  rw [empty queue atQueue, Multiset.coe_nil, zero_add] at closed
  exact ⟨closed, completed⟩

/-- A drain of a queue whose only item went through both calls. -/
theorem drain_completes_run :
    ∃ (state : State Nat) (next : State Nat) (queue : WorkQueue Nat),
      Runs.Reachable (system Nat) (fun _ _ => True) state ∧
        step state (.drain 0 (some 0)) = some next ∧
        DrainReturns state (.drain 0 (some 0)) next 0 0 ∧ next.queues[0]? = some queue ∧
        queue.enqueued = [7] ∧
        (queue.enqueued : Multiset Nat) = queue.completed + queue.discarded := by
  obtain ⟨state, reached, passed⟩ := Runs.exists_of_replay (fun _ _ => True)
    (show (system Nat).initial (State.initial 1 1) from ⟨1, 1, rfl⟩)
    ([.newQueue false, .queue 0 7 none, .start] ++ List.replicate 9 (.work 0))
    (fun state : State Nat => (step state (.drain 0 (some 0))).any fun next : State Nat =>
      decide (next.clients[0]? = some (Client.mk .idle 0)) &&
        (next.queues[0]?).any fun queue : WorkQueue Nat => decide (queue.enqueued = [7]))
    (by decide +kernel)
  obtain ⟨next, taken, ends⟩ := (Option.any_eq_true _ _).mp passed
  rw [Bool.and_eq_true, decide_eq_true_eq] at ends
  obtain ⟨queue, atQueue, queued⟩ := (Option.any_eq_true _ _).mp ends.2
  have returns : DrainReturns state (.drain 0 (some 0)) next 0 0 :=
    ⟨Or.inl rfl, 0, ends.1⟩
  exact ⟨state, next, queue, reached, taken, returns, atQueue, of_decide_eq_true queued,
    ((drain_completes reached).2 _ next 0 0 queue taken returns atQueue).1⟩

/-! ### Pause -/

/-- The pauses that a client has outstanding, one that still waits included. -/
def Client.pausing (client : Client) : Nat :=
  match client.pc with
  | .pauseWait => client.pauses + 1
  | .pauseWoken => client.pauses + 1
  | _ => client.pauses

def Client.drains (client : Client) : Nat :=
  match client.pc with
  | .drainWait _ => 1
  | .drainWoken _ => 1
  | _ => 0

/-- Every client undoes only pauses of its own that returned. -/
def Matched (state : State α) : Action α → Prop
  | .unpause client => ∀ one ∈ state.clients[client]?, 0 < one.pauses
  | _ => True

instance (state : State α) (action : Action α) : Decidable (Matched state action) :=
  match action with
  | .unpause _ => inferInstanceAs (Decidable (∀ one ∈ _, _))
  | .work _ | .timeout _ | .spurious _ | .queue _ _ _ | .queueFront _ _ _ | .wake
  | .newQueue _ | .addWorkQueue _ | .removeWorkQueue _ | .start | .stop _ | .join _ | .clear _
  | .pause _ | .drain _ _ | .resume _ => inferInstanceAs (Decidable True)

structure Census (pause draining : Int) (clients : List Client) : Prop where
  pause : pause = total Client.pausing clients
  draining : draining = total Client.drains clients

theorem count_set (observe : Client → Nat) {count count' : Int} {clients : List Client}
    {client : Nat} {old new : Client} (counted : count = total observe clients)
    (found : clients[client]? = some old) (moved : count' + observe old = count + observe new) :
    count' = total observe (clients.set client new) := by
  have sums := total_set observe new found
  omega

theorem pausing_notify (client : Client) :
    client.notify.pausing = client.pausing ∧ client.notify.drains = client.drains := by
  obtain ⟨pc, pauses⟩ := client
  cases pc <;> exact ⟨rfl, rfl⟩

theorem Effect.draining {state next : State α} {action : Action α}
    (effect : Effect state action next)
    (counted : state.draining = total Client.drains state.clients) :
    next.draining = total Client.drains next.clients := by
  cases effect with
  | done found atQueue clients told =>
      subst told
      split_ifs
      · rw [total_map_same _ _ _ (fun client => (pausing_notify client).2)]
        exact counted
      · exact counted
  | @spurious client one found =>
      exact count_set _ counted found (by rw [← (pausing_notify one).2]; rfl)
  | stop asked found alone => exact count_set _ counted found rfl
  | join found => exact count_set _ counted found rfl
  | clear asked found => exact count_set _ counted found rfl
  | pauseBlock found entry busy => exact count_set _ counted found (by cases entry <;> rfl)
  | pauseReturn found entry quiet => exact count_set _ counted found (by cases entry <;> rfl)
  | unpause asked found => exact count_set _ counted found rfl
  | drainBlock found entry busy =>
      cases entry with
      | call => exact count_set _ counted found (by simp only [Client.drains]; omega)
      | resumed => exact count_set _ counted found (by simp only [Client.drains]; omega)
  | drainReturn found entry quiet =>
      cases entry with
      | call => exact count_set _ counted found (by simp only [Client.drains]; omega)
      | resumed => exact count_set _ counted found (by simp only [Client.drains]; omega)
  | _ => exact counted

theorem Effect.pausing {state next : State α} {action : Action α}
    (effect : Effect state action next) (matched : Matched state action)
    (counted : state.pause = total Client.pausing state.clients) :
    next.pause = total Client.pausing next.clients := by
  cases effect with
  | done found atQueue clients told =>
      subst told
      split_ifs
      · rw [total_map_same _ _ _ (fun client => (pausing_notify client).1)]
        exact counted
      · exact counted
  | @spurious client one found =>
      exact count_set _ counted found (by rw [← (pausing_notify one).1]; rfl)
  | stop asked found alone => exact count_set _ counted found rfl
  | join found => exact count_set _ counted found rfl
  | clear asked found => exact count_set _ counted found rfl
  | pauseBlock found entry busy =>
      cases entry with
      | call => exact count_set _ counted found (by simp only [Client.pausing]; omega)
      | resumed => exact count_set _ counted found (by simp only [Client.pausing]; omega)
  | pauseReturn found entry quiet =>
      cases entry with
      | call => exact count_set _ counted found (by simp only [Client.pausing]; omega)
      | resumed => exact count_set _ counted found (by simp only [Client.pausing]; omega)
  | @unpause client pauses asked found =>
      subst asked
      have positive : 0 < pauses := matched ⟨.idle, pauses⟩ found
      exact count_set _ counted found (by simp only [Client.pausing]; omega)
  | drainBlock found entry busy => exact count_set _ counted found (by cases entry <;> rfl)
  | drainReturn found entry quiet => exact count_set _ counted found (by cases entry <;> rfl)
  | _ => exact counted

theorem Effect.census {state next : State α} {action : Action α}
    (effect : Effect state action next) (matched : Matched state action)
    (census : Census state.pause state.draining state.clients) :
    Census next.pause next.draining next.clients :=
  ⟨effect.pausing matched census.pause, effect.draining census.draining⟩

theorem Census.initial (clients : Nat) :
    Census 0 0 (List.replicate clients ⟨.idle, 0⟩) := by
  refine ⟨?_, ?_⟩
  · rw [total_replicate Client.pausing clients _ rfl]
    rfl
  · rw [total_replicate Client.drains clients _ rfl]
    rfl

theorem reachable_draining {discipline : State α → Action α → Prop} {state : State α}
    (reached : Runs.Reachable (system α) discipline state) :
    state.draining = total Client.drains state.clients := by
  apply reached.invariant
  · rintro current ⟨numThreads, clients, rfl⟩
    exact (Census.initial clients).draining
  · intro current action following _ counted _ taken
    exact (step_effect taken).draining counted

theorem reachable_census {discipline : State α → Action α → Prop}
    (matched : ∀ state action, discipline state action → Matched state action)
    {state : State α} (reached : Runs.Reachable (system α) discipline state) :
    Census state.pause state.draining state.clients := by
  apply reached.invariant
  · rintro current ⟨numThreads, clients, rfl⟩
    exact Census.initial clients
  · intro current action following _ census permitted taken
    exact (step_effect taken).census (matched current action permitted) census

def Excluded (state : State α) : Prop :=
  ∀ (client : Nat) (one : Client), state.clients[client]? = some one → 0 < one.pauses →
    state.processing = 0

theorem Census.paused {pause draining : Int} {clients : List Client} {client : Nat}
    {one : Client} (census : Census pause draining clients)
    (found : clients[client]? = some one) (outstanding : 0 < one.pauses) : pause ≠ 0 := by
  have counted := le_total Client.pausing found
  have own : one.pauses ≤ one.pausing := by
    unfold Client.pausing
    split <;> omega
  have sum := census.pause
  omega

theorem Excluded.set {state : State α} {clients : List Client} {client : Nat} {old new : Client}
    (excluded : ∀ (client : Nat) (one : Client), clients[client]? = some one → 0 < one.pauses →
      state.processing = 0)
    (found : clients[client]? = some old) (fewer : new.pauses ≤ old.pauses) :
    ∀ (other : Nat) (one : Client), (clients.set client new)[other]? = some one →
      0 < one.pauses → state.processing = 0 := by
  intro other one atOther outstanding
  rcases getElem?_set_cases found atOther with ⟨rfl, rfl⟩ | ⟨_, elsewhere⟩
  · exact excluded client old found (by omega)
  · exact excluded other one elsewhere outstanding

theorem Effect.excluded {state next : State α} {action : Action α}
    (effect : Effect state action next)
    (accounts : Accounts state.queues state.workers state.processing)
    (census : Census state.pause state.draining state.clients) (excluded : Excluded state) :
    Excluded next := by
  cases effect with
  | dequeue found live unpaused left registered atQueue dequeued =>
      intro client one atClient outstanding
      exact absurd unpaused (census.paused atClient outstanding)
  | @done worker wq queue item found atQueue clients told =>
      -- The worker is busy, so no returned pause is outstanding.
      have counted := le_total WorkerPc.busy found
      have one : (WorkerPc.inFinish wq item).busy = 1 := rfl
      have sum := accounts.processing
      intro client notified atClient outstanding
      exfalso
      have source : ∃ before, state.clients[client]? = some before ∧ 0 < before.pauses := by
        change clients[client]? = some notified at atClient
        subst told
        split_ifs at atClient
        · rw [List.getElem?_map, Option.map_eq_some_iff] at atClient
          obtain ⟨before, atBefore, rfl⟩ := atClient
          exact ⟨before, atBefore, outstanding⟩
        · exact ⟨notified, atClient, outstanding⟩
      obtain ⟨before, atBefore, positive⟩ := source
      have none := excluded client before atBefore positive
      omega
  | spurious found => exact Excluded.set excluded found (Nat.le_refl _)
  | stop asked found alone => exact Excluded.set excluded found (Nat.le_refl _)
  | join found => exact Excluded.set excluded found (Nat.le_refl _)
  | clear asked found => exact Excluded.set excluded found (Nat.le_refl _)
  | pauseBlock found entry busy => exact Excluded.set excluded found (Nat.le_refl _)
  | pauseReturn found entry quiet => exact fun _ _ _ _ => quiet
  | unpause asked found => exact Excluded.set excluded found (Nat.sub_le _ _)
  | drainBlock found entry busy => exact Excluded.set excluded found (Nat.le_refl _)
  | drainReturn found entry quiet => exact Excluded.set excluded found (Nat.le_refl _)
  | _ => exact excluded

theorem reachable_excluded {discipline : State α → Action α → Prop}
    (matched : ∀ state action, discipline state action → Matched state action)
    {state : State α} (reached : Runs.Reachable (system α) discipline state) :
    Excluded state := by
  apply reached.invariant
  · rintro current ⟨numThreads, clients, rfl⟩ client one found outstanding
    rfl
  · intro current action following before excluded _ taken
    exact (step_effect taken).excluded (reachable_accounts before)
      (reachable_census matched before) excluded

theorem work_paused {state next : State α} {worker : Nat} {pc : WorkerPc α}
    (outside : pc.queue? = none) (paused : state.pause ≠ 0)
    (done : work state worker pc = some next) :
    next.queues = state.queues ∧ next.processing = state.processing := by
  cases pc with
  | starting =>
      rw [work] at done
      split_ifs at done
      rw [Option.some.injEq] at done
      subst done
      exact ⟨rfl, rfl⟩
  | top =>
      rw [work, Option.some.injEq] at done
      subst done
      unfold workerTop
      split_ifs
      · exact ⟨rfl, rfl⟩
      · exact ⟨rfl, rfl⟩
      · exact ⟨rfl, rfl⟩
  | woken =>
      rw [work] at done
      split_ifs at done
      rw [Option.some.injEq] at done
      subst done
      exact ⟨rfl, rfl⟩
  | waiting => cases done
  | finished => cases done
  | _ => cases outside

/-- Between the return of a client's pause and its unpause nothing is in
progress, and no step of a worker takes an item. -/
theorem pause_excludes {state : State α} {client : Nat} {one : Client}
    (reached : Runs.Reachable (system α) Matched state)
    (found : state.clients[client]? = some one) (outstanding : 0 < one.pauses) :
    state.processing = 0 ∧
      (∀ pc ∈ state.workers, ∀ wq item, pc ≠ .inProcess wq item ∧ pc ≠ .inFinish wq item) ∧
      ∀ worker next, step state (.work worker) = some next →
        next.queues = state.queues ∧ next.processing = 0 := by
  have accounts := reachable_accounts reached
  have census := reachable_census (fun _ _ permitted => permitted) reached
  have quiet : state.processing = 0 :=
    reachable_excluded (fun _ _ permitted => permitted) reached client one found outstanding
  rw [quiet] at accounts
  refine ⟨quiet, ?_, ?_⟩
  · intro pc member wq item
    have outside := accounts.idle pc member
    constructor
    · rintro rfl
      cases outside
    · rintro rfl
      cases outside
  · intro worker next taken
    unfold step at taken
    split at taken
    · cases taken
    · obtain ⟨pc, atWorker, worked⟩ := Option.bind_eq_some_iff.mp taken
      have outside := accounts.idle pc (List.mem_of_getElem? atWorker)
      have kept := work_paused outside (census.paused found outstanding) worked
      exact ⟨kept.1, kept.2.trans quiet⟩

/-- The pause waits for the item in progress; when it returned, another item is
waiting and the worker sleeps. -/
theorem pause_excludes_run :
    ∃ (state : State Nat) (one : Client), Runs.Reachable (system Nat) Matched state ∧
      state.clients[0]? = some one ∧ 0 < one.pauses ∧
      (∃ queue, state.queues[0]? = some queue ∧ queue.items = [8]) ∧ state.processing = 0 := by
  obtain ⟨state, reached, passed⟩ := Runs.exists_of_replay Matched
    (show (system Nat).initial (State.initial 1 1) from ⟨1, 1, rfl⟩)
    ([.newQueue false, .queue 0 7 none, .start, .work 0, .work 0, .pause 0, .queue 0 8 none] ++
      List.replicate 7 (.work 0) ++ [.resume 0])
    (fun state : State Nat => decide (state.clients[0]? = some (Client.mk .idle 1)) &&
      (state.queues[0]?).any fun queue : WorkQueue Nat => decide (queue.items = [8]))
    (by decide +kernel)
  rw [Bool.and_eq_true, decide_eq_true_eq] at passed
  obtain ⟨queue, atQueue, items⟩ := (Option.any_eq_true _ _).mp passed.2
  exact ⟨state, ⟨.idle, 1⟩, reached, passed.1, Nat.one_pos,
    ⟨queue, atQueue, of_decide_eq_true items⟩, (pause_excludes reached passed.1 Nat.one_pos).1⟩

end BlueThread.ThreadPool
