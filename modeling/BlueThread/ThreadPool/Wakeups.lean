/-
No wake-up is lost.

For the workers: whenever the pool may work, either nobody sleeps or there are as
many workers on their way to a scan as there are items to find. For the clients:
one that sleeps in `pause` or `drain` still has something to wait for, because
every step that could end its wait tells all of them.
-/

import BlueThread.ThreadPool.Barriers

namespace BlueThread.ThreadPool

open Population

variable {α : Type}

/-! ### The scan misses nothing -/

theorem wrapIndex_bounds (next : Int) {size : Nat} (positive : 0 < size) :
    0 ≤ wrapIndex next size ∧ wrapIndex next size < size := by
  unfold wrapIndex
  constructor
  · exact Int.emod_nonneg _ (by omega)
  · exact Int.emod_lt_of_pos _ (by omega)

theorem wrapIndex_of_nonneg {next : Int} (nonneg : 0 ≤ next) (size : Nat) :
    (wrapIndex next size).toNat = next.toNat % size := by
  obtain ⟨index, rfl⟩ := Int.eq_ofNat_of_zero_le nonneg
  have cast : (index : Int) % (size : Int) = (index % size : Nat) := by
    push_cast
    rfl
  unfold wrapIndex
  rw [if_neg (by omega), cast, Int.toNat_natCast, Int.toNat_natCast]

theorem wrapIndex_succ (next : Int) {size : Nat} (positive : 0 < size) :
    (wrapIndex (wrapIndex next size + 1) size).toNat =
      ((wrapIndex next size).toNat + 1) % size := by
  obtain ⟨low, _⟩ := wrapIndex_bounds next positive
  rw [wrapIndex_of_nonneg (by omega)]
  congr 1
  omega

theorem scan_none {queues : List (WorkQueue α)} {workQueues : List Nat} {tries : Nat}
    {next left : Int} (registered : workQueues ≠ [])
    (scanned : scan queues workQueues tries next = (left, none)) (offset : Nat)
    (tried : offset < tries) {wq : Nat}
    (atPlace : workQueues[((wrapIndex next workQueues.length).toNat + offset) %
      workQueues.length]? = some wq) :
    (queues[wq]?).bind WorkQueue.voidDequeue = none := by
  have positive : 0 < workQueues.length := List.length_pos_of_ne_nil registered
  induction tries generalizing next offset with
  | zero => omega
  | succ tries ih =>
      obtain ⟨low, high⟩ := wrapIndex_bounds next positive
      have small : (wrapIndex next workQueues.length).toNat < workQueues.length := by omega
      have present := List.getElem?_eq_getElem small
      rw [scan] at scanned
      simp only [present] at scanned
      split at scanned
      · cases scanned
      · rename_i missed
        cases offset with
        | zero =>
            rw [Nat.add_zero, Nat.mod_eq_of_lt small, present, Option.some.injEq] at atPlace
            rw [← atPlace]
            exact missed
        | succ offset =>
            apply ih scanned offset (by omega)
            rw [← atPlace]
            congr 1
            rw [wrapIndex_succ next positive, Nat.mod_add_mod]
            congr 1
            omega

theorem scan_complete {queues : List (WorkQueue α)} {workQueues : List Nat} {next left : Int}
    (scanned : scan queues workQueues (2 * workQueues.length) next = (left, none)) {wq : Nat}
    (registered : wq ∈ workQueues) {queue : WorkQueue α} (atQueue : queues[wq]? = some queue) :
    queue.items = [] := by
  obtain ⟨place, atPlace⟩ := List.mem_iff_getElem?.mp registered
  obtain ⟨small, _⟩ := List.getElem?_eq_some_iff.mp atPlace
  have positive : 0 < workQueues.length := by omega
  obtain ⟨low, high⟩ := wrapIndex_bounds next positive
  generalize start : (wrapIndex next workQueues.length).toNat = first
  have inside : first < workQueues.length := by omega
  have reaches : (first + (place + workQueues.length - first)) % workQueues.length = place := by
    rw [show first + (place + workQueues.length - first) = place + workQueues.length by omega,
      Nat.add_mod_right, Nat.mod_eq_of_lt small]
  have missed := scan_none (List.ne_nil_of_length_pos positive) scanned
    (place + workQueues.length - first) (by omega) (by rw [start, reaches]; exact atPlace)
  rw [atQueue] at missed
  exact WorkQueue.voidDequeue_eq_none missed

/-! ### Workers -/

namespace WorkerPc

def live : WorkerPc α → Nat
  | .finished => 0
  | _ => 1

/-- Blocked in `_cond.wait_for`. -/
def blocked : WorkerPc α → Nat
  | .waiting => 1
  | _ => 0

/-- Running, or already signalled. -/
def unblocked : WorkerPc α → Nat
  | .waiting => 0
  | .finished => 0
  | _ => 1

def ready : WorkerPc α → Nat
  | .starting => 1
  | .top => 1
  | .woken => 1
  | _ => 0

end WorkerPc

def WorkQueue.size (queue : WorkQueue α) : Nat := queue.items.length

/-- The items in all registered queues that nobody has dequeued. -/
def State.undequeued (state : State α) : Nat :=
  (state.workQueues.map fun wq => ((state.queues[wq]?).map WorkQueue.size).getD 0).sum

/-- Queues are registered by their constructor only. -/
def ConstructedOnly : Action α → Prop
  | .addWorkQueue _ => False
  | .removeWorkQueue _ => False
  | _ => True

instance (action : Action α) : Decidable (ConstructedOnly action) :=
  match action with
  | .addWorkQueue _ | .removeWorkQueue _ => inferInstanceAs (Decidable False)
  | .work _ | .timeout _ | .spurious _ | .queue _ _ _ | .queueFront _ _ _ | .wake
  | .newQueue _ | .start | .stop _ | .join _ | .clear _ | .pause _ | .unpause _ | .drain _ _
  | .resume _ => inferInstanceAs (Decidable True)

theorem sum_range_getElem? (queues : List (WorkQueue α)) :
    ((List.range queues.length).map
      fun wq => ((queues[wq]?).map WorkQueue.size).getD 0).sum = total WorkQueue.size queues := by
  unfold total
  congr 1
  apply List.ext_getElem
  · simp
  · intro index small _
    have inside : index < queues.length := by simpa using small
    simp [List.getElem?_eq_getElem inside]

theorem clearQueues_length (queues : List (WorkQueue α)) (workQueues : List Nat) :
    (clearQueues queues workQueues).length = queues.length := by
  induction workQueues generalizing queues with
  | nil => rfl
  | cons wq rest ih =>
      rw [clearQueues, ih, List.length_modify]

theorem Effect.registered {state next : State α} {action : Action α}
    (effect : Effect state action next) (constructed : ConstructedOnly action)
    (registered : state.workQueues = List.range state.queues.length) :
    next.workQueues = List.range next.queues.length := by
  cases effect with
  | dequeue found live unpaused left wqRegistered atQueue dequeued =>
      exact registered.trans (congrArg List.range List.length_set.symm)
  | pass found atQueue pass => exact registered.trans (congrArg List.range List.length_set.symm)
  | done found atQueue clients told =>
      exact registered.trans (congrArg List.range List.length_set.symm)
  | insert atQueue inserted notified =>
      exact registered.trans (congrArg List.range List.length_set.symm)
  | newQueue overridesClear =>
      change state.workQueues ++ [state.queues.length] =
        List.range (state.queues ++ [WorkQueue.initial overridesClear]).length
      rw [List.length_append, List.length_singleton, List.range_succ, registered]
  | register workQueues asked =>
      obtain ⟨wq, rfl | rfl⟩ := asked
      · cases constructed
      · cases constructed
  | clear asked found =>
      exact registered.trans (congrArg List.range (clearQueues_length _ _).symm)
  | _ => exact registered

/-- Exactly one client is inside `stop` while the flag is set. -/
def Client.stops (client : Client) : Nat :=
  match client.pc with
  | .stopJoining => 1
  | .stopClearing => 1
  | _ => 0

def StopCounted (state : State α) : Prop :=
  total Client.stops state.clients = if state.stop then 1 else 0

theorem stops_notify (client : Client) : client.notify.stops = client.stops := by
  obtain ⟨pc, pauses⟩ := client
  cases pc <;> rfl

theorem stops_none {state : State α} (alone : state.stopping = false) :
    total Client.stops state.clients = 0 := by
  apply total_eq_zero
  intro client member
  unfold State.stopping at alone
  rw [List.any_eq_false] at alone
  have outside := alone client member
  obtain ⟨pc, pauses⟩ := client
  cases pc with
  | stopJoining => simp at outside
  | stopClearing => simp at outside
  | _ => rfl

theorem Effect.stopCounted {state next : State α} {action : Action α}
    (effect : Effect state action next) (counted : StopCounted state) : StopCounted next := by
  have kept {client : Nat} {old new : Client} (found : state.clients[client]? = some old)
      (same : new.stops = old.stops) :
      total Client.stops (state.clients.set client new) = if state.stop then 1 else 0 := by
    rw [total_set_same _ found same]
    exact counted
  cases effect with
  | done found atQueue clients told =>
      subst told
      split_ifs
      · exact (total_map_same _ _ _ stops_notify).trans counted
      · exact counted
  | spurious found => exact kept found (stops_notify _)
  | @stop client pauses asked found alone =>
      have moved := total_set Client.stops ⟨.stopJoining, pauses⟩ found
      rw [stops_none alone] at moved
      exact moved
  | join found => exact kept found rfl
  | @clear client pauses asked found =>
      have moved := total_set Client.stops ⟨.idle, pauses⟩ found
      have few : total Client.stops state.clients ≤ 1 := by
        rw [show total Client.stops state.clients = _ from counted]
        split <;> omega
      change total Client.stops (state.clients.set client ⟨.idle, pauses⟩) = 0
      simp only [Client.stops] at moved
      omega
  | pauseBlock found entry busy =>
      cases entry with
      | call => exact kept found rfl
      | resumed => exact kept found rfl
  | pauseReturn found entry quiet =>
      cases entry with
      | call => exact kept found rfl
      | resumed => exact kept found rfl
  | unpause asked found => exact kept found rfl
  | drainBlock found entry busy =>
      cases entry with
      | call => exact kept found rfl
      | resumed => exact kept found rfl
  | drainReturn found entry quiet =>
      cases entry with
      | call => exact kept found rfl
      | resumed => exact kept found rfl
  | _ => exact counted

/-- Nobody sleeps while the pool stops. While it may work, nobody sleeps or the
workers on their way outnumber the items. -/
structure Awake (stop : Bool) (pause : Int) (queues : List (WorkQueue α))
    (workers : List (WorkerPc α)) : Prop where
  stopping : stop = true → total WorkerPc.blocked workers = 0
  working : stop = false → pause = 0 → total WorkerPc.blocked workers = 0 ∨
    total WorkQueue.size queues ≤ total WorkerPc.ready workers

theorem Awake.of_none {stop : Bool} {pause : Int} {queues : List (WorkQueue α)}
    {workers : List (WorkerPc α)} (none : total WorkerPc.blocked workers = 0) :
    Awake stop pause queues workers :=
  ⟨fun _ => none, fun _ _ => Or.inl none⟩

theorem blocked_notify (workers : List (WorkerPc α)) :
    total WorkerPc.blocked (workers.map WorkerPc.notify) = 0 := by
  apply total_eq_zero
  intro pc member
  obtain ⟨before, _, rfl⟩ := List.mem_map.mp member
  cases before <;> rfl

theorem Awake.move {stop : Bool} {pause : Int} {queues others : List (WorkQueue α)}
    {workers : List (WorkerPc α)} {worker : Nat} {pc next : WorkerPc α}
    (awake : Awake stop pause queues workers) (found : workers[worker]? = some pc)
    (up : next.blocked = 0)
    (enough : total WorkQueue.size others + pc.ready ≤ total WorkQueue.size queues + next.ready) :
    Awake stop pause others (workers.set worker next) := by
  have blocked := total_set WorkerPc.blocked next found
  have ready := total_set WorkerPc.ready next found
  refine ⟨?_, ?_⟩
  · intro stopped
    have none := awake.stopping stopped
    omega
  · intro live unpaused
    rcases awake.working live unpaused with none | covered
    · left
      omega
    · right
      omega

theorem size_set {queues : List (WorkQueue α)} {wq : Nat} {queue after : WorkQueue α}
    (atQueue : queues[wq]? = some queue) (same : after.items = queue.items) :
    total WorkQueue.size (queues.set wq after) = total WorkQueue.size queues := by
  apply total_set_same _ atQueue
  unfold WorkQueue.size
  rw [same]

theorem Pass.items {wq : Nat} {queue after : WorkQueue α} {pc next : WorkerPc α}
    (pass : Pass wq queue pc after next) :
    after.items = queue.items ∧ pc.ready = 0 ∧ next.ready = 0 ∧ next.blocked = 0 := by
  cases pass with
  | start popped =>
      obtain ⟨rest, _, rfl⟩ := WorkQueue.popToProcess_eq_some popped
      exact ⟨rfl, rfl, rfl, rfl⟩
  | returned => exact ⟨rfl, rfl, rfl, rfl⟩
  | push => exact ⟨rfl, rfl, rfl, rfl⟩
  | finish popped =>
      obtain ⟨rest, _, rfl⟩ := WorkQueue.popToFinish_eq_some popped
      exact ⟨rfl, rfl, rfl, rfl⟩

theorem size_dequeue {queue after : WorkQueue α} (dequeued : queue.voidDequeue = some after) :
    after.size + 1 = queue.size := by
  obtain ⟨item, rest, atItems, rfl⟩ := WorkQueue.voidDequeue_eq_some dequeued
  unfold WorkQueue.size
  rw [atItems, List.length_cons]

theorem size_insert {queue after : WorkQueue α} (inserted : Inserted queue after) :
    after.size = queue.size + 1 := by
  cases inserted with
  | back item =>
      unfold WorkQueue.size WorkQueue.enqueue
      rw [List.length_append, List.length_singleton]
  | front item => rfl

theorem size_scanned {state : State α} {left : Int}
    (registered : state.workQueues = List.range state.queues.length)
    (nothing : state.workQueues = [] ∨ state.pause ≠ 0 ∨
      scan state.queues state.workQueues (2 * state.workQueues.length) state.nextWorkQueue =
        (left, none)) : state.pause ≠ 0 ∨ total WorkQueue.size state.queues = 0 := by
  by_cases paused : state.pause = 0
  · right
    apply total_eq_zero
    intro queue member
    obtain ⟨wq, atQueue⟩ := List.mem_iff_getElem?.mp member
    have known : wq ∈ state.workQueues := by
      rw [registered]
      exact List.mem_range.mpr (List.getElem?_eq_some_iff.mp atQueue).1
    rcases nothing with empty | stopped | scanned
    · rw [empty] at known
      cases known
    · exact absurd paused stopped
    · unfold WorkQueue.size
      rw [scan_complete scanned known atQueue]
      rfl
  · exact Or.inl paused

section Steps

variable {stop : Bool} {pause : Int} {queues : List (WorkQueue α)} {workers : List (WorkerPc α)}

theorem Awake.sleep {worker : Nat} (live : stop = false)
    (nothing : pause ≠ 0 ∨ total WorkQueue.size queues = 0) :
    Awake stop pause queues (workers.set worker .waiting) := by
  subst live
  refine ⟨nofun, ?_⟩
  intro _ unpaused
  right
  rcases nothing with paused | empty
  · exact absurd unpaused paused
  · rw [empty]
    exact Nat.zero_le _

theorem Awake.insert {others : List (WorkerPc α)} {wq : Nat} {queue after : WorkQueue α}
    (awake : Awake stop pause queues workers) (atQueue : queues[wq]? = some queue)
    (inserted : Inserted queue after) (notified : NotifiedOne workers others) :
    Awake stop pause (queues.set wq after) others := by
  have moved := total_set WorkQueue.size after atQueue
  have larger := size_insert inserted
  cases notified with
  | one found =>
      apply awake.move found rfl
      simp only [WorkerPc.ready]
      omega
  | nobody none =>
      apply Awake.of_none
      apply total_eq_zero
      intro pc member
      have up := List.any_eq_false.mp none pc member
      cases pc with
      | waiting => exact absurd rfl up
      | _ => rfl

theorem Awake.spawn (awake : Awake stop pause queues workers) (missing : Nat) :
    Awake stop pause queues (workers ++ List.replicate missing .starting) := by
  have blocked : total WorkerPc.blocked (workers ++ List.replicate missing .starting) =
      total WorkerPc.blocked workers := by
    rw [total_append, total_replicate WorkerPc.blocked missing .starting rfl, Nat.add_zero]
  have ready : total WorkerPc.ready workers ≤
      total WorkerPc.ready (workers ++ List.replicate missing .starting) := by
    rw [total_append]
    omega
  refine ⟨fun stopped => blocked.trans (awake.stopping stopped), ?_⟩
  intro live unpaused
  rcases awake.working live unpaused with none | covered
  · exact Or.inl (blocked.trans none)
  · exact Or.inr (covered.trans ready)

theorem Awake.grow (awake : Awake stop pause queues workers) (overridesClear : Bool) :
    Awake stop pause (queues ++ [WorkQueue.initial overridesClear]) workers := by
  refine ⟨awake.stopping, ?_⟩
  intro live unpaused
  rw [total_append, total_cons, total_nil]
  exact awake.working live unpaused

theorem Awake.raise {first woken before : ClientPc} {raised : Int} (nonneg : 0 ≤ pause)
    (awake : Awake stop pause queues workers) (entry : Entry first woken before raised) :
    Awake stop (pause + raised) queues workers := by
  refine ⟨awake.stopping, ?_⟩
  intro live unpaused
  apply awake.working live
  cases entry with
  | call => omega
  | resumed => omega

end Steps

theorem StopCounted.flag {state : State α} {client pauses : Nat} (counted : StopCounted state)
    (found : state.clients[client]? = some ⟨.stopClearing, pauses⟩) : state.stop = true := by
  have one := le_total Client.stops found
  simp only [Client.stops] at one
  by_contra unset
  rw [StopCounted, if_neg unset] at counted
  omega

theorem Effect.awake {state next : State α} {action : Action α}
    (effect : Effect state action next)
    (census : Census state.pause state.draining state.clients) (counted : StopCounted state)
    (registered : state.workQueues = List.range state.queues.length)
    (awake : Awake state.stop state.pause state.queues state.workers) :
    Awake next.stop next.pause next.queues next.workers := by
  have nonneg : 0 ≤ state.pause := by
    have sum := census.pause
    omega
  cases effect with
  | acquire found outside handles =>
      rcases outside with rfl | rfl
      · exact awake.move found rfl (Nat.le_refl _)
      · exact awake.move found rfl (Nat.le_refl _)
  | @leave worker found stopped handles =>
      have blocked := total_set WorkerPc.blocked .finished found
      have none := awake.stopping stopped
      have gone : total WorkerPc.blocked (state.workers.set worker .finished) = 0 := by
        simp only [WorkerPc.blocked] at blocked
        omega
      exact .of_none gone
  | sleep found live left nothing =>
      have idle := size_scanned registered nothing
      exact Awake.sleep live idle
  | @dequeue worker wq queue after found live unpaused left known atQueue dequeued =>
      have moved := total_set WorkQueue.size after atQueue
      have smaller := size_dequeue dequeued
      have enough : total WorkQueue.size (state.queues.set wq after) + 1 ≤
          total WorkQueue.size state.queues + 0 := by
        omega
      exact awake.move found rfl enough
  | @pass worker wq queue after pc next found atQueue pass =>
      obtain ⟨items, before, later, up⟩ := pass.items
      have enough : total WorkQueue.size (state.queues.set wq after) + pc.ready ≤
          total WorkQueue.size state.queues + next.ready := by
        rw [size_set atQueue items, before, later]
      exact awake.move found up enough
  | relock found => exact awake.move found rfl (Nat.le_refl _)
  | @done worker wq queue item found atQueue clients told =>
      have same : total WorkQueue.size (state.queues.set wq (queue.finishReturned item)) =
          total WorkQueue.size state.queues := size_set atQueue rfl
      exact awake.move found rfl (same.le.trans (Nat.le_succ _))
  | failed atQueue missing => exact awake
  | timeout found => exact awake.move found rfl (Nat.le_succ _)
  | spurious found => exact awake
  | insert atQueue inserted notified => exact awake.insert atQueue inserted notified
  | wake => exact .of_none (blocked_notify _)
  | newQueue overridesClear => exact awake.grow overridesClear
  | register workQueues asked => exact awake
  | start missing threads => exact awake.spawn missing
  | stop asked found alone => exact .of_none (blocked_notify _)
  | join found => exact awake
  | clear asked found => exact .of_none (awake.stopping (counted.flag found))
  | pauseBlock found entry busy => exact awake.raise nonneg entry
  | pauseReturn found entry quiet => exact awake.raise nonneg entry
  | unpause asked found => exact .of_none (blocked_notify _)
  | drainBlock found entry busy => exact awake
  | drainReturn found entry quiet => exact awake

section Reached

variable {discipline : State α → Action α → Prop} {state : State α}

theorem reachable_registered
    (constructed : ∀ state action, discipline state action → ConstructedOnly action)
    (reached : Runs.Reachable (system α) discipline state) :
    state.workQueues = List.range state.queues.length := by
  apply reached.invariant
  · rintro current ⟨numThreads, clients, rfl⟩
    rfl
  · intro current action following _ registered permitted taken
    exact (step_effect taken).registered (constructed current action permitted) registered

theorem reachable_stopCounted (reached : Runs.Reachable (system α) discipline state) :
    StopCounted state := by
  apply reached.invariant
  · rintro current ⟨numThreads, clients, rfl⟩
    exact total_replicate Client.stops clients _ rfl
  · intro current action following _ counted _ taken
    exact (step_effect taken).stopCounted counted

theorem reachable_awake
    (matched : ∀ state action, discipline state action → Matched state action)
    (constructed : ∀ state action, discipline state action → ConstructedOnly action)
    (reached : Runs.Reachable (system α) discipline state) :
    Awake state.stop state.pause state.queues state.workers := by
  apply reached.invariant
  · rintro current ⟨numThreads, clients, rfl⟩
    exact .of_none rfl
  · intro current action following before awake _ taken
    exact (step_effect taken).awake (reachable_census matched before)
      (reachable_stopCounted before) (reachable_registered constructed before) awake

end Reached

theorem State.undequeued_eq {state : State α}
    (registered : state.workQueues = List.range state.queues.length) :
    state.undequeued = total WorkQueue.size state.queues := by
  unfold State.undequeued
  rw [registered]
  exact sum_range_getElem? state.queues

theorem total_live (workers : List (WorkerPc α)) :
    total WorkerPc.live workers =
      total WorkerPc.blocked workers + total WorkerPc.unblocked workers := by
  induction workers with
  | nil => rfl
  | cons pc rest ih =>
      have split : pc.live = pc.blocked + pc.unblocked := by cases pc <;> rfl
      rw [total_cons, total_cons, total_cons, ih, split]
      omega

theorem total_unblocked (workers : List (WorkerPc α)) :
    total WorkerPc.unblocked workers =
      total WorkerPc.ready workers + total WorkerPc.busy workers := by
  induction workers with
  | nil => rfl
  | cons pc rest ih =>
      have split : pc.unblocked = pc.ready + pc.busy := by cases pc <;> rfl
      rw [total_cons, total_cons, total_cons, ih, split]
      omega

/-- While the pool may work, the workers that are up are as many as there is
work for, or all of them. -/
theorem workers_awake {state : State α}
    (reached : Runs.Reachable (system α)
      (fun state action => Matched state action ∧ ConstructedOnly action) state)
    (unpaused : state.pause = 0) (live : state.stop = false) :
    min ((total WorkerPc.live state.workers : Nat) : Int) (state.undequeued + state.processing) ≤
      (total WorkerPc.unblocked state.workers : Nat) := by
  have awake := reachable_awake (fun _ _ permitted => permitted.1)
    (fun _ _ permitted => permitted.2) reached
  have counted := (reachable_accounts reached).processing
  have all := total_live state.workers
  have up := total_unblocked state.workers
  rw [State.undequeued_eq (reachable_registered (fun _ _ permitted => permitted.2) reached)]
  rcases awake.working live unpaused with none | covered
  · omega
  · omega

/-- Two workers sleep, two items arrive, and the first worker woken takes one. -/
theorem workers_awake_run :
    ∃ state : State Nat, Runs.Reachable (system Nat)
        (fun state action => Matched state action ∧ ConstructedOnly action) state ∧
      state.pause = 0 ∧ state.stop = false ∧ state.undequeued = 1 ∧ state.processing = 1 ∧
      min ((total WorkerPc.live state.workers : Nat) : Int) (1 + 1) ≤
        (total WorkerPc.unblocked state.workers : Nat) := by
  obtain ⟨state, reached, passed⟩ := Runs.exists_of_replay
    (fun state action => Matched state action ∧ ConstructedOnly action)
    (show (system Nat).initial (State.initial 3 0) from ⟨3, 0, rfl⟩)
    [.newQueue false, .start, .work 0, .work 0, .work 1, .work 1, .work 2, .work 2,
      .queue 0 7 (some 1), .queue 0 8 (some 0), .work 1, .work 1]
    (fun state : State Nat => decide (state.pause = 0 ∧ state.stop = false ∧
      state.undequeued = 1 ∧ state.processing = 1))
    (by decide +kernel)
  obtain ⟨unpaused, live, left, busy⟩ := of_decide_eq_true passed
  have awake := workers_awake reached unpaused live
  rw [left, busy] at awake
  exact ⟨state, reached, unpaused, live, left, busy, awake⟩

/-! ### Clients -/

def Client.mustWait (state : State α) (client : Client) : Bool :=
  match client.pc with
  | .pauseWait => state.processing ≠ 0
  | .drainWait wq => mustDrain state wq
  | _ => true

def Needed (state : State α) : Prop :=
  ∀ client ∈ state.clients, client.mustWait state = true

/-- The pool is not stopped. -/
def NoStop : Action α → Prop
  | .stop _ => False
  | _ => True

instance (action : Action α) : Decidable (NoStop action) :=
  match action with
  | .stop _ => inferInstanceAs (Decidable False)
  | .work _ | .timeout _ | .spurious _ | .queue _ _ _ | .queueFront _ _ _ | .wake
  | .newQueue _ | .addWorkQueue _ | .removeWorkQueue _ | .start | .join _ | .clear _
  | .pause _ | .unpause _ | .drain _ _ | .resume _ => inferInstanceAs (Decidable True)

theorem mustWait_busy {state : State α} (busy : state.processing ≠ 0) (client : Client) :
    client.mustWait state = true := by
  unfold Client.mustWait
  split
  · exact decide_eq_true busy
  · rename_i wq _
    cases wq with
    | none => exact decide_eq_true busy
    | some wq => simp only [mustDrain, decide_eq_true busy, Bool.true_or]
  · rfl

theorem mustWait_notify (state : State α) (client : Client) :
    client.notify.mustWait state = true := by
  obtain ⟨pc, pauses⟩ := client
  cases pc <;> rfl

theorem mustWait_grow {state next : State α} {client : Client}
    (waits : client.mustWait state = true) (same : next.processing = state.processing)
    (grow : ∀ (wq : Nat) (queue : WorkQueue α), state.queues[wq]? = some queue →
      queue.items ≠ [] → ∃ after, next.queues[wq]? = some after ∧ after.items ≠ []) :
    client.mustWait next = true := by
  by_cases busy : state.processing = 0
  · unfold Client.mustWait at waits ⊢
    split at waits
    · exact absurd busy (of_decide_eq_true waits)
    · rename_i wq atWait
      cases wq with
      | none => exact absurd busy (of_decide_eq_true waits)
      | some wq =>
          simp only [mustDrain, busy, ne_eq, not_true_eq_false, decide_false, Bool.false_or,
            Option.any_eq_true] at waits
          obtain ⟨queue, atQueue, filled⟩ := waits
          obtain ⟨after, atAfter, kept⟩ := grow wq queue atQueue (by simpa using filled)
          simp only [mustDrain, same, busy, ne_eq, not_true_eq_false, decide_false,
            Bool.false_or, Option.any_eq_true]
          exact ⟨after, atAfter, by simpa using kept⟩
    · rfl
  · exact mustWait_busy (by rw [same]; exact busy) client

theorem mustWait_set {state next : State α} {client : Client} {wq : Nat}
    {queue after : WorkQueue α} (waits : client.mustWait state = true)
    (atQueue : state.queues[wq]? = some queue) (filled : queue.items ≠ [] → after.items ≠ [])
    (same : next.processing = state.processing) (set : next.queues = state.queues.set wq after) :
    client.mustWait next = true := by
  apply mustWait_grow waits same
  intro other old atOther nonempty
  rw [set]
  by_cases here : wq = other
  · subst other
    rw [atQueue, Option.some.injEq] at atOther
    subst atOther
    exact ⟨after, getElem?_set_found atQueue,
      filled nonempty⟩
  · exact ⟨old, (List.getElem?_set_ne here).trans atOther, nonempty⟩

theorem Needed.set {state : State α} (needed : Needed state) {client : Nat} {new : Client}
    (waits : new.mustWait state = true) :
    ∀ one ∈ state.clients.set client new, one.mustWait state = true := by
  intro one member
  rcases List.mem_or_eq_of_mem_set member with kept | rfl
  · exact needed one kept
  · exact waits

theorem Census.nobody {state next : State α}
    (census : Census state.pause state.draining state.clients)
    (quiet : ¬(state.pause ≠ 0 ∨ state.draining ≠ 0)) (client : Client)
    (member : client ∈ state.clients) : client.mustWait next = true := by
  obtain ⟨place, found⟩ := List.mem_iff_getElem?.mp member
  have pausing := le_total Client.pausing found
  have drains := le_total Client.drains found
  have pauses := census.pause
  have draining := census.draining
  unfold Client.mustWait
  split
  · rename_i atWait
    rw [Client.pausing, atWait] at pausing
    simp only at pausing
    omega
  · rename_i wq atWait
    rw [Client.drains, atWait] at drains
    simp only at drains
    omega
  · rfl

theorem Effect.needed {state next : State α} {action : Action α}
    (effect : Effect state action next)
    (accounts : Accounts state.queues state.workers state.processing)
    (census : Census state.pause state.draining state.clients) (counted : StopCounted state)
    (live : state.stop = false) (running : NoStop action) (needed : Needed state) :
    Needed next := by
  have processing := accounts.processing
  cases effect with
  | dequeue found live unpaused left registered atQueue dequeued =>
      intro client _
      have busy : state.processing + 1 ≠ 0 := by omega
      exact mustWait_busy busy client
  | pass found atQueue pass =>
      intro client member
      exact mustWait_set (needed client member) atQueue (by rw [pass.items.1]; exact id) rfl rfl
  | done found atQueue clients told =>
      subst told
      intro client member
      change client ∈ ite _ _ _ at member
      split_ifs at member with asked
      · obtain ⟨before, _, rfl⟩ := List.mem_map.mp member
        exact mustWait_notify _ before
      · exact census.nobody asked client member
  | spurious found => exact needed.set (mustWait_notify state _)
  | @insert wq queue after workers atQueue inserted notified =>
      intro client member
      have larger := size_insert inserted
      refine mustWait_set (needed client member) atQueue ?_ rfl rfl
      intro _ empty
      rw [WorkQueue.size, empty] at larger
      cases larger
  | newQueue overridesClear =>
      intro client member
      refine mustWait_grow (needed client member) rfl ?_
      intro wq queue atQueue filled
      have inside := (List.getElem?_eq_some_iff.mp atQueue).1
      exact ⟨queue, (List.getElem?_append_left inside).trans atQueue, filled⟩
  | stop asked found alone =>
      subst asked
      cases running
  | join found => exact needed.set rfl
  | clear asked found =>
      have stopped := counted.flag found
      rw [live] at stopped
      cases stopped
  | pauseBlock found entry busy => exact needed.set (decide_eq_true busy)
  | pauseReturn found entry quiet => exact needed.set rfl
  | unpause asked found => exact needed.set rfl
  | drainBlock found entry busy => exact needed.set busy
  | drainReturn found entry quiet => exact needed.set rfl
  | _ => exact needed

theorem Effect.live {state next : State α} {action : Action α}
    (effect : Effect state action next) (running : NoStop action)
    (live : state.stop = false) : next.stop = false := by
  cases effect with
  | stop asked found alone =>
      subst asked
      cases running
  | clear asked found => rfl
  | _ => exact live

theorem reachable_needed {state : State α}
    (reached : Runs.Reachable (system α)
      (fun state action => Matched state action ∧ NoStop action) state) :
    state.stop = false ∧ Needed state := by
  apply reached.invariant
  · rintro current ⟨numThreads, clients, rfl⟩
    refine ⟨rfl, ?_⟩
    intro client member
    rw [List.eq_of_mem_replicate member]
    rfl
  · intro current action following before waiting permitted taken
    obtain ⟨live, needed⟩ := waiting
    have effect := step_effect taken
    exact ⟨effect.live permitted.2 live, effect.needed (reachable_accounts before)
      (reachable_census (fun _ _ permitted => permitted.1) before)
      (reachable_stopCounted before) live permitted.2 needed⟩

/-- A client that sleeps in `pause` or `drain` and was not told still has to. -/
theorem clients_wait_for_cause {state : State α} {client : Nat} {one : Client}
    (reached : Runs.Reachable (system α)
      (fun state action => Matched state action ∧ NoStop action) state)
    (found : state.clients[client]? = some one) :
    (one.pc = .pauseWait → state.processing ≠ 0) ∧
      (one.pc = .drainWait none → state.processing ≠ 0) ∧
      ∀ wq, one.pc = .drainWait (some wq) → state.processing ≠ 0 ∨
        ∃ queue, state.queues[wq]? = some queue ∧ queue.items ≠ [] := by
  have waits := (reachable_needed reached).2 one (List.mem_of_getElem? found)
  unfold Client.mustWait at waits
  refine ⟨?_, ?_, ?_⟩
  · intro atWait
    rw [atWait] at waits
    exact of_decide_eq_true waits
  · intro atWait
    rw [atWait] at waits
    exact of_decide_eq_true waits
  · intro wq atWait
    rw [atWait] at waits
    simp only [mustDrain, Bool.or_eq_true, decide_eq_true_eq, Option.any_eq_true] at waits
    rcases waits with busy | ⟨queue, atQueue, filled⟩
    · exact Or.inl busy
    · exact Or.inr ⟨queue, atQueue, by simpa using filled⟩

/-- A drain waits for a queue whose last item is in progress. -/
theorem clients_wait_for_cause_run :
    ∃ state : State Nat, Runs.Reachable (system Nat)
        (fun state action => Matched state action ∧ NoStop action) state ∧
      state.clients[0]? = some ⟨.drainWait (some 0), 0⟩ ∧ state.pause = 1 ∧
      (state.processing ≠ 0 ∨
        ∃ queue, state.queues[0]? = some queue ∧ queue.items ≠ []) := by
  obtain ⟨state, reached, passed⟩ := Runs.exists_of_replay
    (fun state action => Matched state action ∧ NoStop action)
    (show (system Nat).initial (State.initial 1 2) from ⟨1, 2, rfl⟩)
    [.newQueue false, .start, .queue 0 7 none, .drain 0 (some 0), .work 0, .work 0, .pause 1]
    (fun state : State Nat => decide (state.clients[0]? =
      some (Client.mk (.drainWait (some 0)) 0) ∧ state.pause = 1))
    (by decide +kernel)
  obtain ⟨found, paused⟩ := of_decide_eq_true passed
  exact ⟨state, reached, found, paused, (clients_wait_for_cause reached found).2.2 0 rfl⟩

end BlueThread.ThreadPool
