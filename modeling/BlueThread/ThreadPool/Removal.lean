/-
Queues that were removed.

`remove_work_queue` takes a pointer out of a vector, under the pool's lock. A
worker keeps its own copy of the pointer from the dequeue to the end of its
round, and gives the lock up in between. After the removal nobody comes to the
queue any more, but whoever was there comes back.
-/

import BlueThread.ThreadPool.RoundRobin

namespace BlueThread.ThreadPool

open Population

variable {α : Type}

/-- The queues whose `_void_dequeue` a scan calls. -/
def visited (queues : List (WorkQueue α)) (workQueues : List Nat) : Nat → Int → List Nat
  | 0, _ => []
  | tries + 1, next =>
      let place := wrapIndex next workQueues.length
      match workQueues[place.toNat]? with
      | none => []
      | some wq =>
          match (queues[wq]?).bind WorkQueue.voidDequeue with
          | some _ => [wq]
          | none => wq :: visited queues workQueues tries (place + 1)

/-- The worker's next step calls one of the three virtual functions on the queue,
or reads its name or one of its graces. -/
def Uses (state : State α) (worker wq : Nat) : Prop :=
  match state.workers[worker]? with
  | some .top =>
      Scans state worker ∧ wq ∈ visited state.queues state.workQueues
        (2 * state.workQueues.length) state.nextWorkQueue
  | some (.toProcess other) => other = wq
  | some (.toFinish other) => other = wq
  | some (.inFinish other _) => other = wq
  | _ => False

/-- `add_work_queue`, or the constructor of the queue. -/
def Adds (state : State α) (wq : Nat) : Action α → Prop
  | .addWorkQueue other => other = wq
  | .newQueue _ => state.queues.length = wq
  | _ => False

structure Abandoned (wq : Nat) (state : State α) : Prop where
  unregistered : wq ∉ state.workQueues
  unheld : ∀ (worker : Nat) (pc : WorkerPc α), state.workers[worker]? = some pc →
    pc.queue? ≠ some wq

/-! ### Steps -/

section Step

variable {state next : State α} {action : Action α} {wq worker : Nat}

theorem visited_registered {queues : List (WorkQueue α)} {workQueues : List Nat} {tries : Nat}
    {cursor : Int} (member : wq ∈ visited queues workQueues tries cursor) :
    wq ∈ workQueues := by
  induction tries generalizing cursor with
  | zero => cases member
  | succ tries ih =>
      rw [visited] at member
      split at member
      · cases member
      · rename_i other atPlace
        have present := List.mem_of_getElem? atPlace
        split at member
        · rw [List.mem_singleton] at member
          exact member ▸ present
        · rcases List.mem_cons.mp member with same | later
          · exact same ▸ present
          · exact ih later

theorem step_register {other : Nat} (taken : step state action = some next) :
    (action = .addWorkQueue other → next.workQueues = state.workQueues ++ [other]) ∧
      (action = .removeWorkQueue other →
        next = { state with workQueues := state.workQueues.erase other }) := by
  unfold step at taken
  split_ifs at taken
  constructor
  · rintro rfl
    change (if state.lock = none then clientStep state (.addWorkQueue other) else none) =
      some next at taken
    split_ifs at taken
    rw [clientStep] at taken
    split_ifs at taken
    cases taken
    rfl
  · rintro rfl
    change (if state.lock = none then clientStep state (.removeWorkQueue other) else none) =
      some next at taken
    split_ifs at taken
    cases taken
    rfl

theorem Abandoned.unused (abandoned : Abandoned wq state) : ¬Uses state worker wq := by
  intro uses
  unfold Uses at uses
  split at uses
  · exact abandoned.unregistered (visited_registered uses.2)
  · rename_i other found
    exact abandoned.unheld worker _ found (congrArg some uses)
  · rename_i other found
    exact abandoned.unheld worker _ found (congrArg some uses)
  · rename_i other item found
    exact abandoned.unheld worker _ found (congrArg some uses)
  · exact uses

theorem Abandoned.setWorker (abandoned : Abandoned wq state) {pc after : WorkerPc α}
    (found : state.workers[worker]? = some pc) (elsewhere : after.queue? ≠ some wq) :
    ∀ (one : Nat) (present : WorkerPc α), (state.workers.set worker after)[one]? = some present →
      present.queue? ≠ some wq := by
  intro one present atOne
  rcases getElem?_set_cases found atOne with ⟨_, rfl⟩ | ⟨_, before⟩
  · exact elsewhere
  · exact abandoned.unheld one present before

theorem Abandoned.notify (abandoned : Abandoned wq state) :
    ∀ (one : Nat) (present : WorkerPc α),
      (state.workers.map WorkerPc.notify)[one]? = some present → present.queue? ≠ some wq := by
  intro one present atOne
  rw [List.getElem?_map] at atOne
  obtain ⟨before, found, rfl⟩ := Option.map_eq_some_iff.mp atOne
  rw [notify_queue?]
  exact abandoned.unheld one before found

theorem Abandoned.step (abandoned : Abandoned wq state) (unadded : ¬Adds state wq action)
    (taken : step state action = some next) : Abandoned wq next := by
  cases step_effect taken with
  | acquire found outside handles added =>
      exact ⟨abandoned.unregistered, abandoned.setWorker found nofun⟩
  | leave found stopped handles removed =>
      exact ⟨abandoned.unregistered, abandoned.setWorker found nofun⟩
  | sleep found live cursor nothing =>
      exact ⟨abandoned.unregistered, abandoned.setWorker found nofun⟩
  | dequeue found live unpaused cursor registered atQueue dequeued =>
      refine ⟨abandoned.unregistered, abandoned.setWorker found ?_⟩
      rintro ⟨⟩
      exact abandoned.unregistered registered
  | pass found atQueue pass =>
      refine ⟨abandoned.unregistered, abandoned.setWorker found ?_⟩
      rw [pass.shift.2.2, ← pass.shift.2.1]
      exact abandoned.unheld _ _ found
  | relock found =>
      have elsewhere := abandoned.unheld _ _ found
      exact ⟨abandoned.unregistered, abandoned.setWorker found elsewhere⟩
  | done found atQueue clients told =>
      exact ⟨abandoned.unregistered, abandoned.setWorker found nofun⟩
  | failed atQueue missing => exact ⟨abandoned.unregistered, abandoned.unheld⟩
  | timeout found => exact ⟨abandoned.unregistered, abandoned.setWorker found nofun⟩
  | spurious found => exact ⟨abandoned.unregistered, abandoned.unheld⟩
  | insert atQueue inserted notified =>
      refine ⟨abandoned.unregistered, ?_⟩
      cases notified with
      | one found => exact abandoned.setWorker found nofun
      | nobody none => exact abandoned.unheld
  | wake => exact ⟨abandoned.unregistered, abandoned.notify⟩
  | newQueue overridesClear asked =>
      subst asked
      refine ⟨?_, abandoned.unheld⟩
      intro member
      rcases List.mem_append.mp member with before | new
      · exact abandoned.unregistered before
      · exact unadded (List.mem_singleton.mp new).symm
  | register workQueues asked =>
      obtain ⟨other, changed⟩ := asked
      refine ⟨?_, abandoned.unheld⟩
      rcases changed with rfl | rfl
      · have result := (step_register taken).1 rfl
        intro member
        rw [result] at member
        rcases List.mem_append.mp member with before | new
        · exact abandoned.unregistered before
        · exact unadded (List.mem_singleton.mp new).symm
      · have result := (step_register taken).2 rfl
        intro member
        rw [result] at member
        exact abandoned.unregistered (List.mem_of_mem_erase member)
  | start missing threads asked lacking added =>
      refine ⟨abandoned.unregistered, ?_⟩
      intro one present atOne
      rcases List.mem_append.mp (List.mem_of_getElem? atOne) with before | new
      · obtain ⟨place, found⟩ := List.mem_iff_getElem?.mp before
        exact abandoned.unheld place present found
      · rw [List.eq_of_mem_replicate new]
        nofun
  | stop asked found alone => exact ⟨abandoned.unregistered, abandoned.notify⟩
  | join found joined => exact ⟨abandoned.unregistered, abandoned.unheld⟩
  | clear asked found => exact ⟨abandoned.unregistered, abandoned.unheld⟩
  | pauseBlock found entry busy => exact ⟨abandoned.unregistered, abandoned.unheld⟩
  | pauseReturn found entry quiet => exact ⟨abandoned.unregistered, abandoned.unheld⟩
  | unpause asked found => exact ⟨abandoned.unregistered, abandoned.notify⟩
  | drainBlock found entry busy => exact ⟨abandoned.unregistered, abandoned.unheld⟩
  | drainReturn found entry quiet => exact ⟨abandoned.unregistered, abandoned.unheld⟩

end Step

/-! ### Runs -/

/-- What can happen until the queue is added again. -/
def Unadded (wq : Nat) (state : State α) (action : Action α) : Prop := ¬Adds state wq action

section Runs

variable {state next : State α} {wq worker : Nat}

theorem abandoned_of_removed (once : state.workQueues.count wq ≤ 1)
    (unheld : ∀ (worker : Nat) (pc : WorkerPc α), state.workers[worker]? = some pc →
      pc.queue? ≠ some wq)
    (taken : step state (.removeWorkQueue wq) = some next) : Abandoned wq next := by
  rw [(step_register taken).2 rfl]
  refine ⟨?_, unheld⟩
  apply List.count_eq_zero.mp
  rw [List.count_erase_self]
  omega

theorem advance_worker {first current following : State α} {pc : WorkerPc α}
    (before : Runs.Reachable ((system α).after first) (Unadded wq) current)
    (running : current.aborted = false) (found : current.workers[worker]? = some pc)
    (worked : work current worker pc = some following) :
    Runs.Reachable ((system α).after first) (Unadded wq) following := by
  refine .next (.work worker) before id ?_
  change step current (.work worker) = some following
  rw [step, running]
  change (current.workers[worker]?).bind (work current worker) = _
  rw [found]
  exact worked

section Return

variable {first current : State α} {item : α}

theorem relock_returns (before : Runs.Reachable ((system α).after first) (Unadded wq) current)
    (running : current.aborted = false) (free : current.lock = none)
    (found : current.workers[worker]? = some (.relock wq)) :
    ∃ later, Runs.Reachable ((system α).after first) (Unadded wq) later ∧
      Uses later worker wq := by
  refine ⟨_, advance_worker before running found (if_pos free), ?_⟩
  have atFinish : (current.workers.set worker (.toFinish wq))[worker]? = some (.toFinish wq) :=
    getElem?_set_found found
  unfold Uses
  simp only [State.setWorker, atFinish]

theorem processed_returns (before : Runs.Reachable ((system α).after first) (Unadded wq) current)
    (running : current.aborted = false) (free : current.lock = none)
    (found : current.workers[worker]? = some (.processed wq item))
    (present : wq < current.queues.length) :
    ∃ later, Runs.Reachable ((system α).after first) (Unadded wq) later ∧
      Uses later worker wq := by
  have worked : work current worker (.processed wq item) =
      some ((current.setQueue wq (current.queues[wq].pushToFinish item)).setWorker worker
        (.relock wq)) := by
    rw [work, List.getElem?_eq_getElem present]
    rfl
  exact relock_returns (advance_worker before running found worked) running free
    (getElem?_set_found found)

theorem inProcess_returns (before : Runs.Reachable ((system α).after first) (Unadded wq) current)
    (running : current.aborted = false) (free : current.lock = none)
    (found : current.workers[worker]? = some (.inProcess wq item))
    (present : wq < current.queues.length) :
    ∃ later, Runs.Reachable ((system α).after first) (Unadded wq) later ∧
      Uses later worker wq := by
  have worked : work current worker (.inProcess wq item) =
      some ((current.setQueue wq (current.queues[wq].processReturned item)).setWorker worker
        (.processed wq item)) := by
    rw [work, List.getElem?_eq_getElem present]
    rfl
  refine processed_returns (advance_worker before running found worked) running free
    (getElem?_set_found found) ?_
  change wq < (current.queues.set wq _).length
  rw [List.length_set]
  exact present

end Return

theorem holder_returns {pc : WorkerPc α} (running : next.aborted = false)
    (free : next.lock = none) (found : next.workers[worker]? = some pc)
    (holds : pc.queue? = some wq) (present : wq < next.queues.length) :
    ∃ later, Runs.Reachable ((system α).after next) (Unadded wq) later ∧ Uses later worker wq := by
  have here : Runs.Reachable ((system α).after next) (Unadded wq) next := .start rfl
  cases pc with
  | toProcess other =>
      cases holds
      refine ⟨next, here, ?_⟩
      unfold Uses
      rw [found]
  | inProcess other item =>
      cases holds
      exact inProcess_returns here running free found present
  | processed other item =>
      cases holds
      exact processed_returns here running free found present
  | relock other =>
      cases holds
      exact relock_returns here running free found
  | toFinish other =>
      cases holds
      refine ⟨next, here, ?_⟩
      unfold Uses
      rw [found]
  | inFinish other item =>
      cases holds
      refine ⟨next, here, ?_⟩
      unfold Uses
      rw [found]
  | _ => cases holds

/-- A removed queue is left alone if it was registered once and no worker was in
the middle of a round with it; and if a worker was, it may come back. -/
theorem removed_queue_quiescent (reached : Runs.Reachable (system α) (fun _ _ => True) state)
    (removed : step state (.removeWorkQueue wq) = some next) :
    ((∀ (worker : Nat) (pc : WorkerPc α), state.workers[worker]? = some pc →
          pc.queue? ≠ some wq) →
        state.workQueues.count wq ≤ 1 →
        ∀ later, Runs.Reachable ((system α).after next) (Unadded wq) later →
          ∀ worker, ¬Uses later worker wq) ∧
      ((∀ later, Runs.Reachable ((system α).after next) (Unadded wq) later →
          ∀ worker, ¬Uses later worker wq) →
        ∀ (worker : Nat) (pc : WorkerPc α), state.workers[worker]? = some pc →
          pc.queue? ≠ some wq) := by
  constructor
  · intro unheld once later rest worker
    have abandoned : Abandoned wq later := by
      apply rest.invariant
      · rintro current rfl
        exact abandoned_of_removed once unheld removed
      · intro current action following _ before permitted taken
        exact before.step permitted taken
    exact abandoned.unused
  · intro quiet worker pc found holds
    have result := (step_register removed).2 rfl
    have placed := (reachable_accounts reached).placed pc (List.mem_of_getElem? found) wq holds
    unfold step at removed
    split_ifs at removed with running
    change (if state.lock = none then _ else none) = some next at removed
    split_ifs at removed with free
    have back : ∃ later, Runs.Reachable ((system α).after next) (Unadded wq) later ∧
        Uses later worker wq := by
      rw [result]
      exact holder_returns (Bool.eq_false_iff.mpr running) free found holds placed
    obtain ⟨later, rest, uses⟩ := back
    exact quiet later rest worker uses

end Runs

/-- A queue is removed while the only worker sleeps. -/
theorem removed_queue_quiescent_asleep :
    ∃ state next : State Nat, Runs.Reachable (system Nat) (fun _ _ => True) state ∧
      step state (.removeWorkQueue 0) = some next ∧
      ∀ later, Runs.Reachable ((system Nat).after next) (Unadded 0) later →
        ∀ worker, ¬Uses later worker 0 := by
  obtain ⟨state, reached, passed⟩ := Runs.exists_of_replay (fun _ _ => True)
    (show (system Nat).initial (State.initial 1 0) from ⟨1, 0, rfl⟩)
    [.newQueue false, .start, .work 0, .work 0]
    (fun state : State Nat => decide (state.workQueues = [0] ∧ state.workers = [.waiting]) &&
      (step state (.removeWorkQueue 0)).isSome) (by decide +kernel)
  obtain ⟨shape, enabled⟩ := Bool.and_eq_true_iff.mp passed
  obtain ⟨queues, workers⟩ := of_decide_eq_true shape
  obtain ⟨next, removed⟩ := Option.isSome_iff_exists.mp enabled
  refine ⟨state, next, reached, removed, (removed_queue_quiescent reached removed).1 ?_ ?_⟩
  · intro worker pc found
    rw [workers] at found
    rw [List.mem_singleton.mp (List.mem_of_getElem? found)]
    nofun
  · rw [queues]
    decide

/-- A queue is removed after a worker has dequeued from it. The worker then calls
`_void_process` on it. -/
theorem removed_queue_used :
    ∃ state next after : State Nat, Runs.Reachable (system Nat) (fun _ _ => True) state ∧
      step state (.removeWorkQueue 0) = some next ∧ 0 ∉ next.workQueues ∧ Uses next 0 0 ∧
      step next (.work 0) = some after ∧ after.workers[0]? = some (.inProcess 0 7) := by
  obtain ⟨state, reached, passed⟩ := Runs.exists_of_replay (fun _ _ => True)
    (show (system Nat).initial (State.initial 1 0) from ⟨1, 0, rfl⟩)
    [.newQueue false, .queue 0 7 none, .start, .work 0, .work 0]
    (fun state : State Nat => (step state (.removeWorkQueue 0)).any fun next : State Nat =>
      decide (0 ∉ next.workQueues ∧ next.workers[0]? = some (WorkerPc.toProcess 0)) &&
        (step next (.work 0)).any fun after : State Nat =>
          decide (after.workers[0]? = some (WorkerPc.inProcess 0 7))) (by decide +kernel)
  obtain ⟨next, removed, rest⟩ := (Option.any_eq_true _ _).mp passed
  obtain ⟨shape, rest⟩ := Bool.and_eq_true_iff.mp rest
  obtain ⟨unregistered, holds⟩ := of_decide_eq_true shape
  obtain ⟨after, worked, processing⟩ := (Option.any_eq_true _ _).mp rest
  refine ⟨state, next, after, reached, removed, unregistered, ?_, worked,
    of_decide_eq_true processing⟩
  unfold Uses
  rw [holds]

end BlueThread.ThreadPool
