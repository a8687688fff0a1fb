/-
Starting and stopping the pool, over any number of cycles.

One controller calls `start` and `stop`; everybody else may do anything. The
flag `_stop` is shared by all cycles, so the argument is about which workers can
still read it: every worker that has not left its loop is in `_threads`, and
`_stop` is lowered only after `_threads` was emptied.
-/

import BlueThread.ThreadPool.Wakeups

namespace BlueThread.ThreadPool

open Population

variable {α : Type}

/-- `start` is not called while a `stop` is under way. -/
def OneController (state : State α) : Action α → Prop
  | .start => state.stopping = false
  | _ => True

instance (state : State α) (action : Action α) : Decidable (OneController state action) :=
  match action with
  | .start => inferInstanceAs (Decidable (state.stopping = false))
  | .work _ | .timeout _ | .spurious _ | .queue _ _ _ | .queueFront _ _ _ | .wake
  | .newQueue _ | .addWorkQueue _ | .removeWorkQueue _ | .stop _ | .join _ | .clear _
  | .pause _ | .unpause _ | .drain _ _ | .resume _ => inferInstanceAs (Decidable True)

/-! ### The life of a worker -/

inductive Stage
  | created
  | registered
  | gone
deriving DecidableEq

def WorkerPc.stage : WorkerPc α → Stage
  | .starting => .created
  | .finished => .gone
  | _ => .registered

theorem stage_over {pc : WorkerPc α} (gone : pc.stage = .gone) : pc = .finished := by
  cases pc with
  | finished => rfl
  | _ => cases gone

/-- The threads of the pool and the handles it has in the heartbeat map, against
the stages of all workers that were ever created. -/
structure Staffed (stop : Bool) (numThreads : Nat) (threads handles : List Nat)
    (stages : List Stage) : Prop where
  distinct : threads.Nodup
  created : ∀ worker ∈ threads, worker < stages.length
  within : threads.length ≤ numThreads
  listed : ∀ worker stage, stages[worker]? = some stage → stage ≠ .gone → worker ∈ threads
  single : handles.Nodup
  handled : ∀ worker, worker ∈ handles ↔ stages[worker]? = some .registered
  running : stop = false → ∀ worker ∈ threads, stages[worker]? ≠ some .gone

section Stages

variable {stop : Bool} {numThreads : Nat} {threads handles : List Nat} {stages : List Stage}
  {worker : Nat}

theorem Staffed.addWorker (staffed : Staffed stop numThreads threads handles stages)
    (found : stages[worker]? = some .created) :
    Staffed stop numThreads threads (worker :: handles) (stages.set worker .registered) where
  distinct := staffed.distinct
  created := by
    intro one member
    rw [List.length_set]
    exact staffed.created one member
  within := staffed.within
  listed := by
    intro one stage atPlace living
    rcases getElem?_set_cases found atPlace with ⟨rfl, rfl⟩ | ⟨_, before⟩
    · exact staffed.listed worker .created found nofun
    · exact staffed.listed one stage before living
  single := by
    rw [List.nodup_cons]
    refine ⟨?_, staffed.single⟩
    intro member
    rw [staffed.handled, found] at member
    cases member
  handled := by
    intro one
    rw [List.mem_cons, staffed.handled]
    by_cases same : worker = one
    · subst one
      rw [getElem?_set_found found]
      exact ⟨fun _ => rfl, fun _ => Or.inl rfl⟩
    · rw [List.getElem?_set_ne same]
      exact ⟨fun either => either.resolve_left (Ne.symm same), Or.inr⟩
  running := by
    intro live one member gone
    rcases getElem?_set_cases found gone with ⟨_, impossible⟩ | ⟨_, before⟩
    · cases impossible
    · exact staffed.running live one member before

theorem Staffed.removeWorker (staffed : Staffed true numThreads threads handles stages)
    (found : stages[worker]? = some .registered) :
    Staffed true numThreads threads (handles.erase worker) (stages.set worker .gone) where
  distinct := staffed.distinct
  created := by
    intro one member
    rw [List.length_set]
    exact staffed.created one member
  within := staffed.within
  listed := by
    intro one stage atPlace living
    rcases getElem?_set_cases found atPlace with ⟨rfl, rfl⟩ | ⟨_, before⟩
    · exact absurd rfl living
    · exact staffed.listed one stage before living
  single := staffed.single.erase worker
  handled := by
    intro one
    rw [staffed.single.mem_erase_iff, staffed.handled]
    by_cases same : worker = one
    · subst one
      rw [getElem?_set_found found]
      constructor
      · intro both
        exact absurd rfl both.1
      · intro gone
        cases gone
    · rw [List.getElem?_set_ne same]
      exact ⟨fun both => both.2, fun before => ⟨Ne.symm same, before⟩⟩
  running := nofun

theorem Staffed.startThreads (staffed : Staffed stop numThreads threads handles stages) :
    Staffed stop numThreads
      (threads ++ List.range' stages.length (numThreads - threads.length)) handles
      (stages ++ List.replicate (numThreads - threads.length) .created) where
  distinct := by
    rw [List.nodup_append]
    refine ⟨staffed.distinct, List.nodup_range', ?_⟩
    intro one old other new same
    subst other
    have below := staffed.created one old
    obtain ⟨above, _⟩ := List.mem_range'_1.mp new
    omega
  created := by
    intro one member
    rw [List.length_append, List.length_replicate]
    rcases List.mem_append.mp member with old | new
    · have below := staffed.created one old
      omega
    · obtain ⟨_, below⟩ := List.mem_range'_1.mp new
      exact below
  within := by
    have within := staffed.within
    rw [List.length_append, List.length_range']
    omega
  listed := by
    intro one stage atPlace living
    rw [List.mem_append]
    rcases Nat.lt_or_ge one stages.length with below | above
    · rw [List.getElem?_append_left below] at atPlace
      exact Or.inl (staffed.listed one stage atPlace living)
    · right
      have inside := (List.getElem?_eq_some_iff.mp atPlace).1
      rw [List.length_append, List.length_replicate] at inside
      exact List.mem_range'_1.mpr ⟨above, inside⟩
  single := staffed.single
  handled := by
    intro one
    rw [staffed.handled]
    rcases Nat.lt_or_ge one stages.length with below | above
    · rw [List.getElem?_append_left below]
    · rw [List.getElem?_eq_none above, List.getElem?_append_right above]
      constructor
      · intro missing
        cases missing
      · intro created
        cases List.eq_of_mem_replicate (List.mem_of_getElem? created)
  running := by
    intro live one member gone
    rcases Nat.lt_or_ge one stages.length with below | above
    · rw [List.getElem?_append_left below] at gone
      rcases List.mem_append.mp member with old | new
      · exact staffed.running live one old gone
      · obtain ⟨above, _⟩ := List.mem_range'_1.mp new
        omega
    · rw [List.getElem?_append_right above] at gone
      cases List.eq_of_mem_replicate (List.mem_of_getElem? gone)

theorem Staffed.raise (staffed : Staffed stop numThreads threads handles stages) :
    Staffed true numThreads threads handles stages :=
  { staffed with running := nofun }

/-- `stop` empties the set once every thread in it was joined, and may then lower
the flag. -/
theorem Staffed.join (staffed : Staffed stop numThreads threads handles stages)
    (joined : ∀ worker ∈ threads, stages[worker]? = some .gone) (lowered : Bool) :
    Staffed lowered numThreads [] handles stages where
  distinct := List.nodup_nil
  created := nofun
  within := Nat.zero_le _
  listed := by
    intro one stage atPlace living
    have gone := joined one (staffed.listed one stage atPlace living)
    rw [atPlace, Option.some.injEq] at gone
    exact absurd gone living
  single := staffed.single
  handled := staffed.handled
  running := nofun

theorem Staffed.vacant (staffed : Staffed stop numThreads [] handles stages) :
    (∀ stage ∈ stages, stage = .gone) ∧ handles = [] := by
  have gone (one : Nat) (stage : Stage) (atPlace : stages[one]? = some stage) :
      stage = .gone := by
    by_contra living
    cases staffed.listed one stage atPlace living
  constructor
  · intro stage member
    obtain ⟨one, atPlace⟩ := List.mem_iff_getElem?.mp member
    exact gone one stage atPlace
  · rw [List.eq_nil_iff_forall_not_mem]
    intro one member
    cases gone one _ ((staffed.handled one).mp member)

end Stages

/-! ### Every step keeps the account of the threads -/

def State.stages (state : State α) : List Stage := state.workers.map WorkerPc.stage

theorem stage_notify (pc : WorkerPc α) : pc.notify.stage = pc.stage := by
  cases pc <;> rfl

theorem stages_notify (workers : List (WorkerPc α)) :
    (workers.map WorkerPc.notify).map WorkerPc.stage = workers.map WorkerPc.stage := by
  rw [List.map_map]
  apply List.map_congr_left
  intro pc _
  exact stage_notify pc

theorem stages_found {workers : List (WorkerPc α)} {worker : Nat} {pc : WorkerPc α}
    (found : workers[worker]? = some pc) :
    (workers.map WorkerPc.stage)[worker]? = some pc.stage := by
  rw [List.getElem?_map, found]
  rfl

theorem stages_set_same {workers : List (WorkerPc α)} {worker : Nat} {pc next : WorkerPc α}
    (found : workers[worker]? = some pc) (same : next.stage = pc.stage) :
    (workers.set worker next).map WorkerPc.stage = workers.map WorkerPc.stage := by
  rw [List.map_set, same]
  exact Population.set_same (stages_found found)

theorem NotifiedOne.stages {workers after : List (WorkerPc α)}
    (notified : NotifiedOne workers after) :
    after.map WorkerPc.stage = workers.map WorkerPc.stage := by
  cases notified with
  | one found => exact stages_set_same found rfl
  | nobody none => rfl

theorem Pass.stage {wq : Nat} {queue after : WorkQueue α} {pc next : WorkerPc α}
    (pass : Pass wq queue pc after next) : next.stage = pc.stage := by
  cases pass <;> rfl

def Joined (state : State α) : Prop :=
  ∀ client ∈ state.clients, client.pc = .stopClearing → state.threads = []

theorem notify_clearing {client : Client} (clearing : client.notify.pc = .stopClearing) :
    client.pc = .stopClearing := by
  obtain ⟨pc, pauses⟩ := client
  cases pc with
  | stopClearing => rfl
  | _ => cases clearing

theorem Effect.joined {state next : State α} {action : Action α}
    (effect : Effect state action next) (controlled : OneController state action)
    (joined : Joined state) : Joined next := by
  have kept {client : Nat} {new : Client} (elsewhere : new.pc ≠ .stopClearing) :
      ∀ one ∈ state.clients.set client new, one.pc = .stopClearing → state.threads = [] := by
    intro one member clearing
    rcases List.mem_or_eq_of_mem_set member with old | rfl
    · exact joined one old clearing
    · exact absurd clearing elsewhere
  cases effect with
  | done found atQueue clients told =>
      subst told
      split_ifs
      · intro client member clearing
        obtain ⟨before, present, rfl⟩ := List.mem_map.mp member
        exact joined before present (notify_clearing clearing)
      · exact joined
  | @spurious client one found =>
      intro other member clearing
      rcases List.mem_or_eq_of_mem_set member with old | rfl
      · exact joined other old clearing
      · exact joined one (List.mem_of_getElem? found) (notify_clearing clearing)
  | start missing threads asked lacking added =>
      subst asked
      intro client member clearing
      have alone : state.stopping = false := controlled
      rw [State.stopping, List.any_eq_false] at alone
      exact absurd (decide_eq_true (Or.inr clearing)) (alone client member)
  | stop asked found alone => exact kept nofun
  | join found joined => exact fun _ _ _ => rfl
  | clear asked found => exact kept nofun
  | pauseBlock found entry busy => exact kept nofun
  | pauseReturn found entry quiet => exact kept nofun
  | unpause asked found => exact kept nofun
  | drainBlock found entry busy => exact kept nofun
  | drainReturn found entry quiet => exact kept nofun
  | _ => exact joined

theorem Effect.staffed {state next : State α} {action : Action α}
    (effect : Effect state action next) (joined : Joined state)
    (staffed : Staffed state.stop state.numThreads state.threads state.handles state.stages) :
    Staffed next.stop next.numThreads next.threads next.handles next.stages := by
  have kept {workers : List (WorkerPc α)}
      (same : workers.map WorkerPc.stage = state.workers.map WorkerPc.stage) :
      Staffed state.stop state.numThreads state.threads state.handles (workers.map WorkerPc.stage) := by
    rw [same]
    exact staffed
  cases effect with
  | @acquire worker pc found outside handles added =>
      rcases added with ⟨rfl, rfl⟩ | ⟨rfl, rfl⟩
      · have entered : Staffed state.stop state.numThreads state.threads (worker :: state.handles)
            ((state.workers.set worker .top).map WorkerPc.stage) := by
          rw [List.map_set]
          exact staffed.addWorker (stages_found found)
        exact entered
      · exact kept (stages_set_same found rfl)
  | @leave worker found stopped handles removed =>
      subst removed
      have left : Staffed true state.numThreads state.threads (state.handles.erase worker)
          ((state.workers.set worker .finished).map WorkerPc.stage) := by
        rw [List.map_set]
        exact staffed.raise.removeWorker (stages_found found)
      rw [← stopped] at left
      exact left
  | sleep found live left nothing => exact kept (stages_set_same found rfl)
  | dequeue found live unpaused left registered atQueue dequeued =>
      exact kept (stages_set_same found rfl)
  | pass found atQueue pass => exact kept (stages_set_same found pass.stage)
  | relock found => exact kept (stages_set_same found rfl)
  | done found atQueue clients told => exact kept (stages_set_same found rfl)
  | timeout found => exact kept (stages_set_same found rfl)
  | insert atQueue inserted notified => exact kept notified.stages
  | wake => exact kept (stages_notify _)
  | start missing threads asked lacking added =>
      subst lacking added
      have started := staffed.startThreads
      rw [State.stages, List.length_map] at started
      have stages : (state.workers ++ List.replicate (state.numThreads - state.threads.length)
          WorkerPc.starting).map WorkerPc.stage = state.workers.map WorkerPc.stage ++
            List.replicate (state.numThreads - state.threads.length) .created := by
        rw [List.map_append, List.map_replicate]
        rfl
      rw [← stages] at started
      exact started
  | stop asked found alone => exact (kept (stages_notify _)).raise
  | join found joined =>
      refine staffed.join ?_ state.stop
      intro worker member
      exact stages_found (joined worker member)
  | clear asked found =>
      have none := joined _ (List.mem_of_getElem? found) rfl
      have lowered : Staffed false state.numThreads [] state.handles state.stages := by
        apply staffed.join
        rw [none]
        exact nofun
      rw [← none] at lowered
      exact lowered
  | unpause asked found => exact kept (stages_notify _)
  | _ => exact staffed

section Reached

variable {discipline : State α → Action α → Prop} {state : State α}

theorem reachable_joined
    (controlled : ∀ state action, discipline state action → OneController state action)
    (reached : Runs.Reachable (system α) discipline state) : Joined state := by
  apply reached.invariant
  · rintro current ⟨numThreads, clients, rfl⟩
    exact fun _ _ _ => rfl
  · intro current action following _ joined permitted taken
    exact (step_effect taken).joined (controlled current action permitted) joined

theorem Staffed.initial (numThreads : Nat) : Staffed false numThreads [] [] [] where
  distinct := List.nodup_nil
  created := nofun
  within := Nat.zero_le _
  listed := nofun
  single := List.nodup_nil
  handled := by
    intro worker
    constructor
    · intro member
      cases member
    · intro found
      cases found
  running := nofun

theorem reachable_staffed
    (controlled : ∀ state action, discipline state action → OneController state action)
    (reached : Runs.Reachable (system α) discipline state) :
    Staffed state.stop state.numThreads state.threads state.handles state.stages := by
  apply reached.invariant
  · rintro current ⟨numThreads, clients, rfl⟩
    exact Staffed.initial numThreads
  · intro current action following before staffed _ taken
    exact (step_effect taken).staffed (reachable_joined controlled before) staffed

end Reached

/-! ### Cycles -/

theorem clear_cases {state next : State α} {client : Nat}
    (taken : step state (.clear client) = some next) :
    ∃ pauses, state.clients[client]? = some ⟨.stopClearing, pauses⟩ ∧
      next =
        { state.setClient client .idle pauses with
          queues := clearQueues state.queues state.workQueues
          stop := false } := by
  unfold step at taken
  split at taken
  · cases taken
  · change (if state.lock = none then clientStep state (.clear client) else none) =
      some next at taken
    split_ifs at taken
    rw [clientStep] at taken
    split at taken
    · rename_i pauses found
      rw [Option.some.injEq] at taken
      exact ⟨pauses, found, taken.symm⟩
    · cases taken

theorem start_cases {state next : State α} (taken : step state .start = some next) :
    next = startThreads state := by
  unfold step at taken
  split at taken
  · cases taken
  · change (if state.lock = none then clientStep state .start else none) = some next at taken
    split_ifs at taken
    rw [clientStep, Option.some.injEq] at taken
    exact taken.symm

theorem Effect.numThreads {state next : State α} {action : Action α}
    (effect : Effect state action next) : next.numThreads = state.numThreads := by
  cases effect <;> rfl

theorem reachable_numThreads {discipline : State α → Action α → Prop} {first state : State α}
    (reached : Runs.Reachable ((system α).after first) discipline state) :
    state.numThreads = first.numThreads := by
  apply reached.invariant
  · intro current same
    rw [show current = first from same]
  · intro current action following _ same _ taken
    exact (step_effect taken).numThreads.trans same

theorem Accounts.gone {queues : List (WorkQueue α)} {workers : List (WorkerPc α)}
    {processing : Int} (accounts : Accounts queues workers processing)
    (gone : ∀ pc ∈ workers, pc = .finished) :
    processing = 0 ∧ ∀ queue ∈ queues, queue.toProcess = [] ∧ queue.toFinish = [] := by
  have silent (wq : Nat) (pc : WorkerPc α) (member : pc ∈ workers) :=
    silent_elsewhere pc wq (gone pc member ▸ nofun)
  constructor
  · have counted := accounts.processing
    rw [total_eq_zero WorkerPc.busy (fun pc member => gone pc member ▸ rfl)] at counted
    exact counted
  · intro queue member
    obtain ⟨wq, atQueue⟩ := List.mem_iff_getElem?.mp member
    have balanced := accounts.balanced wq queue atQueue
    have toProcess := balanced.toProcess
    have toFinish := balanced.toFinish
    rw [total_eq_zero _ (fun pc member => (silent wq pc member).1)] at toProcess
    rw [total_eq_zero _ (fun pc member => (silent wq pc member).2.1)] at toFinish
    exact ⟨List.eq_nil_of_length_eq_zero toProcess, List.eq_nil_of_length_eq_zero toFinish⟩

theorem Effect.threads_kept {state next : State α} {action : Action α}
    (effect : Effect state action next) (counted : StopCounted state) (live : state.stop = false)
    (full : state.threads.length = state.numThreads) : next.threads = state.threads := by
  cases effect with
  | start missing threads asked lacking added =>
      rw [full, Nat.sub_self] at lacking
      subst lacking added
      exact List.append_nil _
  | join found joined =>
      have stopping := le_total Client.stops found
      rw [show total Client.stops state.clients = _ from counted, live] at stopping
      cases stopping
  | _ => rfl

theorem reachable_full {first state : State α}
    (before : Runs.Reachable (system α) OneController first) (live : first.stop = false)
    (full : first.threads.length = first.numThreads)
    (reached : Runs.Reachable ((system α).after first)
      (fun state action => OneController state action ∧ NoStop action) state) :
    state.stop = false ∧ state.threads = first.threads := by
  apply reached.invariant
  · intro current same
    rw [show current = first from same]
    exact ⟨live, rfl⟩
  · intro current action following between kept permitted taken
    obtain ⟨running, threads⟩ := kept
    have whole : Runs.Reachable (system α) OneController current :=
      before.append (between.mono fun _ _ permitted => permitted.1)
    have filled : current.threads.length = current.numThreads := by
      rw [threads, full, reachable_numThreads between]
    have effect := step_effect taken
    exact ⟨effect.live permitted.2 running,
      (effect.threads_kept (reachable_stopCounted whole) running filled).trans threads⟩

theorem Staffed.alive {state : State α}
    (staffed : Staffed state.stop state.numThreads state.threads state.handles state.stages)
    (live : state.stop = false) {worker : Nat} (member : worker ∈ state.threads) :
    ∃ pc, state.workers[worker]? = some pc ∧ pc ≠ .finished := by
  have inside := staffed.created worker member
  rw [State.stages, List.length_map] at inside
  refine ⟨state.workers[worker], List.getElem?_eq_getElem inside, ?_⟩
  intro finished
  apply staffed.running live worker member
  rw [State.stages, stages_found (List.getElem?_eq_getElem inside), finished]
  rfl

theorem clear_vacates {state next : State α} {client : Nat}
    (reached : Runs.Reachable (system α) OneController state)
    (taken : step state (.clear client) = some next) :
    (∀ pc ∈ next.workers, pc = .finished) ∧ next.processing = 0 ∧
      (∀ queue ∈ next.queues, queue.toProcess = [] ∧ queue.toFinish = []) ∧
      next.handles = [] ∧ next.threads = [] ∧ next.stop = false := by
  have after : Runs.Reachable (system α) OneController next :=
    .next (.clear client) reached trivial taken
  have staffed := reachable_staffed (fun _ _ controlled => controlled) after
  have joined := reachable_joined (fun _ _ controlled => controlled) reached
  obtain ⟨pauses, found, same⟩ := clear_cases taken
  have threads : next.threads = [] := by
    rw [same]
    exact joined _ (List.mem_of_getElem? found) rfl
  rw [threads] at staffed
  obtain ⟨gone, handles⟩ := staffed.vacant
  have finished (pc : WorkerPc α) (member : pc ∈ next.workers) : pc = .finished :=
    stage_over (gone _ (List.mem_map_of_mem member))
  obtain ⟨processing, empty⟩ := (reachable_accounts after).gone finished
  exact ⟨finished, processing, empty, handles, threads, by rw [same]⟩

theorem start_fills {state next : State α}
    (reached : Runs.Reachable (system α) OneController state)
    (controlled : OneController state .start) (taken : step state .start = some next) :
    next.numThreads = state.numThreads ∧ next.threads.length = state.numThreads ∧
      next.stop = false := by
  have started := start_cases taken
  have staffed := reachable_staffed (fun _ _ controlled => controlled) reached
  have counted := reachable_stopCounted reached
  rw [StopCounted, stops_none controlled] at counted
  rw [started]
  refine ⟨rfl, ?_, ?_⟩
  · change (state.threads ++ List.range' _ _).length = state.numThreads
    rw [List.length_append, List.length_range']
    exact Nat.add_sub_cancel' staffed.within
  · change state.stop = false
    cases stopped : state.stop with
    | false => rfl
    | true =>
        rw [stopped] at counted
        cases counted

/-- After every `stop` the pool is as it was before its first `start`, except for
what is still queued; after every `start` it has its threads, and all of them
serve until `_stop` is set again. -/
theorem pool_cycles (numThreads clients : Nat) {state : State α}
    (reached : Runs.Reachable ((system α).after (State.initial numThreads clients))
      OneController state) :
    (∀ (client : Nat) (next : State α), step state (.clear client) = some next →
      (∀ pc ∈ next.workers, pc = .finished) ∧ next.processing = 0 ∧
        (∀ queue ∈ next.queues, queue.toProcess = [] ∧ queue.toFinish = []) ∧
        next.handles = [] ∧ next.threads = [] ∧ next.stop = false) ∧
      ∀ next : State α, OneController state .start → step state .start = some next →
        next.threads.length = numThreads ∧ next.threads.Nodup ∧
          ∀ later : State α, Runs.Reachable ((system α).after next)
              (fun state action => OneController state action ∧ NoStop action) later →
            later.stop = false ∧ later.threads = next.threads ∧
              ∀ worker ∈ later.threads,
                ∃ pc, later.workers[worker]? = some pc ∧ pc ≠ .finished := by
  have whole : Runs.Reachable (system α) OneController state :=
    Runs.Reachable.append (.start ⟨numThreads, clients, rfl⟩) reached
  constructor
  · intro client next taken
    exact clear_vacates whole taken
  · intro next controlled taken
    have after : Runs.Reachable (system α) OneController next := .next _ whole controlled taken
    have size := reachable_numThreads reached
    obtain ⟨same, filled, live⟩ := start_fills whole controlled taken
    refine ⟨filled.trans size,
      (reachable_staffed (fun _ _ controlled => controlled) after).distinct, ?_⟩
    intro later between
    obtain ⟨running, threads⟩ := reachable_full after live (filled.trans same.symm) between
    have final : Runs.Reachable (system α) OneController later :=
      after.append (between.mono fun _ _ permitted => permitted.1)
    have crew := reachable_staffed (fun _ _ controlled => controlled) final
    exact ⟨running, threads, fun worker member => crew.alive running member⟩

/-- A pool that is stopped while it works, and started again. -/
theorem pool_cycles_restart :
    ∃ state next again : State Nat,
      Runs.Reachable ((system Nat).after (State.initial 2 1)) OneController state ∧
        step state (.clear 0) = some next ∧ next.workers = [.finished, .finished] ∧
        next.handles = [] ∧ step next .start = some again ∧ again.threads.length = 2 := by
  obtain ⟨state, reached, passed⟩ := Runs.exists_of_replay OneController
    (show ((system Nat).after (State.initial 2 1)).initial (State.initial 2 1) from rfl)
    ([.newQueue true, .queue 0 7 none, .start] ++ List.replicate 5 (.work 0) ++ [.stop 0] ++
      List.replicate 4 (.work 0) ++ [.work 1, .work 1, .join 0])
    (fun state : State Nat => (step state (.clear 0)).any fun next : State Nat =>
      decide (next.workers = [.finished, .finished] ∧ OneController next .start) &&
        (step next .start).isSome)
    (by decide +kernel)
  obtain ⟨next, taken, ends⟩ := (Option.any_eq_true _ _).mp passed
  rw [Bool.and_eq_true, decide_eq_true_eq] at ends
  obtain ⟨again, restarted⟩ := Option.isSome_iff_exists.mp ends.2
  have stopped := (pool_cycles 2 1 reached).1 0 next taken
  have after : Runs.Reachable ((system Nat).after (State.initial 2 1)) OneController next :=
    .next (.clear 0) reached trivial taken
  exact ⟨state, next, again, reached, taken, ends.1.1, stopped.2.2.2.1, restarted,
    ((pool_cycles 2 1 after).2 again ends.1.2 restarted).1⟩

end BlueThread.ThreadPool
