/-
Stopping and restarting the sharded pool, over any number of cycles.

The threads of a `start` are numbered from zero on, since `stop` empties the
vector that counts them. But `stop_threads` is never cleared, so the workers of a
later `start` leave their loop at once.
-/

import BlueThread.ShardedThreadPool.Stop

namespace BlueThread.ShardedThreadPool

open Population

/-- `start` is called with a queue set, and not while a `stop` is under way. -/
def OneController (state : State) : Action → Prop
  | .start => state.wq = true ∧ state.stopping = false
  | _ => True

instance (state : State) (action : Action) : Decidable (OneController state action) :=
  match action with
  | .start => inferInstanceAs (Decidable (state.wq = true ∧ state.stopping = false))
  | .work _ | .dequeue _ _ _ | .complete _ _ | .timeout _ | .spurious _ | .queue _
  | .queueFront _ | .setWq | .stop _ | .join _ | .pause _ | .unpause _ | .drain _
  | .drainLock _ | .resume _ => inferInstanceAs (Decidable True)

/-- The thread indices of the workers in `threads_shardedpool`, in order. -/
def indices (threads : List Nat) (workers : List Worker) : List (Option Nat) :=
  threads.map fun worker => (workers[worker]?).map Worker.threadIndex

/-- Where a worker can be that was created after `stop_threads` was set. -/
def WorkerPc.late : WorkerPc → Bool
  | .starting => true
  | .top => true
  | .finished => true
  | _ => false

/-- Who is in `threads_shardedpool`, and who may have left the loop. -/
structure Manned (numThreads : Nat) (stopThreads stopping : Bool) (threads : List Nat)
    (workers : List Worker) : Prop where
  listed : ∀ (worker : Nat) (one : Worker), workers[worker]? = some one →
    one.pc ≠ .finished → worker ∈ threads
  filled : threads = [] ∨ indices threads workers = (List.range numThreads).map some
  running : stopThreads = false → ∀ one ∈ workers, one.pc ≠ .finished
  late : stopThreads = true → stopping = false → ∀ one ∈ workers, one.pc.late = true

/-! ### The vector of threads -/

theorem indices_set {workers : List Worker} {worker index : Nat} {pc : WorkerPc}
    (threads : List Nat) (found : workers[worker]? = some ⟨index, pc⟩) (new : WorkerPc) :
    indices threads (workers.set worker ⟨index, new⟩) = indices threads workers := by
  apply List.map_congr_left
  intro one _
  by_cases same : worker = one
  · subst one
    rw [getElem?_set_found found, found]
    rfl
  · rw [List.getElem?_set_ne same]

theorem indices_notify (threads : List Nat) (workers : List Worker) :
    indices threads (workers.map Worker.notify) = indices threads workers := by
  apply List.map_congr_left
  intro one _
  rw [List.getElem?_map, Option.map_map]
  cases workers[one]? with
  | none => rfl
  | some worker => exact congrArg some (notify_kept worker).1

section Crew

variable {numThreads : Nat} {stopThreads stopping : Bool} {threads : List Nat}
variable {workers : List Worker} {worker index : Nat} {pc new : WorkerPc}

/-- Where a worker may go: to the end only when the pool is stopped, and from the
end nowhere. -/
structure Proper (stopThreads : Bool) (pc new : WorkerPc) : Prop where
  gone : pc = .finished → new = .finished
  leaving : new = .finished → pc = .finished ∨ stopThreads = true
  late : stopThreads = true → pc.late = true → new.late = true

theorem Manned.setWorker (manned : Manned numThreads stopThreads stopping threads workers)
    (found : workers[worker]? = some ⟨index, pc⟩) (proper : Proper stopThreads pc new) :
    Manned numThreads stopThreads stopping threads (workers.set worker ⟨index, new⟩) where
  listed := by
    intro place one atPlace living
    rcases getElem?_set_cases found atPlace with ⟨rfl, rfl⟩ | ⟨_, before⟩
    · exact manned.listed worker _ found (fun gone => living (proper.gone gone))
    · exact manned.listed place one before living
  filled := by
    rw [indices_set threads found]
    exact manned.filled
  running := by
    intro live one member gone
    rcases List.mem_or_eq_of_mem_set member with kept | rfl
    · exact manned.running live one kept gone
    · rcases proper.leaving gone with before | stopped
      · exact manned.running live _ (List.mem_of_getElem? found) before
      · rw [live] at stopped
        cases stopped
  late := by
    intro stopped outside one member
    rcases List.mem_or_eq_of_mem_set member with kept | rfl
    · exact manned.late stopped outside one kept
    · exact proper.late stopped (manned.late stopped outside _ (List.mem_of_getElem? found))

theorem notify_finished (pc : WorkerPc) : pc.notify = .finished ↔ pc = .finished := by
  cases pc <;> simp [WorkerPc.notify]

theorem notify_late (pc : WorkerPc) (late : pc.late = true) : pc.notify.late = true := by
  cases pc <;> first | rfl | cases late

theorem Manned.notifyWorkers (manned : Manned numThreads stopThreads stopping threads workers) :
    Manned numThreads stopThreads stopping threads (workers.map Worker.notify) where
  listed := by
    intro place one atPlace living
    rw [List.getElem?_map, Option.map_eq_some_iff] at atPlace
    obtain ⟨before, found, rfl⟩ := atPlace
    exact manned.listed place before found
      (fun gone => living ((notify_finished before.pc).mpr gone))
  filled := by
    rw [indices_notify]
    exact manned.filled
  running := by
    intro live one member gone
    obtain ⟨before, present, rfl⟩ := List.mem_map.mp member
    exact manned.running live before present ((notify_finished before.pc).mp gone)
  late := by
    intro stopped outside one member
    obtain ⟨before, present, rfl⟩ := List.mem_map.mp member
    exact notify_late before.pc (manned.late stopped outside before present)

theorem Manned.clients {later : Bool}
    (manned : Manned numThreads stopThreads stopping threads workers)
    (kept : later = false → stopping = false) :
    Manned numThreads stopThreads later threads workers :=
  { manned with late := fun stopped outside => manned.late stopped (kept outside) }

theorem Manned.stop (manned : Manned numThreads stopThreads stopping threads workers) :
    Manned numThreads true true threads workers :=
  { manned with
    running := nofun
    late := nofun }

theorem Manned.gone (manned : Manned numThreads stopThreads stopping threads workers)
    (ended : ∀ worker ∈ threads, ∀ one, workers[worker]? = some one → one.pc = .finished) :
    ∀ one ∈ workers, one.pc = .finished := by
  intro one member
  obtain ⟨place, found⟩ := List.mem_iff_getElem?.mp member
  by_contra living
  exact living (ended place (manned.listed place one found living) one found)

theorem Manned.join {later : Bool}
    (manned : Manned numThreads stopThreads stopping threads workers)
    (ended : ∀ worker ∈ threads, ∀ one, workers[worker]? = some one → one.pc = .finished) :
    Manned numThreads stopThreads later [] workers where
  listed := by
    intro place one found living
    exact absurd (manned.gone ended one (List.mem_of_getElem? found)) living
  filled := Or.inl rfl
  running := manned.running
  late := by
    intro _ _ one member
    rw [manned.gone ended one member]
    rfl

theorem indices_length (indexed : indices threads workers = (List.range numThreads).map some) :
    threads.length = numThreads := by
  have same := congrArg List.length indexed
  rw [indices, List.length_map, List.length_map, List.length_range] at same
  exact same

theorem indices_found (indexed : indices threads workers = (List.range numThreads).map some)
    (member : worker ∈ threads) : ∃ one, workers[worker]? = some one := by
  have entry : (workers[worker]?).map Worker.threadIndex ∈ indices threads workers :=
    List.mem_map_of_mem member
  rw [indexed] at entry
  obtain ⟨index, _, same⟩ := List.mem_map.mp entry
  obtain ⟨one, found, _⟩ := Option.map_eq_some_iff.mp same.symm
  exact ⟨one, found⟩

theorem Manned.full (manned : Manned numThreads stopThreads stopping threads workers) :
    threads = [] ∨ threads.length = numThreads := by
  rcases manned.filled with none | indexed
  · exact Or.inl none
  · exact Or.inr (indices_length indexed)

theorem indices_fresh (workers : List Worker) (size : Nat) :
    indices (List.range' workers.length size)
        (workers ++ (List.range size).map fun index => ⟨index, .starting⟩) =
      (List.range size).map some := by
  unfold indices
  apply List.ext_getElem?
  intro place
  rw [List.getElem?_map, List.getElem?_map]
  rcases Nat.lt_or_ge place size with inside | outside
  · rw [List.getElem?_range' inside, List.getElem?_range inside, Option.map_some, Nat.one_mul,
      List.getElem?_append_right (Nat.le_add_right _ _), Nat.add_sub_cancel_left,
      List.getElem?_map, List.getElem?_range inside]
    rfl
  · rw [List.getElem?_eq_none (by rw [List.length_range']; exact outside),
      List.getElem?_eq_none (by rw [List.length_range]; exact outside)]
    rfl

theorem Manned.startThreads (manned : Manned numThreads stopThreads stopping threads workers) :
    Manned numThreads stopThreads stopping
        (threads ++ List.range' workers.length (numThreads - threads.length))
        (workers ++ (List.range (numThreads - threads.length)).map fun index =>
          ⟨index, .starting⟩) ∧
      indices (threads ++ List.range' workers.length (numThreads - threads.length))
        (workers ++ (List.range (numThreads - threads.length)).map fun index =>
          ⟨index, .starting⟩) = (List.range numThreads).map some := by
  have starting {one : Worker} {size : Nat}
      (member : one ∈ workers ++ (List.range size).map fun index => ⟨index, .starting⟩) :
      one ∈ workers ∨ one.pc = .starting := by
    rcases List.mem_append.mp member with old | fresh
    · exact Or.inl old
    · obtain ⟨index, _, rfl⟩ := List.mem_map.mp fresh
      exact Or.inr rfl
  have indexed : indices (threads ++ List.range' workers.length (numThreads - threads.length))
      (workers ++ (List.range (numThreads - threads.length)).map fun index =>
        ⟨index, .starting⟩) = (List.range numThreads).map some := by
    by_cases vacant : threads = []
    · subst vacant
      exact indices_fresh workers numThreads
    · have full := manned.full.resolve_left vacant
      rw [full, Nat.sub_self, List.range'_zero, List.append_nil, List.range_zero, List.map_nil,
        List.append_nil]
      exact manned.filled.resolve_left vacant
  refine ⟨⟨?_, Or.inr indexed, ?_, ?_⟩, indexed⟩
  · intro place one atPlace living
    rw [List.mem_append]
    rcases Nat.lt_or_ge place workers.length with below | above
    · rw [List.getElem?_append_left below] at atPlace
      exact Or.inl (manned.listed place one atPlace living)
    · right
      have inside := (List.getElem?_eq_some_iff.mp atPlace).1
      rw [List.length_append, List.length_map, List.length_range] at inside
      exact List.mem_range'_1.mpr ⟨above, inside⟩
  · intro live one member gone
    rcases starting member with old | fresh
    · exact manned.running live one old gone
    · rw [fresh] at gone
      cases gone
  · intro stopped outside one member
    rcases starting member with old | fresh
    · exact manned.late stopped outside one old
    · rw [fresh]
      rfl

end Crew

/-! ### Every step keeps the account -/

theorem stopping_set {clients : List Client} {client : Nat} {old new : Client}
    (found : clients[client]? = some old) (kept : old.pc = .stopJoining → new.pc = .stopJoining)
    (outside : ((clients.set client new).any fun one => one.pc = .stopJoining) = false) :
    (clients.any fun one => one.pc = .stopJoining) = false := by
  rw [List.any_eq_false] at outside ⊢
  intro one member
  rcases mem_set_or_replaced new found member with rfl | elsewhere
  · have gone := outside new (mem_set_new new found)
    simp only [decide_eq_true_eq] at gone ⊢
    exact fun stops => gone (kept stops)
  · exact outside one elsewhere

theorem stopping_notify {clients : List Client}
    (outside : ((clients.map Client.notify).any fun one => one.pc = .stopJoining) = false) :
    (clients.any fun one => one.pc = .stopJoining) = false := by
  rw [List.any_eq_false] at outside ⊢
  intro one member
  have gone := outside one.notify (List.mem_map_of_mem member)
  obtain ⟨pc, pauses⟩ := one
  cases pc with
  | stopJoining => exact gone
  | _ => exact Bool.false_ne_true

theorem Move.proper {state : State} {index : Nat} {pc new : WorkerPc}
    (moved : Move state index pc new) : Proper state.stopThreads pc new := by
  cases moved with
  | started set => exact ⟨nofun, nofun, fun _ _ => rfl⟩
  | leave stopped => exact ⟨nofun, fun _ => Or.inr stopped, fun _ _ => rfl⟩
  | round live =>
      refine ⟨nofun, nofun, ?_⟩
      intro stopped
      rw [live] at stopped
      cases stopped
  | wake =>
      exact ⟨(notify_finished pc).mpr, fun gone => Or.inl ((notify_finished pc).mp gone),
        fun _ => notify_late pc⟩
  | _ => exact ⟨nofun, nofun, nofun⟩

theorem isFinished_eq {state : State} {worker : Nat} (ended : state.isFinished worker = true)
    {one : Worker} (found : state.workers[worker]? = some one) : one.pc = .finished := by
  unfold State.isFinished at ended
  rw [found] at ended
  exact of_decide_eq_true ended

theorem joined_finished {state : State} (ended : state.threads.all state.isFinished = true)
    (worker : Nat) (member : worker ∈ state.threads) (one : Worker)
    (found : state.workers[worker]? = some one) : one.pc = .finished :=
  isFinished_eq (List.all_eq_true.mp ended worker member) found

theorem Effect.manned {state next : State} {action : Action} (effect : Effect state action next)
    (live : next.aborted = false)
    (manned : Manned state.numThreads state.stopThreads state.stopping state.threads
      state.workers) :
    Manned next.numThreads next.stopThreads next.stopping next.threads next.workers := by
  have busy (new : WorkerPc) {pc : WorkerPc} (before : pc ≠ .finished ∧ pc.late = false)
      (after : new ≠ .finished) : Proper state.stopThreads pc new :=
    ⟨fun gone => absurd gone before.1, fun gone => absurd gone after,
      fun _ late => absurd late (Bool.eq_false_iff.mp before.2)⟩
  cases effect with
  | move found moved => exact manned.setWorker found moved.proper
  | pauseEnter found paused =>
      exact (manned.setWorker found (busy .pauseWaiting ⟨nofun, rfl⟩ nofun)).clients stopping_notify
  | pausePass found unpaused =>
      exact (manned.setWorker found (busy .drainTest ⟨nofun, rfl⟩ nofun)).clients stopping_notify
  | pauseLeave found unpaused =>
      refine (manned.setWorker found (busy .drainTest ⟨nofun, rfl⟩ nofun)).clients ?_
      unfold State.stopping
      exact id
  | drainEnter found empty draining =>
      exact (manned.setWorker found (busy .drainWaiting ⟨nofun, rfl⟩ nofun)).clients stopping_notify
  | drainPass found empty idle =>
      exact (manned.setWorker found (busy (.process []) ⟨nofun, rfl⟩ nofun)).clients stopping_notify
  | drainLeave found idle asked =>
      refine (manned.setWorker found (busy (.process []) ⟨nofun, rfl⟩ nofun)).clients ?_
      unfold State.stopping
      exact id
  | dequeue found atShard atPlace => exact manned.setWorker found (busy _ ⟨nofun, rfl⟩ nofun)
  | complete found atPlace => exact manned.setWorker found (busy _ ⟨nofun, rfl⟩ nofun)
  | insert atShard inserted => exact manned
  | setWq => exact manned
  | start asked => exact manned.startThreads.1
  | stop asked found alone =>
      refine manned.stop.clients ?_
      intro outside
      rw [State.stopping, List.any_eq_false] at outside
      exact absurd rfl (outside _ (mem_set_new _ found))
  | join found ended => exact manned.join (joined_finished ended)
  | pauseBlock found entry short =>
      refine manned.clients (stopping_set found ?_)
      cases entry <;> exact nofun
  | pauseReturn found entry full =>
      refine manned.clients (stopping_set found ?_)
      cases entry <;> exact nofun
  | unpause asked found => exact manned.notifyWorkers.clients (stopping_set found nofun)
  | drainCall asked found => exact manned.clients (stopping_set found nofun)
  | drainBlock found entry short =>
      refine manned.clients (stopping_set found ?_)
      cases entry <;> exact nofun
  | drainReturn found entry full =>
      refine manned.notifyWorkers.clients (stopping_set found ?_)
      cases entry <;> exact nofun
  | spurious found =>
      refine manned.clients (stopping_set found ?_)
      intro stops
      rw [stops]
      rfl
  | abort stopThreads pauseThreads drainThreads unset => cases live

theorem reachable_manned {discipline : State → Action → Prop} {state : State}
    (reached : Runs.Reachable system discipline state) (live : state.aborted = false) :
    Manned state.numThreads state.stopThreads state.stopping state.threads state.workers := by
  revert live
  apply reached.invariant
  · rintro current ⟨numThreads, clients, small, rfl⟩ _
    exact ⟨nofun, Or.inl rfl, nofun, nofun⟩
  · intro current action following _ manned _ taken live
    exact (step_effect taken).manned live (manned (step_live taken))

/-! ### Cycles -/

theorem start_cases {state next : State} (taken : step state .start = some next) :
    next = startThreads state := by
  unfold step at taken
  split_ifs at taken
  cases taken
  rfl

theorem join_cases {state next : State} {client : Nat}
    (taken : step state (.join client) = some next) :
    state.threads.all state.isFinished = true ∧ next.workers = state.workers ∧
      next.threads = [] := by
  unfold step at taken
  split_ifs at taken
  change clientStep state (.join client) = some next at taken
  rw [clientStep] at taken
  split at taken
  · split_ifs at taken with ended
    cases taken
    exact ⟨ended, rfl, rfl⟩
  · cases taken

/-- The pool works, and nobody has called `stop` on it yet. -/
def Unstopped (state : State) : Prop :=
  state.stopThreads = false ∧ state.wq = true ∧ state.aborted = false

theorem Effect.unstopped {state next : State} {action : Action}
    (effect : Effect state action next) (running : NoStop action) (unstopped : Unstopped state) :
    Unstopped next := by
  cases effect with
  | setWq => exact ⟨unstopped.1, rfl, unstopped.2.2⟩
  | stop asked found alone =>
      subst asked
      cases running
  | abort stopThreads pauseThreads drainThreads unset =>
      rw [unstopped.2.1] at unset
      cases unset
  | _ => exact ⟨unstopped.1, unstopped.2.1, unstopped.2.2⟩

theorem reachable_unstopped {discipline : State → Action → Prop} {first state : State}
    (running : ∀ state action, discipline state action → NoStop action)
    (unstopped : Unstopped first)
    (reached : Runs.Reachable (system.after first) discipline state) : Unstopped state := by
  apply reached.invariant
  · intro current same
    rw [show current = first from same]
    exact unstopped
  · intro current action following _ unstopped permitted taken
    exact (step_effect taken).unstopped (running current action permitted) unstopped

theorem exits_of_late (state : State) (stopped : state.stopThreads = true)
    (set : state.wq = true) (live : state.aborted = false) {worker : Nat} {one : Worker}
    (found : state.workers[worker]? = some one) (late : one.pc.late = true) :
    CanExit state worker := by
  have leaving : Leaving state worker one.threadIndex one.pc state.pauseThreads
      state.drainThreads (state.isShardEmpty one.threadIndex) :=
    ⟨found, stopped, set, live, rfl, rfl, rfl⟩
  apply leaving.canExit
  obtain ⟨index, pc⟩ := one
  cases pc <;> first | rfl | cases late

theorem OwnStep.permitted {state : State} {worker : Nat} {action : Action}
    (own : OwnStep worker action) : OneController state action ∧ NoStop action := by
  cases action <;> first | exact ⟨trivial, trivial⟩ | cases own

/-- Over all cycles: every `start` leaves one thread for each index, and no live
worker besides them; every `stop` leaves no live worker. The threads of a `start`
serve until the next `stop` exactly if none was called before, or if there are no
threads at all. -/
theorem sharded_pool_cycles {state : State}
    (reached : Runs.Reachable system OneController state) :
    (∀ (client : Nat) (next : State), step state (.join client) = some next →
      (∀ one ∈ next.workers, one.pc = .finished) ∧ next.threads = []) ∧
    ∀ next : State, OneController state .start → step state .start = some next →
      indices next.threads next.workers = (List.range state.numThreads).map some ∧
      (∀ (worker : Nat) (one : Worker), next.workers[worker]? = some one →
        one.pc ≠ .finished → worker ∈ next.threads) ∧
      ((∀ later : State, Runs.Reachable (system.after next)
          (fun state action => OneController state action ∧ NoStop action) later →
        ∀ worker ∈ next.threads, ∀ index, later.workers[worker]? ≠ some ⟨index, .finished⟩) ↔
        state.stopThreads = false ∨ state.numThreads = 0) := by
  constructor
  · intro client next taken
    have manned := reachable_manned reached (step_live taken)
    obtain ⟨ended, workers, threads⟩ := join_cases taken
    refine ⟨?_, threads⟩
    rw [workers]
    exact manned.gone (joined_finished ended)
  · intro next controlled taken
    have live := step_live taken
    have manned := reachable_manned reached live
    have same := start_cases taken
    subst same
    obtain ⟨crewed, indexed⟩ := manned.startThreads
    refine ⟨indexed, crewed.listed, ?_⟩
    constructor
    · intro serve
      by_contra neither
      rw [not_or, Bool.not_eq_false] at neither
      obtain ⟨stopped, positive⟩ := neither
      have size : (startThreads state).threads.length = state.numThreads := indices_length indexed
      obtain ⟨worker, member⟩ := List.exists_mem_of_length_pos
        (show 0 < (startThreads state).threads.length by omega)
      obtain ⟨one, found⟩ := indices_found indexed member
      have late := crewed.late stopped controlled.2 one (List.mem_of_getElem? found)
      have exits : CanExit (startThreads state) worker :=
        exits_of_late (startThreads state) stopped controlled.1 live found late
      obtain ⟨later, index, path, finished⟩ := exits
      exact serve later (path.mono fun _ _ own => own.permitted) worker member index finished
    · intro condition later between worker member index finished
      rcases condition with unstopped | none
      · have still : Unstopped later := reachable_unstopped (fun _ _ permitted => permitted.2)
          (show Unstopped (startThreads state) from ⟨unstopped, controlled.1, live⟩) between
        have after : Runs.Reachable system OneController (startThreads state) :=
          .next .start reached controlled taken
        have whole : Runs.Reachable system OneController later :=
          after.append (between.mono fun _ _ permitted => permitted.1)
        exact (reachable_manned whole still.2.2).running still.1 _
          (List.mem_of_getElem? finished) rfl
      · have vacant : (startThreads state).threads = [] :=
          List.eq_nil_of_length_eq_zero ((indices_length indexed).trans none)
        rw [vacant] at member
        cases member

/-- The first cycle of a pool with two threads. -/
theorem sharded_pool_cycles_first :
    ∃ state next : State, Runs.Reachable system OneController state ∧
      step state .start = some next ∧ indices next.threads next.workers = [some 0, some 1] ∧
      ∀ worker ∈ next.threads, ∀ index, next.workers[worker]? ≠ some ⟨index, .finished⟩ := by
  obtain ⟨state, reached, passed⟩ := Runs.exists_of_replay OneController
    (show system.initial (State.initial 2 1) from ⟨2, 1, by decide, rfl⟩) [.setWq]
    (fun state : State => decide (OneController state .start ∧ state.numThreads = 2 ∧
      state.stopThreads = false) && (step state .start).isSome)
    (by decide +kernel)
  rw [Bool.and_eq_true, decide_eq_true_eq] at passed
  obtain ⟨⟨controlled, size, unstopped⟩, enabled⟩ := passed
  obtain ⟨next, taken⟩ := Option.isSome_iff_exists.mp enabled
  obtain ⟨indexed, _, serve⟩ := (sharded_pool_cycles reached).2 next controlled taken
  rw [size] at indexed
  exact ⟨state, next, reached, taken, indexed, serve.mpr (Or.inl unstopped) next (.start rfl)⟩

/-- In the second cycle the worker leaves its loop although nobody called `stop`. -/
theorem restarted_worker_leaves :
    ∃ state next later : State, Runs.Reachable system OneController state ∧
      state.threads = [] ∧ OneController state .start ∧ step state .start = some next ∧
      Runs.Reachable (system.after next)
        (fun state action => OneController state action ∧ NoStop action) later ∧
      ∃ worker ∈ next.threads, later.workers[worker]? = some ⟨0, .finished⟩ := by
  obtain ⟨state, reached, passed⟩ := Runs.exists_of_replay OneController
    (show system.initial (State.initial 1 1) from ⟨1, 1, by decide, rfl⟩)
    [.setWq, .start, .work 0, .stop 0, .work 0, .join 0]
    (fun state : State => decide (state.threads = [] ∧ OneController state .start) &&
      (step state .start).any fun next : State =>
        (Runs.replay (system.after next)
          (fun state action => OneController state action ∧ NoStop action) next
          [.work 1, .work 1]).any fun later : State =>
            decide (∃ worker ∈ next.threads,
              later.workers[worker]? = some (Worker.mk 0 .finished)))
    (by decide +kernel)
  rw [Bool.and_eq_true, decide_eq_true_eq] at passed
  obtain ⟨next, taken, ends⟩ := (Option.any_eq_true _ _).mp passed.2
  obtain ⟨later, replayed, gone⟩ := (Option.any_eq_true _ _).mp ends
  exact ⟨state, next, later, reached, passed.1.1, passed.1.2, taken,
    Runs.replay_reachable (.start rfl) replayed, of_decide_eq_true gone⟩

end BlueThread.ShardedThreadPool
