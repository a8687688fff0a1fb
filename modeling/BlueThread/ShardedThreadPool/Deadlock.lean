/-
A pause and a drain that wait for each other.

A worker passes the two waiting sections in a fixed order, and which of them
captures it depends on where it was when the flags were raised. As soon as there
are two workers, one can be captured by each section; then neither counter gets
full, and neither flag is cleared.
-/

import BlueThread.ShardedThreadPool.Pause

namespace BlueThread.ShardedThreadPool

open Population

/-- The first client pauses and the second one drains. -/
def PauserAndDrainer (state : State) : Action → Prop
  | .pause client => client = 0
  | .unpause client => client = 0 ∧ ∀ one ∈ state.clients[client]?, 0 < one.pauses
  | .drain client => client = 1
  | .stop _ => False
  | _ => True

instance (state : State) (action : Action) : Decidable (PauserAndDrainer state action) :=
  match action with
  | .pause client => inferInstanceAs (Decidable (client = 0))
  | .unpause client => inferInstanceAs (Decidable (client = 0 ∧ _))
  | .drain client => inferInstanceAs (Decidable (client = 1))
  | .stop _ => inferInstanceAs (Decidable False)
  | .work _ | .dequeue _ _ _ | .complete _ _ | .timeout _ | .spurious _ | .queue _
  | .queueFront _ | .setWq | .start | .join _ | .drainLock _ | .resume _ =>
      inferInstanceAs (Decidable True)

/-- Both calls wait for their counter, and every worker is parked in one of the
two sections. -/
structure Stuck (state : State) : Prop where
  started : state.workers.length = state.numThreads
  pauser : ∃ pauses, state.clients[0]? = some ⟨.pauseWait, pauses⟩
  notPaused : state.numPaused ≠ state.numThreads
  drainer : ∃ since pauses, state.clients[1]? = some ⟨.drainWait since, pauses⟩
  notDrained : state.numDrained ≠ state.numThreads
  parked : ∀ worker ∈ state.workers, worker.paused = 1 ∨ worker.drained = 1

/-! ### One worker -/

theorem Counted.not_stuck {state : State} (few : state.numThreads ≤ 1)
    (counted : Counted state.numPaused state.numDrained state.workers) : ¬Stuck state := by
  intro stuck
  have paused := counted.paused
  have drained := counted.drained
  have notPaused := stuck.notPaused
  have notDrained := stuck.notDrained
  have started := stuck.started
  cases alone : state.workers with
  | nil =>
      rw [alone] at paused started
      exact notPaused (paused.trans started)
  | cons worker rest =>
      rw [alone, List.length_cons] at started
      have nobody : rest = [] := List.eq_nil_of_length_eq_zero (by omega)
      subst nobody
      rw [alone, total_cons, total_nil] at paused drained
      rw [List.length_nil] at started
      rcases stuck.parked worker (by rw [alone]; exact List.mem_singleton_self worker) with
        inside | inside
      · omega
      · omega

/-! ### Two workers or more -/

/-- A crew whose workers have their place as thread index. -/
def crew (size : Nat) (pc : Nat → WorkerPc) : List Worker :=
  (List.range size).map fun index => ⟨index, pc index⟩

theorem crew_at {size : Nat} (pc : Nat → WorkerPc) {worker : Nat} (inside : worker < size) :
    (crew size pc)[worker]? = some ⟨worker, pc worker⟩ := by
  unfold crew
  rw [List.getElem?_map, List.getElem?_range inside]
  rfl

theorem crew_set (size : Nat) (pc : Nat → WorkerPc) (worker : Nat) (new : WorkerPc) :
    (crew size pc).set worker ⟨worker, new⟩ = crew size (Function.update pc worker new) := by
  unfold crew
  apply List.ext_getElem?
  intro place
  rw [List.getElem?_set, List.length_map, List.length_range]
  by_cases same : worker = place
  · subst place
    rw [if_pos rfl]
    split_ifs with inside
    · rw [List.getElem?_map, List.getElem?_range inside, Option.map_some, Function.update_self]
    · rw [List.getElem?_eq_none]
      simpa using inside
  · rw [if_neg same, List.getElem?_map, List.getElem?_map]
    cases atPlace : (List.range size)[place]? with
    | none => rfl
    | some index =>
        obtain ⟨inside, rfl⟩ := List.getElem?_eq_some_iff.mp atPlace
        simp only [Option.map_some, List.getElem_range]
        rw [Function.update_of_ne (Ne.symm same)]

def splitState (size : Nat) (pc : Nat → WorkerPc) (pauseThreads drainThreads : Bool)
    (numPaused numDrained : Nat) (clients : List Client) : State :=
  { State.initial size 2 with
    wq := true
    threads := List.range' 0 size
    workers := crew size pc
    pauseThreads := pauseThreads
    drainThreads := drainThreads
    numPaused := numPaused
    numDrained := numDrained
    clients := clients }

theorem pauseLoop_short {state : State} {client pauses : Nat}
    (short : state.numThreads ≠ state.numPaused) :
    pauseLoop state client pauses = state.setClient client .pauseWait pauses :=
  if_pos short

theorem drainLoop_short {state : State} {client pauses since : Nat}
    (short : state.numThreads ≠ state.numDrained) :
    drainLoop state client pauses since = state.setClient client (.drainWait since) pauses :=
  if_pos short

section Split

variable {size : Nat} {pc : Nat → WorkerPc} {pauseThreads drainThreads : Bool}
variable {numPaused numDrained worker : Nat} {clients : List Client}

theorem split_work (next : State) {old : WorkerPc} (inside : worker < size)
    (place : pc worker = old)
    (worked : work (splitState size pc pauseThreads drainThreads numPaused numDrained clients)
      worker worker old = some next)
    (before : Runs.Reachable (system.after (State.initial size 2)) PauserAndDrainer
      (splitState size pc pauseThreads drainThreads numPaused numDrained clients)) :
    Runs.Reachable (system.after (State.initial size 2)) PauserAndDrainer next := by
  refine .next (.work worker) before trivial ?_
  change ((crew size pc)[worker]?).bind (fun one => work _ worker one.threadIndex one.pc) = _
  rw [crew_at pc inside, place]
  exact worked

theorem split_setWorker (new : WorkerPc) :
    (splitState size pc pauseThreads drainThreads numPaused numDrained clients).setWorker worker
        worker new =
      splitState size (Function.update pc worker new) pauseThreads drainThreads numPaused
        numDrained clients := by
  unfold splitState State.setWorker
  rw [crew_set]

theorem split_notified (told : clients.map Client.notify = clients) :
    (splitState size pc pauseThreads drainThreads numPaused numDrained clients).notifyClients =
      splitState size pc pauseThreads drainThreads numPaused numDrained clients := by
  unfold splitState State.notifyClients
  simp only [told]

theorem split_move (new : WorkerPc) {old : WorkerPc} (inside : worker < size)
    (place : pc worker = old)
    (worked : work (splitState size pc pauseThreads drainThreads numPaused numDrained clients)
        worker worker old =
      some ((splitState size pc pauseThreads drainThreads numPaused numDrained clients).setWorker
        worker worker new))
    (before : Runs.Reachable (system.after (State.initial size 2)) PauserAndDrainer
      (splitState size pc pauseThreads drainThreads numPaused numDrained clients)) :
    Runs.Reachable (system.after (State.initial size 2)) PauserAndDrainer
      (splitState size (Function.update pc worker new) pauseThreads drainThreads numPaused
        numDrained clients) := by
  rw [← split_setWorker]
  exact split_work _ inside place worked before

theorem split_approach (inside : worker < size) (place : pc worker = .starting)
    (before : Runs.Reachable (system.after (State.initial size 2)) PauserAndDrainer
      (splitState size pc false drainThreads numPaused numDrained clients)) :
    Runs.Reachable (system.after (State.initial size 2)) PauserAndDrainer
      (splitState size (Function.update pc worker .drainTest) false drainThreads numPaused
        numDrained clients) := by
  have atTop := split_move .top inside place rfl before
  have atTest := split_move .pauseTest inside (Function.update_self ..) rfl atTop
  have past := split_move .drainTest inside (Function.update_self ..) rfl atTest
  rw [Function.update_idem, Function.update_idem] at past
  exact past

theorem split_drain (small : size < 2 ^ 32) (inside : worker < size)
    (place : pc worker = .drainTest) (few : numDrained < size)
    (told : clients.map Client.notify = clients)
    (before : Runs.Reachable (system.after (State.initial size 2)) PauserAndDrainer
      (splitState size pc pauseThreads true numPaused numDrained clients)) :
    Runs.Reachable (system.after (State.initial size 2)) PauserAndDrainer
      (splitState size (Function.update pc worker .drainWaiting) pauseThreads true numPaused
        (numDrained + 1) clients) := by
  have atLock := split_move .drainLock inside place rfl before
  have empty : (splitState size (Function.update pc worker .drainLock) pauseThreads true numPaused
      numDrained clients).isShardEmpty worker = true := by
    change ((List.replicate size ([] : List Nat))[worker]?).all List.isEmpty = true
    rw [List.getElem?_replicate, if_pos inside]
    rfl
  have parked := split_work (splitState size
    (Function.update (Function.update pc worker .drainLock) worker .drainWaiting) pauseThreads true
      numPaused (numDrained + 1) clients) inside (Function.update_self ..) ?_ atLock
  · rw [Function.update_idem] at parked
    exact parked
  · rw [work, if_pos empty, split_notified told, ← increment_eq few small]
    exact congrArg some (split_setWorker .drainWaiting)

end Split

def upTo (count : Nat) (after before : Nat → WorkerPc) : Nat → WorkerPc :=
  fun worker => if worker < count then after worker else before worker

theorem upTo_succ (count : Nat) (after before : Nat → WorkerPc) :
    Function.update (upTo count after before) count (after count) =
      upTo (count + 1) after before := by
  funext worker
  unfold upTo
  by_cases same : worker = count
  · subst worker
    rw [Function.update_self, if_pos (Nat.lt_succ_self count)]
  · rw [Function.update_of_ne same]
    by_cases below : worker < count
    · rw [if_pos below, if_pos (by omega)]
    · rw [if_neg below, if_neg (by omega)]

theorem upTo_self (count : Nat) (after before : Nat → WorkerPc) :
    upTo count after before count = before count :=
  if_neg (Nat.lt_irrefl count)

theorem split_approach_all {size : Nat} (count : Nat) (within : count ≤ size)
    (before : Runs.Reachable (system.after (State.initial size 2)) PauserAndDrainer
      (splitState size (fun _ => .starting) false false 0 0 [⟨.idle, 0⟩, ⟨.idle, 0⟩])) :
    Runs.Reachable (system.after (State.initial size 2)) PauserAndDrainer
      (splitState size (upTo count (fun _ => .drainTest) fun _ => .starting) false false 0 0
        [⟨.idle, 0⟩, ⟨.idle, 0⟩]) := by
  induction count with
  | zero => exact before
  | succ count ih =>
      rw [← upTo_succ]
      exact split_approach within (upTo_self ..) (ih (by omega))

def splitPc : Nat → WorkerPc
  | 0 => .pauseWaiting
  | _ + 1 => .drainWaiting

theorem split_drain_all {size : Nat} (small : size < 2 ^ 32) (count : Nat)
    (within : count + 1 ≤ size) {pc : Nat → WorkerPc}
    (reading : ∀ worker < size, pc worker = .drainTest)
    (before : Runs.Reachable (system.after (State.initial size 2)) PauserAndDrainer
      (splitState size (upTo 1 splitPc pc) true true 1 0
        [⟨.pauseWoken, 0⟩, ⟨.drainWoken 0, 0⟩])) :
    Runs.Reachable (system.after (State.initial size 2)) PauserAndDrainer
      (splitState size (upTo (count + 1) splitPc pc) true true 1 count
        [⟨.pauseWoken, 0⟩, ⟨.drainWoken 0, 0⟩]) := by
  induction count with
  | zero => exact before
  | succ count ih =>
      rw [← upTo_succ]
      have place : upTo (count + 1) splitPc pc (count + 1) = .drainTest := by
        rw [upTo_self]
        exact reading (count + 1) within
      exact split_drain small within place (by omega) rfl (ih (by omega))

theorem split_reachable {size : Nat} (small : size < 2 ^ 32) (several : 2 ≤ size) :
    ∃ pc, Runs.Reachable (system.after (State.initial size 2)) PauserAndDrainer
      (splitState size (upTo size splitPc pc) true true 1 (size - 1)
        [⟨.pauseWait, 0⟩, ⟨.drainWait 0, 0⟩]) := by
  have set : Runs.Reachable (system.after (State.initial size 2)) PauserAndDrainer
      { State.initial size 2 with wq := true } := .next .setWq (.start rfl) trivial rfl
  have started : Runs.Reachable (system.after (State.initial size 2)) PauserAndDrainer
      (splitState size (fun _ => .starting) false false 0 0 [⟨.idle, 0⟩, ⟨.idle, 0⟩]) :=
    .next .start set trivial rfl
  have ready := split_approach_all size (Nat.le_refl size) started
  generalize approached : upTo size (fun _ => .drainTest) (fun _ => .starting) = pc at ready
  have reading (worker : Nat) (inside : worker < size) : pc worker = .drainTest := by
    rw [← approached]
    exact if_pos inside
  have positive : 0 < size := by omega
  -- the first worker goes round before the pause begins
  have busy := split_move (.process []) positive (reading 0 positive) rfl ready
  have atTop := split_move .top positive (Function.update_self ..) rfl busy
  have atTest := split_move .pauseTest positive (Function.update_self ..) rfl atTop
  rw [Function.update_idem, Function.update_idem] at atTest
  have pausing : Runs.Reachable (system.after (State.initial size 2)) PauserAndDrainer
      (splitState size (Function.update pc 0 .pauseTest) true false 0 0
        [⟨.pauseWait, 0⟩, ⟨.idle, 0⟩]) := by
    refine .next (.pause 0) atTest rfl ?_
    exact congrArg some (pauseLoop_short (show size ≠ 0 by omega))
  have atLock := split_move .pauseLock positive (Function.update_self ..) rfl pausing
  rw [Function.update_idem] at atLock
  have parked : Runs.Reachable (system.after (State.initial size 2)) PauserAndDrainer
      (splitState size (Function.update (Function.update pc 0 .pauseLock) 0 .pauseWaiting) true
        false 1 0 [⟨.pauseWoken, 0⟩, ⟨.idle, 0⟩]) := by
    refine split_work _ positive (Function.update_self ..) ?_ atLock
    exact congrArg some (split_setWorker .pauseWaiting)
  rw [Function.update_idem] at parked
  have draining : Runs.Reachable (system.after (State.initial size 2)) PauserAndDrainer
      (splitState size (Function.update pc 0 .pauseWaiting) true true 1 0
        [⟨.pauseWoken, 0⟩, ⟨.drainWait 0, 0⟩]) := by
    refine .next (.drainLock 1) (.next (.drain 1) parked rfl rfl) trivial ?_
    exact congrArg some (drainLoop_short (show size ≠ 0 by omega))
  have woken : Runs.Reachable (system.after (State.initial size 2)) PauserAndDrainer
      (splitState size (upTo 1 splitPc pc) true true 1 0
        [⟨.pauseWoken, 0⟩, ⟨.drainWoken 0, 0⟩]) := by
    rw [← upTo_succ]
    exact .next (.spurious 1) draining trivial rfl
  have all := split_drain_all small (size - 1) (by omega) reading woken
  rw [Nat.sub_add_cancel positive] at all
  have again : Runs.Reachable (system.after (State.initial size 2)) PauserAndDrainer
      (splitState size (upTo size splitPc pc) true true 1 (size - 1)
        [⟨.pauseWait, 0⟩, ⟨.drainWoken 0, 0⟩]) := by
    refine .next (.resume 0) all trivial ?_
    exact congrArg some (pauseLoop_short (show size ≠ 1 by omega))
  refine ⟨pc, .next (.resume 1) again trivial ?_⟩
  exact congrArg some (drainLoop_short (show size ≠ size - 1 by omega))

theorem split_stuck {size : Nat} (several : 2 ≤ size) (pc : Nat → WorkerPc) :
    Stuck (splitState size (upTo size splitPc pc) true true 1 (size - 1)
      [⟨.pauseWait, 0⟩, ⟨.drainWait 0, 0⟩]) where
  started := by
    change (crew size _).length = size
    rw [crew, List.length_map, List.length_range]
  pauser := ⟨0, rfl⟩
  notPaused := by
    change 1 ≠ size
    omega
  drainer := ⟨0, 0, rfl⟩
  notDrained := by
    change size - 1 ≠ size
    omega
  parked := by
    intro worker member
    obtain ⟨index, inside, rfl⟩ := List.mem_map.mp member
    have place : upTo size splitPc pc index = splitPc index := if_pos (List.mem_range.mp inside)
    rw [place]
    cases index with
    | zero => exact Or.inl rfl
    | succ index => exact Or.inr rfl

theorem reachable_numThreads {discipline : State → Action → Prop} {first state : State}
    (reached : Runs.Reachable (system.after first) discipline state) :
    state.numThreads = first.numThreads := by
  apply reached.invariant
  · intro current same
    rw [show current = first from same]
  · intro current action following _ same _ taken
    exact (step_effect taken).numThreads.trans same

theorem PauserAndDrainer.noStop {state : State} {action : Action}
    (permitted : PauserAndDrainer state action) : NoStop action := by
  cases action with
  | stop client => cases permitted
  | _ => trivial

/-- A pause and a drain can block each other for good exactly in the pools with
more than one thread. -/
theorem pause_and_drain_both_end (size : Nat) (small : size < 2 ^ 32) :
    (∀ state : State, Runs.Reachable (system.after (State.initial size 2)) PauserAndDrainer state →
      ¬Stuck state) ↔ size ≤ 1 := by
  constructor
  · intro never
    by_contra several
    obtain ⟨pc, reached⟩ := split_reachable small (by omega)
    exact never _ reached (split_stuck (by omega) pc)
  · intro few state reached
    have whole : Runs.Reachable system PauserAndDrainer state :=
      Runs.Reachable.append (.start ⟨size, 2, small, rfl⟩) reached
    have same := reachable_numThreads reached
    apply (reachable_counted (fun _ _ permitted => permitted.noStop) whole).not_stuck
    rw [same]
    exact few

/-- Pools with one and with two threads. -/
theorem pause_and_drain_both_end_sizes :
    (∀ state : State, Runs.Reachable (system.after (State.initial 1 2)) PauserAndDrainer state →
      ¬Stuck state) ∧
    ¬∀ state : State, Runs.Reachable (system.after (State.initial 2 2)) PauserAndDrainer state →
      ¬Stuck state :=
  ⟨(pause_and_drain_both_end 1 (by decide)).mpr (Nat.le_refl 1),
    fun never => absurd ((pause_and_drain_both_end 2 (by decide)).mp never) (by decide)⟩

/-- Two workers, each captured by one of the sections. -/
theorem pause_and_drain_stuck :
    ∃ state : State, Runs.Reachable (system.after (State.initial 2 2)) PauserAndDrainer state ∧
      Stuck state := by
  obtain ⟨state, reached, passed⟩ := Runs.exists_of_replay PauserAndDrainer
    (show (system.after (State.initial 2 2)).initial (State.initial 2 2) from rfl)
    [.setWq, .start, .work 0, .work 0, .work 1, .work 1, .work 1, .pause 0, .work 0, .work 0,
      .drain 1, .drainLock 1, .work 1, .work 1, .resume 0, .resume 1]
    (fun state : State => decide (state.workers = [⟨0, .pauseWaiting⟩, ⟨1, .drainWaiting⟩] ∧
      state.clients = [⟨.pauseWait, 0⟩, ⟨.drainWait 0, 0⟩] ∧ state.numThreads = 2 ∧
      state.numPaused = 1 ∧ state.numDrained = 1))
    (by decide +kernel)
  obtain ⟨workers, clients, size, paused, drained⟩ := of_decide_eq_true passed
  refine ⟨state, reached, ?_⟩
  exact
    { started := by rw [workers, size]; rfl
      pauser := ⟨0, by rw [clients]; rfl⟩
      notPaused := by rw [paused, size]; decide
      drainer := ⟨0, 0, by rw [clients]; rfl⟩
      notDrained := by rw [drained, size]; decide
      parked := by rw [workers]; decide }

end BlueThread.ShardedThreadPool
