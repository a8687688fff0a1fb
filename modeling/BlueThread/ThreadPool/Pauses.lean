/-
The pause counter and the pauses that are outstanding.

`pause` adds one to `_pause` and `unpause` takes one off, whoever calls them. The
worker asks only whether the counter is zero. An `unpause` that has no pause to
undo makes it negative: the pool stops, and the next `pause` sets it going again.
-/

import BlueThread.ThreadPool.RoundRobin

namespace BlueThread.ThreadPool

variable {α : Type}

/-- The pauses that are outstanding after a run, the latest call first. A pause
counts from its call on; an `unpause` with nothing to undo is ignored. -/
def outstanding : List (Action α) → Nat
  | [] => 0
  | .pause _ :: past => outstanding past + 1
  | .unpause _ :: past => outstanding past - 1
  | _ :: past => outstanding past

/-- Every `unpause` of the run had a pause to undo. -/
def AllMatched : List (Action α) → Prop
  | [] => True
  | .unpause _ :: past => 0 < outstanding past ∧ AllMatched past
  | _ :: past => AllMatched past

/-- Workers take items exactly while no pause is outstanding. -/
structure PausesObeyed (state : State α) (pauses : Nat) : Prop where
  nonneg : 0 ≤ state.pause
  flag : state.pause = 0 ↔ pauses = 0
  dequeues : ∀ worker following, state.workers[worker]? = some .top → state.stop = false →
    (∃ wq ∈ state.workQueues, state.HasItems wq) →
    step state (.work worker) = some following →
    ((∃ wq, following.workers[worker]? = some (.toProcess wq)) ↔ pauses = 0)

section Step

variable {state following : State α} {worker : Nat}

theorem dequeues_iff (found : state.workers[worker]? = some .top) (live : state.stop = false)
    (filled : ∃ wq ∈ state.workQueues, state.HasItems wq)
    (taken : step state (.work worker) = some following) :
    (∃ wq, following.workers[worker]? = some (.toProcess wq)) ↔ state.pause = 0 := by
  obtain ⟨wq, registered, queue, atQueue, items⟩ := filled
  have seated : worker < state.workers.length := (List.getElem?_eq_some_iff.mp found).1
  have result := step_top found taken
  unfold workerTop at result
  rw [if_neg (by rw [live]; nofun), if_neg (List.ne_nil_of_mem registered)] at result
  by_cases unpaused : state.pause = 0
  · rw [if_neg (not_ne_iff.mpr unpaused)] at result
    split at result
    · rename_i left chosen after scanned
      subst result
      exact ⟨fun _ => unpaused, fun _ => ⟨chosen, List.getElem?_set_self seated⟩⟩
    · rename_i left scanned
      exact absurd (scan_complete scanned registered atQueue) items
  · rw [if_pos unpaused] at result
    subst result
    constructor
    · rintro ⟨chosen, goes⟩
      change (state.workers.set worker .waiting)[worker]? = _ at goes
      rw [List.getElem?_set_self seated] at goes
      cases goes
    · exact fun zero => absurd zero unpaused

theorem pausesObeyed_iff {pauses : Nat} (nonneg : 0 ≤ state.pause) :
    PausesObeyed state pauses ↔ (state.pause = 0 ↔ pauses = 0) := by
  constructor
  · exact PausesObeyed.flag
  · intro flag
    refine ⟨nonneg, flag, ?_⟩
    intro worker following found live filled taken
    exact (dequeues_iff found live filled taken).trans flag

end Step

/-! ### Runs -/

section Runs

variable {past : List (Action α)} {state : State α}

theorem pause_eq_outstanding
    (recorded : Runs.Recorded (system α) (fun _ _ => True) past state) (matched : AllMatched past) :
    state.pause = outstanding past := by
  induction recorded with
  | start initial =>
      obtain ⟨numThreads, clients, rfl⟩ := initial
      rfl
  | @next past current following action _ _ taken ih =>
      rw [(step_fields taken).1]
      cases action with
      | pause client =>
          rw [ih matched]
          rfl
      | unpause client =>
          obtain ⟨positive, earlier⟩ := matched
          rw [ih earlier, Action.pauseChange, outstanding]
          omega
      | _ =>
          rw [ih matched]
          exact Int.add_zero _

/-- Pauses are obeyed for as long as every `unpause` has one to undo, and not a
step longer. -/
theorem pauses_obeyed (recorded : Runs.Recorded (system α) (fun _ _ => True) past state)
    (matched : AllMatched past) :
    PausesObeyed state (outstanding past) ∧
      ∀ action following, step state action = some following →
        (PausesObeyed following (outstanding (action :: past)) ↔ AllMatched (action :: past)) := by
  have obeyed {past : List (Action α)} {state : State α}
      (recorded : Runs.Recorded (system α) (fun _ _ => True) past state)
      (matched : AllMatched past) : PausesObeyed state (outstanding past) := by
    have counted := pause_eq_outstanding recorded matched
    rw [pausesObeyed_iff (by omega), counted]
    omega
  refine ⟨obeyed recorded matched, ?_⟩
  intro action following taken
  constructor
  · intro kept
    by_cases surplus : ∃ client, action = .unpause client
    · obtain ⟨client, rfl⟩ := surplus
      have counted := pause_eq_outstanding recorded matched
      have lowered := (step_fields taken).1
      have nonneg := kept.nonneg
      rw [Action.pauseChange] at lowered
      exact ⟨by omega, matched⟩
    · cases action with
      | unpause client => exact absurd ⟨client, rfl⟩ surplus
      | _ => exact matched
  · intro still
    exact obeyed (.next action recorded trivial taken) still

end Runs

/-- A pause that was undone, and a second one after it. -/
theorem pauses_obeyed_twice :
    ∃ state : State Nat, Runs.Recorded (system Nat) (fun _ _ => True)
        [.pause 0, .unpause 0, .pause 0] state ∧ PausesObeyed state 1 := by
  have start : Runs.Recorded (system Nat) (fun _ _ => True) [] (State.initial 1 1) :=
    .start ⟨1, 1, rfl⟩
  obtain ⟨state, replayed⟩ := Option.isSome_iff_exists.mp (show (Runs.replay (system Nat)
    (fun _ _ => True) (State.initial 1 1) [.pause 0, .unpause 0, .pause 0]).isSome = true by decide)
  have recorded := Runs.replay_recorded start replayed
  exact ⟨state, recorded, (pauses_obeyed recorded ⟨by decide, trivial⟩).1⟩

/-- A surplus `unpause` makes the counter negative, so that a worker goes to sleep
in a pool that nobody has paused. The `pause` that follows returns, and the worker
takes an item all the same. -/
theorem surplus_unpause_inverts :
    ∃ frozen paused : State Nat,
      (∃ past, Runs.Recorded (system Nat) (fun _ _ => True) past frozen ∧
        outstanding past = 0 ∧ frozen.pause = -1 ∧ frozen.HasItems 0 ∧
        frozen.workers[0]? = some .waiting) ∧
      ∃ past, Runs.Recorded (system Nat) (fun _ _ => True) past paused ∧
        outstanding past = 1 ∧ paused.clients[0]? = some ⟨.idle, 1⟩ ∧
        paused.workers[0]? = some (.toProcess 0) := by
  have start : Runs.Recorded (system Nat) (fun _ _ => True) [] (State.initial 1 1) :=
    .start ⟨1, 1, rfl⟩
  have first : (Runs.replay (system Nat) (fun _ _ => True) (State.initial 1 1)
      [.newQueue false, .queue 0 7 none, .unpause 0, .start, .work 0, .work 0]).any
      (fun state => decide (state.pause = -1 ∧ state.HasItems 0 ∧
        state.workers[0]? = some WorkerPc.waiting)) = true := by decide
  have second : (Runs.replay (system Nat) (fun _ _ => True) (State.initial 1 1)
      [.newQueue false, .queue 0 7 none, .unpause 0, .start, .pause 0, .work 0, .work 0]).any
      (fun state => decide (state.clients[0]? = some (Client.mk .idle 1) ∧
        state.workers[0]? = some (WorkerPc.toProcess 0))) = true := by decide
  obtain ⟨frozen, atFrozen, passed⟩ := (Option.any_eq_true _ _).mp first
  obtain ⟨paused, atPaused, dequeued⟩ := (Option.any_eq_true _ _).mp second
  obtain ⟨negative, filled, asleep⟩ := of_decide_eq_true passed
  exact ⟨frozen, paused,
    ⟨_, Runs.replay_recorded start atFrozen, rfl, negative, filled, asleep⟩,
    ⟨_, Runs.replay_recorded start atPaused, rfl, of_decide_eq_true dequeued⟩⟩

end BlueThread.ThreadPool
