/-
The scan of a worker while queues come and go.

The cursor is reduced only at the start of a round of the scan, so between two scans
it may be behind the end of a list that has become shorter. Each place that the scan
reads is reduced first, by the size of the list as it is now, and the list is not
empty when the scan begins.
-/

import BlueThread.ThreadPool.RoundRobin

namespace BlueThread.ThreadPool

variable {α : Type}

/-- The indices that the loop `while (tries--)` reads `work_queues` at, one for each
iteration. -/
def scanPlaces (queues : List (WorkQueue α)) (workQueues : List Nat) : Nat → Int → List Int
  | 0, _ => []
  | tries + 1, next =>
      let place := wrapIndex next workQueues.length
      place ::
        match workQueues[place.toNat]? with
        | none => []
        | some wq =>
            match (queues[wq]?).bind WorkQueue.voidDequeue with
            | some _ => []
            | none => scanPlaces queues workQueues tries (place + 1)

section Loop

variable (queues : List (WorkQueue α)) {workQueues : List Nat} (tries : Nat) (next : Int)

theorem scanPlaces_length (workQueues : List Nat) :
    (scanPlaces queues workQueues tries next).length ≤ tries := by
  induction tries generalizing next with
  | zero => exact Nat.le_refl 0
  | succ tries ih =>
      rw [scanPlaces, List.length_cons]
      apply Nat.succ_le_succ
      cases workQueues[(wrapIndex next workQueues.length).toNat]? with
      | none => exact Nat.zero_le tries
      | some wq =>
          dsimp only
          cases (queues[wq]?).bind WorkQueue.voidDequeue with
          | some queue => exact Nat.zero_le tries
          | none => exact ih (wrapIndex next workQueues.length + 1)

theorem scanPlaces_inside (registered : workQueues ≠ []) :
    ∀ place ∈ scanPlaces queues workQueues tries next,
      0 ≤ place ∧ place < workQueues.length := by
  have positive : 0 < workQueues.length := List.length_pos_of_ne_nil registered
  induction tries generalizing next with
  | zero =>
      intro place member
      cases member
  | succ tries ih =>
      intro place member
      rw [scanPlaces, List.mem_cons] at member
      cases member with
      | inl first =>
          rw [first]
          exact wrapIndex_bounds next positive
      | inr later =>
          cases atPlace : workQueues[(wrapIndex next workQueues.length).toNat]? with
          | none =>
              rw [atPlace] at later
              cases later
          | some wq =>
              rw [atPlace] at later
              dsimp only at later
              cases dequeued : (queues[wq]?).bind WorkQueue.voidDequeue with
              | some queue =>
                  rw [dequeued] at later
                  cases later
              | none =>
                  rw [dequeued] at later
                  exact ih _ place later

theorem scan_left (workQueues : List Nat) :
    (scan queues workQueues tries next).1 =
      match (scanPlaces queues workQueues tries next).getLast? with
      | none => next
      | some place => place + 1 := by
  induction tries generalizing next with
  | zero => rfl
  | succ tries ih =>
      rw [scan, scanPlaces]
      cases workQueues[(wrapIndex next workQueues.length).toNat]? with
      | none => rfl
      | some wq =>
          dsimp only
          cases (queues[wq]?).bind WorkQueue.voidDequeue with
          | some queue => rfl
          | none =>
              dsimp only
              rw [ih, List.getLast?_cons]
              cases (scanPlaces queues workQueues tries
                (wrapIndex next workQueues.length + 1)).getLast? with
              | none => rfl
              | some place => rfl

theorem scan_cursor (registered : workQueues ≠ []) :
    0 ≤ (scan queues workQueues (tries + 1) next).1 ∧
      (scan queues workQueues (tries + 1) next).1 ≤ workQueues.length := by
  have inside := scanPlaces_inside queues (tries + 1) next registered
  rw [scan_left]
  cases last : (scanPlaces queues workQueues (tries + 1) next).getLast? with
  | none =>
      rw [List.getLast?_eq_none_iff, scanPlaces] at last
      cases last
  | some place =>
      obtain ⟨low, high⟩ := inside place (List.mem_of_getLast? last)
      change 0 ≤ place + 1 ∧ place + 1 ≤ workQueues.length
      omega

end Loop

section Rounds

variable {state following : State α} {worker : Nat}

structure ScanOutcome (state following : State α) (worker : Nat) : Prop where
  cursor : 0 ≤ following.nextWorkQueue ∧ following.nextWorkQueue ≤ state.workQueues.length
  complete : following.workers[worker]? = some .waiting →
    ∀ wq ∈ state.workQueues, ¬ state.HasItems wq

theorem scan_outcome (scans : Scans state worker)
    (taken : step state (.work worker) = some following) :
    ScanOutcome state following worker := by
  have result := step_top scans.1 taken
  obtain ⟨found, live, nonempty, unpaused⟩ := scans
  have positive := List.length_pos_of_ne_nil nonempty
  obtain ⟨tries, enough⟩ : ∃ tries, 2 * state.workQueues.length = tries + 1 :=
    ⟨2 * state.workQueues.length - 1, by omega⟩
  have cursor := scan_cursor state.queues tries state.nextWorkQueue nonempty
  rw [← enough] at cursor
  rw [workerTop, live, if_neg Bool.false_ne_true, if_neg nonempty,
    if_neg (not_ne_iff.mpr unpaused)] at result
  cases scanned : scan state.queues state.workQueues (2 * state.workQueues.length)
      state.nextWorkQueue with
  | mk left outcome =>
      rw [scanned] at result cursor
      cases outcome with
      | some chosen =>
          obtain ⟨wq, queue⟩ := chosen
          subst result
          refine ⟨cursor, ?_⟩
          intro waits
          have goes : (state.workers.set worker (.toProcess wq))[worker]? = some (.toProcess wq) :=
            Population.getElem?_set_found found
          rw [show (state.workers.set worker (.toProcess wq))[worker]? = some .waiting from waits]
            at goes
          cases goes
      | none =>
          subst result
          refine ⟨cursor, ?_⟩
          intro _waits wq registered filled
          obtain ⟨queue, atQueue, items⟩ := filled
          exact items (scan_complete scanned registered atQueue)

theorem reachable_cursor {state : State α}
    (reached : Runs.Reachable (system α) (fun _ _ => True) state) : 0 ≤ state.nextWorkQueue := by
  apply reached.invariant
  · intro current initial
    obtain ⟨numThreads, clients, same⟩ := initial
    rw [same]
    exact Int.le_refl 0
  · intro current action following _reached nonneg _permitted taken
    by_cases scanning : ∃ worker, action = .work worker ∧ Scans current worker
    · obtain ⟨worker, same, scans⟩ := scanning
      rw [same] at taken
      exact (scan_outcome scans taken).cursor.1
    · have quiet : ∀ worker, action = .work worker → ¬ Scans current worker :=
        fun worker same scans => scanning ⟨worker, same, scans⟩
      rw [(step_fields taken).2 quiet]
      exact nonneg

/-- In every state of every run the cursor is not negative, and a scan that begins there
divides by the size of a list that is not empty, reads it at places that it has, reads it
at most twice as often as it has places, and finds nothing only if there is nothing. -/
theorem scan_safe_and_complete {state : State α}
    (reached : Runs.Reachable (system α) (fun _ _ => True) state) :
    0 ≤ state.nextWorkQueue ∧ ∀ worker, Scans state worker →
      state.workQueues.length ≠ 0 ∧
      (∀ place ∈ scanPlaces state.queues state.workQueues (2 * state.workQueues.length)
        state.nextWorkQueue, 0 ≤ place ∧ place < state.workQueues.length) ∧
      (scanPlaces state.queues state.workQueues (2 * state.workQueues.length)
        state.nextWorkQueue).length ≤ 2 * state.workQueues.length ∧
      ∀ following, step state (.work worker) = some following →
        following.nextWorkQueue ≤ state.workQueues.length ∧
        (following.workers[worker]? = some .waiting →
          ∀ wq ∈ state.workQueues, ¬ state.HasItems wq) := by
  refine ⟨reachable_cursor reached, ?_⟩
  intro worker scans
  have nonempty := scans.2.2.1
  refine ⟨(List.length_pos_of_ne_nil nonempty).ne', scanPlaces_inside _ _ _ nonempty,
    scanPlaces_length _ _ _ _, ?_⟩
  intro following taken
  have outcome := scan_outcome scans taken
  exact ⟨outcome.cursor.2, outcome.complete⟩

end Rounds

/-- Three queues were registered, the cursor stands behind the last one, and two of the
queues are removed before the next scan. -/
theorem scan_after_removal :
    ∃ (state : State Nat) (following : State Nat),
      Runs.Reachable (system Nat) (fun _ _ => True) state ∧ state.workQueues = [1] ∧
      state.nextWorkQueue = 3 ∧ step state (.work 0) = some following ∧
      following.nextWorkQueue ≤ 1 := by
  obtain ⟨state, reached, passed⟩ := Runs.exists_of_replay (fun _ _ => True)
    (show (system Nat).initial (State.initial 1 0) from ⟨1, 0, rfl⟩)
    [.newQueue false, .newQueue false, .newQueue false, .start, .work 0, .work 0,
      .timeout 0, .removeWorkQueue 0, .removeWorkQueue 2, .work 0]
    (fun state : State Nat => decide (state.workQueues = [1] ∧ state.nextWorkQueue = 3 ∧
      Scans state 0) && (step state (.work 0)).isSome) (by decide +kernel)
  obtain ⟨place, enabled⟩ := Bool.and_eq_true_iff.mp passed
  obtain ⟨queues, cursor, scans⟩ := of_decide_eq_true place
  obtain ⟨following, taken⟩ := Option.isSome_iff_exists.mp enabled
  obtain ⟨_size, _inside, _short, after⟩ := (scan_safe_and_complete reached).2 0 scans
  have bounded := (after following taken).1
  rw [queues] at bounded
  exact ⟨state, following, reached, queues, cursor, taken, bounded⟩

end BlueThread.ThreadPool
