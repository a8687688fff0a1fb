/-
Which queue a worker serves, and how long a queue can be passed by.

All workers share the cursor `next_work_queue`. A scan goes around the list of
queues from the cursor on, takes one item from the first queue that has one, and
leaves the cursor behind that queue. Seen from a queue that has items, every scan
that serves another one leaves the cursor closer.
-/

import BlueThread.Foundation.Cyclic
import BlueThread.ThreadPool.Wakeups

namespace BlueThread.ThreadPool

open Cyclic

variable {α : Type}

/-! ### One scan -/

/-- A queue with at least one item. -/
def State.HasItems (state : State α) (wq : Nat) : Prop :=
  ∃ queue, state.queues[wq]? = some queue ∧ queue.items ≠ []

theorem hasItems_iff {state : State α} {wq : Nat} :
    state.HasItems wq ↔ ((state.queues[wq]?).bind WorkQueue.voidDequeue).isSome = true := by
  unfold State.HasItems
  cases state.queues[wq]? with
  | none => simp
  | some queue =>
      cases items : queue.items with
      | nil => simp [WorkQueue.voidDequeue, items]
      | cons item rest => simp [WorkQueue.voidDequeue, items]

instance (state : State α) (wq : Nat) : Decidable (state.HasItems wq) :=
  decidable_of_iff _ hasItems_iff.symm

theorem scan_first {queues : List (WorkQueue α)} {workQueues : List Nat} {tries : Nat}
    {next left : Int} {wq : Nat} {after : WorkQueue α} (registered : workQueues ≠ [])
    (scanned : scan queues workQueues tries next = (left, some (wq, after))) :
    ∃ offset,
      workQueues[((wrapIndex next workQueues.length).toNat + offset) %
        workQueues.length]? = some wq ∧
      (queues[wq]?).bind WorkQueue.voidDequeue = some after ∧
      left = (((wrapIndex next workQueues.length).toNat + offset) % workQueues.length : Nat) + 1 ∧
      ∀ earlier < offset, ∀ other,
        workQueues[((wrapIndex next workQueues.length).toNat + earlier) %
          workQueues.length]? = some other →
        (queues[other]?).bind WorkQueue.voidDequeue = none := by
  have positive : 0 < workQueues.length := List.length_pos_of_ne_nil registered
  induction tries generalizing next with
  | zero => cases scanned
  | succ tries ih =>
      obtain ⟨low, high⟩ := wrapIndex_bounds next positive
      have small : (wrapIndex next workQueues.length).toNat < workQueues.length := by omega
      have present := List.getElem?_eq_getElem small
      rw [scan] at scanned
      simp only [present] at scanned
      split at scanned
      · rename_i queue dequeued
        simp only [Prod.mk.injEq, Option.some.injEq] at scanned
        obtain ⟨rfl, rfl, rfl⟩ := scanned
        refine ⟨0, ?_, dequeued, ?_, ?_⟩
        · rw [Nat.add_zero, Nat.mod_eq_of_lt small, present]
        · rw [Nat.add_zero, Nat.mod_eq_of_lt small]
          omega
        · intro earlier before
          omega
      · rename_i missed
        obtain ⟨offset, atPlace, dequeued, cursor, passed⟩ := ih scanned
        have shift (steps : Nat) :
            ((wrapIndex (wrapIndex next workQueues.length + 1) workQueues.length).toNat + steps) %
              workQueues.length =
            ((wrapIndex next workQueues.length).toNat + (steps + 1)) % workQueues.length := by
          rw [wrapIndex_succ next positive, Nat.mod_add_mod]
          congr 1
          omega
        rw [shift] at atPlace cursor
        refine ⟨offset + 1, atPlace, dequeued, cursor, ?_⟩
        intro earlier before other atOther
        cases earlier with
        | zero =>
            rw [Nat.add_zero, Nat.mod_eq_of_lt small, present, Option.some.injEq] at atOther
            rw [← atOther]
            exact missed
        | succ earlier =>
            apply passed earlier (by omega) other
            rw [shift]
            exact atOther

/-- What a scan does: it goes around from the cursor, over queues without items,
moves one item of the queue it chooses to that queue's `to_process`, and leaves
every other queue alone. -/
structure Serves (state : State α) (worker wq : Nat) (following : State α) : Prop where
  goes : following.workers[worker]? = some (.toProcess wq)
  place : ∃ offset < state.workQueues.length,
    state.workQueues[(state.nextWorkQueue.toNat % state.workQueues.length + offset) %
      state.workQueues.length]? = some wq ∧
    (∀ earlier < offset, ∀ other,
      state.workQueues[(state.nextWorkQueue.toNat % state.workQueues.length + earlier) %
        state.workQueues.length]? = some other → ¬state.HasItems other) ∧
    following.nextWorkQueue = ((state.nextWorkQueue.toNat % state.workQueues.length + offset) %
      state.workQueues.length : Nat) + 1
  item : ∃ queue item rest, state.queues[wq]? = some queue ∧ queue.items = item :: rest ∧
    following.queues = state.queues.set wq
      { queue with items := rest, toProcess := queue.toProcess ++ [item] }
  kept : following.workQueues = state.workQueues

section Scan

variable {state following : State α} {worker wq : Nat}

theorem scan_serves (scans : Scans state worker) (cursor : 0 ≤ state.nextWorkQueue)
    (registered : wq ∈ state.workQueues) (filled : state.HasItems wq)
    (taken : step state (.work worker) = some following) :
    ∃ chosen, Serves state worker chosen following := by
  have result := step_top scans.1 taken
  obtain ⟨found, live, nonempty, unpaused⟩ := scans
  unfold workerTop at result
  rw [if_neg (by rw [live]; nofun), if_neg nonempty, if_neg (not_ne_iff.mpr unpaused)] at result
  split at result
  · rename_i left chosen after scanned
    obtain ⟨offset, atPlace, dequeued, moved, passed⟩ := scan_first nonempty scanned
    rw [wrapIndex_of_nonneg cursor] at atPlace moved passed
    have empty : ∀ earlier < offset, ∀ other,
        state.workQueues[(state.nextWorkQueue.toNat % state.workQueues.length + earlier) %
          state.workQueues.length]? = some other → ¬state.HasItems other := by
      intro earlier before other atOther items
      rw [hasItems_iff, passed earlier before other atOther] at items
      cases items
    -- a whole round would have met the chosen queue before
    have short : offset < state.workQueues.length := by
      by_contra long
      apply empty (offset - state.workQueues.length)
        (by have := List.length_pos_of_ne_nil nonempty; omega) chosen
      · rw [← atPlace]
        congr 1
        rw [← Nat.add_mod_right]
        congr 1
        omega
      · rw [hasItems_iff, dequeued]
        rfl
    obtain ⟨queue, atQueue, moves⟩ := Option.bind_eq_some_iff.mp dequeued
    obtain ⟨item, rest, items, rfl⟩ := WorkQueue.voidDequeue_eq_some moves
    subst result
    exact ⟨chosen,
      ⟨Population.getElem?_set_found found,
        ⟨offset, short, atPlace, empty, moved⟩, ⟨queue, item, rest, atQueue, items, rfl⟩, rfl⟩⟩
  · rename_i left scanned
    obtain ⟨queue, atQueue, items⟩ := filled
    exact absurd (scan_complete scanned registered atQueue) items

end Scan

/-! ### Runs -/

/-- Runs in which the list of queues stays as it is, one queue has items all the
time, and every scan serves another one; the scans are counted. -/
inductive PassedBy (wq : Nat) (first : State α) : Nat → State α → Prop
  | start (filled : first.HasItems wq) : PassedBy wq first 0 first
  | other {scans : Nat} {current following : State α} (action : Action α)
      (before : PassedBy wq first scans current)
      (quiet : ∀ worker, action = .work worker → ¬Scans current worker)
      (taken : step current action = some following)
      (fixed : following.workQueues = current.workQueues) (filled : following.HasItems wq) :
      PassedBy wq first scans following
  | scan {scans : Nat} {current following : State α} (worker : Nat)
      (before : PassedBy wq first scans current) (scanning : Scans current worker)
      (taken : step current (.work worker) = some following)
      (elsewhere : following.workers[worker]? ≠ some (.toProcess wq))
      (filled : following.HasItems wq) :
      PassedBy wq first (scans + 1) following

section Runs

variable {first final : State α} {wq scans place : Nat}

def State.ahead (state : State α) (place : Nat) : Nat :=
  distance state.workQueues.length (state.nextWorkQueue.toNat % state.workQueues.length) place

/-- A scan that serves another queue leaves the cursor closer to every place of
a queue with items. -/
theorem Serves.closer {state following : State α} {worker chosen : Nat}
    (serves : Serves state worker chosen following) (atPlace : state.workQueues[place]? = some wq)
    (filled : state.HasItems wq) (elsewhere : chosen ≠ wq) :
    following.ahead place + 1 ≤ state.ahead place := by
  obtain ⟨offset, short, atChosen, passed, cursor⟩ := serves.place
  have inside : place < state.workQueues.length := (List.getElem?_eq_some_iff.mp atPlace).1
  have start : state.nextWorkQueue.toNat % state.workQueues.length < state.workQueues.length :=
    Nat.mod_lt _ (by omega)
  have reached := add_distance start inside
  have before : offset < state.ahead place := by
    rcases Nat.lt_trichotomy offset (state.ahead place) with less | same | more
    · exact less
    · rw [same, State.ahead, reached, atPlace, Option.some.injEq] at atChosen
      exact absurd atChosen.symm elsewhere
    · refine absurd filled (passed _ more wq ?_)
      rw [State.ahead, reached]
      exact atPlace
  have closer := distance_after start inside before
  unfold State.ahead at before ⊢
  rw [serves.kept, cursor, show ((((state.nextWorkQueue.toNat % state.workQueues.length + offset) %
    state.workQueues.length : Nat) : Int) + 1).toNat = (state.nextWorkQueue.toNat %
    state.workQueues.length + offset) % state.workQueues.length + 1 by omega]
  omega

theorem PassedBy.closer (passed : PassedBy wq first scans final)
    (cursor : 0 ≤ first.nextWorkQueue) (atPlace : first.workQueues[place]? = some wq) :
    final.workQueues = first.workQueues ∧ 0 ≤ final.nextWorkQueue ∧ final.HasItems wq ∧
      scans + final.ahead place ≤ first.ahead place := by
  induction passed with
  | start filled => exact ⟨rfl, cursor, filled, by omega⟩
  | other action _ quiet taken fixed filled ih =>
      obtain ⟨same, nonneg, _, bound⟩ := ih
      have still := (step_fields taken).2 quiet
      refine ⟨fixed.trans same, still ▸ nonneg, filled, ?_⟩
      unfold State.ahead at bound ⊢
      rw [fixed, still]
      exact bound
  | @scan scans current following worker _ scanning taken elsewhere filled ih =>
      obtain ⟨same, nonneg, items, bound⟩ := ih
      have here : current.workQueues[place]? = some wq := same ▸ atPlace
      obtain ⟨chosen, serves⟩ :=
        scan_serves scanning nonneg (List.mem_of_getElem? here) items taken
      have different : chosen ≠ wq := by
        rintro rfl
        exact elsewhere serves.goes
      obtain ⟨_, _, _, _, moved⟩ := serves.place
      have closer := serves.closer here items different
      exact ⟨serves.kept.trans same, by omega, filled, by omega⟩

/-- A queue that has items is passed by fewer times than there are queues, and
the scan that makes the round full serves it. -/
theorem round_robin (registered : wq ∈ first.workQueues) (cursor : 0 ≤ first.nextWorkQueue)
    (passed : PassedBy wq first scans final) :
    scans < first.workQueues.length ∧
      ∀ worker following, Scans final worker → step final (.work worker) = some following →
        ∃ chosen, Serves final worker chosen following ∧
          (scans + 1 = first.workQueues.length → chosen = wq) := by
  obtain ⟨place, atPlace⟩ := List.mem_iff_getElem?.mp registered
  have inside : place < first.workQueues.length := (List.getElem?_eq_some_iff.mp atPlace).1
  have short : first.ahead place < first.workQueues.length :=
    distance_lt (Nat.mod_lt _ (by omega)) inside
  obtain ⟨same, nonneg, filled, bound⟩ := passed.closer cursor atPlace
  refine ⟨by omega, ?_⟩
  intro worker following scanning taken
  have here : final.workQueues[place]? = some wq := same ▸ atPlace
  obtain ⟨chosen, serves⟩ :=
    scan_serves scanning nonneg (List.mem_of_getElem? here) filled taken
  refine ⟨chosen, serves, ?_⟩
  intro full
  by_contra elsewhere
  have closer := serves.closer here filled elsewhere
  omega

end Runs

/-- Two queues with an item each: the first scan serves the first queue, and the
second scan, by another worker, the second one. -/
theorem round_robin_two_queues :
    ∃ first final following : State Nat, 1 ∈ first.workQueues ∧ PassedBy 1 first 1 final ∧
      step final (.work 1) = some following ∧ Serves final 1 1 following := by
  obtain ⟨first, _, passed⟩ := Runs.exists_of_replay (fun _ _ => True)
    (show (system Nat).initial (State.initial 2 0) from ⟨2, 0, rfl⟩)
    [.newQueue false, .newQueue false, .queue 0 10 none, .queue 1 20 none, .start, .work 0]
    (fun first : State Nat => decide (first.workQueues = [0, 1] ∧ 0 ≤ first.nextWorkQueue ∧
        Scans first 0 ∧ first.HasItems 1) &&
      (step first (.work 0)).any fun served : State Nat =>
        decide (served.workers[0]? ≠ some (WorkerPc.toProcess 1) ∧ served.HasItems 1 ∧
          ¬Scans served 1) &&
        (step served (.work 1)).any fun final : State Nat =>
          decide (final.workQueues = served.workQueues ∧ final.HasItems 1 ∧ Scans final 1) &&
          (step final (.work 1)).isSome) (by decide +kernel)
  obtain ⟨ready, rest⟩ := Bool.and_eq_true_iff.mp passed
  obtain ⟨queues, cursor, scanning, filled⟩ := of_decide_eq_true ready
  obtain ⟨served, taken, rest⟩ := (Option.any_eq_true _ _).mp rest
  obtain ⟨between, rest⟩ := Bool.and_eq_true_iff.mp rest
  obtain ⟨elsewhere, still, quiet⟩ := of_decide_eq_true between
  obtain ⟨final, locked, rest⟩ := (Option.any_eq_true _ _).mp rest
  obtain ⟨after, next⟩ := Bool.and_eq_true_iff.mp rest
  obtain ⟨fixed, items, scansAgain⟩ := of_decide_eq_true after
  obtain ⟨following, last⟩ := Option.isSome_iff_exists.mp next
  have registered : 1 ∈ first.workQueues := by
    rw [queues]
    decide
  have passedBy : PassedBy 1 first 1 final := by
    refine .other (.work 1) (.scan 0 (.start filled) scanning taken elsewhere still) ?_ locked
      fixed items
    rintro worker ⟨⟩
    exact quiet
  obtain ⟨chosen, serves, full⟩ :=
    (round_robin registered cursor passedBy).2 1 following scansAgain last
  have same : chosen = 1 := full (by rw [queues]; rfl)
  exact ⟨first, final, following, registered, passedBy, last, same ▸ serves⟩

end BlueThread.ThreadPool
