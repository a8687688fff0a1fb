/-
Where every item of a queue is.

A worker carries no item between its critical sections, only the knowledge that
it dequeued something: it pops what is in front of `to_process` and later what is
in front of `to_finish`. So the account is kept in sums over the workers. Each
list has one entry for every worker that is about to pop it, and each history
exceeds the next one by the items that workers have in hand.
-/

import BlueThread.Foundation.Population
import BlueThread.ThreadPool.Steps
import Mathlib.Data.Multiset.OrderedMonoid

namespace BlueThread.ThreadPool

open Population

variable {α : Type}

/-! ### What a worker contributes to a queue -/

namespace WorkerPc

/-- The queue whose item the worker is concerned with. -/
def queue? : WorkerPc α → Option Nat
  | .toProcess wq => some wq
  | .inProcess wq _ => some wq
  | .processed wq _ => some wq
  | .relock wq => some wq
  | .toFinish wq => some wq
  | .inFinish wq _ => some wq
  | _ => none

/-- Between a successful `_void_dequeue` and the end of `_void_process_finish`. -/
def busy (pc : WorkerPc α) : Nat := if pc.queue?.isSome then 1 else 0

def owesProcess (wq : Nat) : WorkerPc α → Nat
  | .toProcess other => if other = wq then 1 else 0
  | _ => 0

def owesFinish (wq : Nat) : WorkerPc α → Nat
  | .relock other => if other = wq then 1 else 0
  | .toFinish other => if other = wq then 1 else 0
  | _ => 0

/-- The item that is inside `_process`. -/
def running (wq : Nat) : WorkerPc α → Multiset α
  | .inProcess other item => if other = wq then {item} else 0
  | _ => 0

/-- The item that came out of `_process` and is not in `to_finish` yet. -/
def pushing (wq : Nat) : WorkerPc α → Multiset α
  | .processed other item => if other = wq then {item} else 0
  | _ => 0

def finishing (wq : Nat) : WorkerPc α → Multiset α
  | .inFinish other item => if other = wq then {item} else 0
  | _ => 0

end WorkerPc

structure Balanced (wq : Nat) (queue : WorkQueue α) (workers : List (WorkerPc α)) : Prop where
  toProcess : queue.toProcess.length = total (WorkerPc.owesProcess wq) workers + 0
  toFinish : queue.toFinish.length = total (WorkerPc.owesFinish wq) workers + 0
  enqueued : (queue.enqueued : Multiset α) =
    queue.items + queue.toProcess + queue.started + queue.discarded
  started : (queue.started : Multiset α) = total (WorkerPc.running wq) workers + queue.returned
  returned : (queue.returned : Multiset α) =
    total (WorkerPc.pushing wq) workers + (queue.toFinish + queue.passed)
  passed : (queue.passed : Multiset α) = total (WorkerPc.finishing wq) workers + queue.completed

structure Accounts (queues : List (WorkQueue α)) (workers : List (WorkerPc α))
    (processing : Int) : Prop where
  balanced : ∀ wq queue, queues[wq]? = some queue → Balanced wq queue workers
  processing : processing = total WorkerPc.busy workers
  placed : ∀ pc ∈ workers, ∀ wq, pc.queue? = some wq → wq < queues.length

/-! ### Steps of a worker -/

/-- A worker that moves on together with its queue, entry by entry. -/
structure Shift (wq : Nat) (queue after : WorkQueue α) (pc next : WorkerPc α) : Prop where
  toProcess : after.toProcess.length + 0 + pc.owesProcess wq =
    queue.toProcess.length + 0 + next.owesProcess wq
  toFinish : after.toFinish.length + 0 + pc.owesFinish wq =
    queue.toFinish.length + 0 + next.owesFinish wq
  enqueued : (queue.enqueued : Multiset α) =
      queue.items + queue.toProcess + queue.started + queue.discarded →
    (after.enqueued : Multiset α) =
      after.items + after.toProcess + after.started + after.discarded
  started : (after.started : Multiset α) + queue.returned + pc.running wq =
    queue.started + after.returned + next.running wq
  returned : (after.returned : Multiset α) + (queue.toFinish + queue.passed) + pc.pushing wq =
    queue.returned + (after.toFinish + after.passed) + next.pushing wq
  passed : (after.passed : Multiset α) + queue.completed + pc.finishing wq =
    queue.passed + after.completed + next.finishing wq

theorem silent_elsewhere (pc : WorkerPc α) (wq : Nat) (elsewhere : pc.queue? ≠ some wq) :
    pc.owesProcess wq = 0 ∧ pc.owesFinish wq = 0 ∧ pc.running wq = 0 ∧ pc.pushing wq = 0 ∧
      pc.finishing wq = 0 := by
  cases pc <;>
    simp_all [WorkerPc.queue?, WorkerPc.owesProcess, WorkerPc.owesFinish, WorkerPc.running,
      WorkerPc.pushing, WorkerPc.finishing]

theorem Balanced.shift {wq worker : Nat} {queue after : WorkQueue α}
    {workers : List (WorkerPc α)} {pc next : WorkerPc α} (balanced : Balanced wq queue workers)
    (found : workers[worker]? = some pc) (shift : Shift wq queue after pc next) :
    Balanced wq after (workers.set worker next) where
  toProcess := balance_set _ found balanced.toProcess shift.toProcess
  toFinish := balance_set _ found balanced.toFinish shift.toFinish
  enqueued := shift.enqueued balanced.enqueued
  started := balance_set _ found balanced.started shift.started
  returned := balance_set _ found balanced.returned shift.returned
  passed := balance_set _ found balanced.passed shift.passed

theorem Balanced.elsewhere {wq worker : Nat} {queue : WorkQueue α}
    {workers : List (WorkerPc α)} {pc next : WorkerPc α} (balanced : Balanced wq queue workers)
    (found : workers[worker]? = some pc) (before : pc.queue? ≠ some wq)
    (after : next.queue? ≠ some wq) : Balanced wq queue (workers.set worker next) := by
  obtain ⟨process, finish, running, pushing, finishing⟩ := silent_elsewhere pc wq before
  obtain ⟨process', finish', running', pushing', finishing'⟩ := silent_elsewhere next wq after
  apply balanced.shift found
  exact
    { toProcess := by rw [process, process']
      toFinish := by rw [finish, finish']
      enqueued := fun same => same
      started := by rw [running, running']
      returned := by rw [pushing, pushing']
      passed := by rw [finishing, finishing'] }

theorem busy_set {worker : Nat} {workers : List (WorkerPc α)} {pc next : WorkerPc α}
    {processing : Int} (found : workers[worker]? = some pc)
    (counted : processing = total WorkerPc.busy workers) :
    processing + next.busy - pc.busy = total WorkerPc.busy (workers.set worker next) := by
  have moved := total_set WorkerPc.busy next found
  omega

theorem Accounts.advance {wq worker : Nat} {queues : List (WorkQueue α)}
    {queue after : WorkQueue α} {workers : List (WorkerPc α)} {pc next : WorkerPc α}
    {processing : Int} (accounts : Accounts queues workers processing)
    (found : workers[worker]? = some pc) (atQueue : queues[wq]? = some queue)
    (shift : Shift wq queue after pc next)
    (before : pc.queue? = none ∨ pc.queue? = some wq)
    (target : next.queue? = none ∨ next.queue? = some wq) :
    Accounts (queues.set wq after) (workers.set worker next)
      (processing + next.busy - pc.busy) where
  balanced := by
    intro other present atOther
    rcases getElem?_set_cases atQueue atOther with ⟨rfl, rfl⟩ | ⟨same, atOther⟩
    · exact (accounts.balanced wq queue atQueue).shift found shift
    · have apart {one : WorkerPc α} (about : one.queue? = none ∨ one.queue? = some wq) :
          one.queue? ≠ some other := by
        rcases about with none | some
        · rw [none]
          exact nofun
        · rw [some]
          exact fun equal => same (Option.some.inj equal)
      exact (accounts.balanced other present atOther).elsewhere found (apart before)
        (apart target)
  processing := busy_set found accounts.processing
  placed := by
    intro one member other about
    rw [List.length_set]
    rcases List.mem_or_eq_of_mem_set member with old | rfl
    · exact accounts.placed one old other about
    · obtain ⟨small, _⟩ := List.getElem?_eq_some_iff.mp atQueue
      rcases target with none | some
      · rw [none] at about
        cases about
      · rw [some, Option.some.injEq] at about
        omega

theorem Accounts.move {worker : Nat} {queues : List (WorkQueue α)}
    {workers : List (WorkerPc α)} {pc next : WorkerPc α} {processing : Int}
    (accounts : Accounts queues workers processing) (found : workers[worker]? = some pc)
    (before : pc.queue? = none) (after : next.queue? = none) :
    Accounts queues (workers.set worker next) processing where
  balanced wq queue atQueue := by
    apply (accounts.balanced wq queue atQueue).elsewhere found
    · rw [before]
      exact nofun
    · rw [after]
      exact nofun
  processing := by
    have idle : pc.busy = 0 ∧ next.busy = 0 := by
      simp [WorkerPc.busy, before, after]
    have moved : processing + next.busy - pc.busy = _ := busy_set found accounts.processing
    rw [idle.1, idle.2] at moved
    simpa using moved
  placed := by
    intro one member wq about
    rcases List.mem_or_eq_of_mem_set member with old | rfl
    · exact accounts.placed one old wq about
    · rw [after] at about
      cases about

/-! The steps on one queue. Each moves one item from one place to the next. -/

section Shifts

variable {wq : Nat} {queue after : WorkQueue α} {item : α}

theorem shift_voidDequeue (dequeued : queue.voidDequeue = some after) :
    Shift wq queue after .top (.toProcess wq) := by
  obtain ⟨head, rest, atItems, rfl⟩ := WorkQueue.voidDequeue_eq_some dequeued
  exact
    { toProcess := by simp [WorkerPc.owesProcess]
      toFinish := by simp [WorkerPc.owesFinish]
      enqueued := by
        intro same
        rw [same, atItems, ← Multiset.cons_coe, ← Multiset.singleton_add]
        simp only [← Multiset.coe_add, Multiset.coe_singleton]
        abel
      started := by simp [WorkerPc.running]
      returned := by simp [WorkerPc.pushing]
      passed := by simp [WorkerPc.finishing] }

theorem shift_popToProcess (popped : queue.popToProcess = some (after, item)) :
    Shift wq queue after (.toProcess wq) (.inProcess wq item) := by
  obtain ⟨rest, atFront, rfl⟩ := WorkQueue.popToProcess_eq_some popped
  exact
    { toProcess := by simp [WorkerPc.owesProcess, atFront]
      toFinish := by simp [WorkerPc.owesFinish]
      enqueued := by
        intro same
        rw [same, atFront, ← Multiset.cons_coe, ← Multiset.cons_coe,
          ← Multiset.singleton_add, ← Multiset.singleton_add]
        abel
      started := by
        simp only [WorkerPc.running, if_true, add_zero]
        rw [← Multiset.cons_coe, ← Multiset.singleton_add]
        abel
      returned := by simp [WorkerPc.pushing]
      passed := by simp [WorkerPc.finishing] }

theorem shift_processReturned :
    Shift wq queue (queue.processReturned item) (.inProcess wq item) (.processed wq item) where
  toProcess := by simp [WorkerPc.owesProcess, WorkQueue.processReturned]
  toFinish := by simp [WorkerPc.owesFinish, WorkQueue.processReturned]
  enqueued same := same
  started := by
    simp only [WorkerPc.running, if_true, add_zero, WorkQueue.processReturned]
    rw [← Multiset.cons_coe, ← Multiset.singleton_add]
    abel
  returned := by
    simp only [WorkerPc.pushing, if_true, add_zero, WorkQueue.processReturned]
    rw [← Multiset.cons_coe, ← Multiset.singleton_add]
    abel
  passed := by simp [WorkerPc.finishing, WorkQueue.processReturned]

theorem shift_pushToFinish :
    Shift wq queue (queue.pushToFinish item) (.processed wq item) (.relock wq) where
  toProcess := by simp [WorkerPc.owesProcess, WorkQueue.pushToFinish]
  toFinish := by simp [WorkerPc.owesFinish, WorkQueue.pushToFinish]
  enqueued same := same
  started := by simp [WorkerPc.running, WorkQueue.pushToFinish]
  returned := by
    simp only [WorkerPc.pushing, if_true, add_zero, WorkQueue.pushToFinish]
    rw [← Multiset.coe_add, Multiset.coe_singleton]
    abel
  passed := by simp [WorkerPc.finishing, WorkQueue.pushToFinish]

theorem shift_popToFinish (popped : queue.popToFinish = some (after, item)) :
    Shift wq queue after (.toFinish wq) (.inFinish wq item) := by
  obtain ⟨rest, atFront, rfl⟩ := WorkQueue.popToFinish_eq_some popped
  exact
    { toProcess := by simp [WorkerPc.owesProcess]
      toFinish := by simp [WorkerPc.owesFinish, atFront]
      enqueued := fun same => same
      started := by simp [WorkerPc.running]
      returned := by
        simp only [WorkerPc.pushing, add_zero]
        rw [atFront, ← Multiset.cons_coe, ← Multiset.cons_coe, ← Multiset.singleton_add,
          ← Multiset.singleton_add]
        abel
      passed := by
        simp only [WorkerPc.finishing, if_true, add_zero]
        rw [← Multiset.cons_coe, ← Multiset.singleton_add]
        abel }

theorem shift_finishReturned :
    Shift wq queue (queue.finishReturned item) (.inFinish wq item) .top where
  toProcess := by simp [WorkerPc.owesProcess, WorkQueue.finishReturned]
  toFinish := by simp [WorkerPc.owesFinish, WorkQueue.finishReturned]
  enqueued same := same
  started := by simp [WorkerPc.running, WorkQueue.finishReturned]
  returned := by simp [WorkerPc.pushing, WorkQueue.finishReturned]
  passed := by
    simp only [WorkerPc.finishing, if_true, add_zero, WorkQueue.finishReturned]
    rw [← Multiset.cons_coe, ← Multiset.singleton_add]
    abel

theorem shift_relock : Shift wq queue queue (.relock wq) (.toFinish wq) where
  toProcess := by simp [WorkerPc.owesProcess]
  toFinish := by simp [WorkerPc.owesFinish]
  enqueued same := same
  started := by simp [WorkerPc.running]
  returned := by simp [WorkerPc.pushing]
  passed := by simp [WorkerPc.finishing]

end Shifts

/-! ### Everything else that happens to workers and queues -/

section Frames

variable {queues : List (WorkQueue α)} {workers : List (WorkerPc α)} {processing : Int}

@[simp] theorem notify_queue? (pc : WorkerPc α) : pc.notify.queue? = pc.queue? := by
  cases pc <;> rfl

theorem Accounts.of_totals {others : List (WorkerPc α)}
    (accounts : Accounts queues workers processing)
    (same : ∀ {amount : Type} [AddCommMonoid amount] (observe : WorkerPc α → amount),
      (∀ pc, pc.queue? = none → observe pc = 0) → total observe others = total observe workers)
    (placed : ∀ pc ∈ others, ∀ wq, pc.queue? = some wq → wq < queues.length) :
    Accounts queues others processing where
  balanced := by
    intro wq queue atQueue
    obtain ⟨toProcess, toFinish, enqueued, started, returned, passed⟩ :=
      accounts.balanced wq queue atQueue
    have silent {pc : WorkerPc α} (outside : pc.queue? = none) :=
      silent_elsewhere pc wq (outside ▸ nofun)
    refine ⟨?_, ?_, enqueued, ?_, ?_, ?_⟩
    · rw [same _ (fun pc outside => (silent outside).1)]
      exact toProcess
    · rw [same _ (fun pc outside => (silent outside).2.1)]
      exact toFinish
    · rw [same _ (fun pc outside => (silent outside).2.2.1)]
      exact started
    · rw [same _ (fun pc outside => (silent outside).2.2.2.1)]
      exact returned
    · rw [same _ (fun pc outside => (silent outside).2.2.2.2)]
      exact passed
  processing := by
    rw [same WorkerPc.busy (fun pc outside => by simp [WorkerPc.busy, outside])]
    exact accounts.processing
  placed := placed

theorem Accounts.notify (accounts : Accounts queues workers processing) :
    Accounts queues (workers.map WorkerPc.notify) processing := by
  apply accounts.of_totals
  · intro amount _ observe silent
    apply total_map_same
    intro pc
    cases pc with
    | waiting => exact (silent .woken rfl).trans (silent .waiting rfl).symm
    | _ => rfl
  · intro pc member wq about
    obtain ⟨before, present, rfl⟩ := List.mem_map.mp member
    rw [notify_queue?] at about
    exact accounts.placed before present wq about

theorem Accounts.spawn (accounts : Accounts queues workers processing) (missing : Nat) :
    Accounts queues (workers ++ List.replicate missing .starting) processing := by
  apply accounts.of_totals
  · intro amount _ observe silent
    rw [total_append, total_replicate _ _ _ (silent .starting rfl), add_zero]
  · intro pc member wq about
    rcases List.mem_append.mp member with old | new
    · exact accounts.placed pc old wq about
    · rw [List.eq_of_mem_replicate new] at about
      cases about

theorem Accounts.change {wq : Nat} {queue after : WorkQueue α}
    (accounts : Accounts queues workers processing) (atQueue : queues[wq]? = some queue)
    (kept : Balanced wq queue workers → Balanced wq after workers) :
    Accounts (queues.set wq after) workers processing where
  balanced := by
    intro other present atOther
    rcases getElem?_set_cases atQueue atOther with ⟨rfl, rfl⟩ | ⟨_, elsewhere⟩
    · exact kept (accounts.balanced wq queue atQueue)
    · exact accounts.balanced other present elsewhere
  processing := accounts.processing
  placed := by
    intro pc member other about
    rw [List.length_set]
    exact accounts.placed pc member other about

theorem Balanced.enqueue {wq : Nat} {queue : WorkQueue α} (item : α)
    (balanced : Balanced wq queue workers) : Balanced wq (queue.enqueue item) workers :=
  { balanced with
    enqueued := by
      simp only [WorkQueue.enqueue]
      rw [← Multiset.cons_coe, balanced.enqueued, ← Multiset.singleton_add, ← Multiset.coe_add,
        Multiset.coe_singleton]
      abel }

theorem Balanced.enqueueFront {wq : Nat} {queue : WorkQueue α} (item : α)
    (balanced : Balanced wq queue workers) : Balanced wq (queue.enqueueFront item) workers :=
  { balanced with
    enqueued := by
      simp only [WorkQueue.enqueueFront]
      rw [← Multiset.cons_coe, ← Multiset.cons_coe, balanced.enqueued, ← Multiset.singleton_add,
        ← Multiset.singleton_add]
      abel }

theorem Balanced.clear {wq : Nat} {queue : WorkQueue α}
    (balanced : Balanced wq queue workers) : Balanced wq queue.clear workers := by
  unfold WorkQueue.clear
  split
  · exact
      { balanced with
        enqueued := by
          rw [balanced.enqueued, ← Multiset.coe_add, Multiset.coe_nil]
          abel }
  · exact balanced

theorem Accounts.clearQueues (accounts : Accounts queues workers processing)
    (workQueues : List Nat) :
    Accounts (clearQueues queues workQueues) workers processing := by
  induction workQueues generalizing queues with
  | nil => exact accounts
  | cons wq rest ih =>
      rw [ThreadPool.clearQueues]
      apply ih
      rw [List.modify_eq_set_getElem?]
      cases atQueue : queues[wq]? with
      | none => exact accounts
      | some queue => exact accounts.change atQueue Balanced.clear

theorem Accounts.grow (accounts : Accounts queues workers processing) (overridesClear : Bool) :
    Accounts (queues ++ [WorkQueue.initial overridesClear]) workers processing where
  balanced := by
    intro wq queue atQueue
    rcases getElem?_append_cases atQueue with before | ⟨last, rfl⟩
    · exact accounts.balanced wq queue before
    · have elsewhere (pc : WorkerPc α) (member : pc ∈ workers) : pc.queue? ≠ some wq := by
        intro about
        have below := accounts.placed pc member wq about
        omega
      have silent (pc : WorkerPc α) (member : pc ∈ workers) :=
        silent_elsewhere pc wq (elsewhere pc member)
      exact
        { toProcess := by
            rw [total_eq_zero _ (fun pc member => (silent pc member).1)]
            rfl
          toFinish := by
            rw [total_eq_zero _ (fun pc member => (silent pc member).2.1)]
            rfl
          enqueued := rfl
          started := by
            rw [total_eq_zero _ (fun pc member => (silent pc member).2.2.1)]
            rfl
          returned := by
            rw [total_eq_zero _ (fun pc member => (silent pc member).2.2.2.1)]
            rfl
          passed := by
            rw [total_eq_zero _ (fun pc member => (silent pc member).2.2.2.2)]
            rfl }
  processing := accounts.processing
  placed := by
    intro pc member wq about
    have below := accounts.placed pc member wq about
    rw [List.length_append]
    omega

end Frames

/-! ### Every step keeps the accounts -/

theorem Pass.shift {wq : Nat} {queue after : WorkQueue α} {pc next : WorkerPc α}
    (pass : Pass wq queue pc after next) :
    Shift wq queue after pc next ∧ pc.queue? = some wq ∧ next.queue? = some wq := by
  cases pass with
  | start popped => exact ⟨shift_popToProcess popped, rfl, rfl⟩
  | returned => exact ⟨shift_processReturned, rfl, rfl⟩
  | push => exact ⟨shift_pushToFinish, rfl, rfl⟩
  | finish popped => exact ⟨shift_popToFinish popped, rfl, rfl⟩

theorem Accounts.pass {wq worker : Nat} {queues : List (WorkQueue α)}
    {queue after : WorkQueue α} {workers : List (WorkerPc α)} {pc next : WorkerPc α}
    {processing : Int} (accounts : Accounts queues workers processing)
    (found : workers[worker]? = some pc) (atQueue : queues[wq]? = some queue)
    (shift : Shift wq queue after pc next) (before : pc.queue? = some wq)
    (target : next.queue? = some wq) :
    Accounts (queues.set wq after) (workers.set worker next) processing := by
  have advanced := accounts.advance found atQueue shift (Or.inr before) (Or.inr target)
  simpa [WorkerPc.busy, before, target] using advanced

theorem Effect.accounts {state next : State α} {action : Action α}
    (effect : Effect state action next)
    (accounts : Accounts state.queues state.workers state.processing) :
    Accounts next.queues next.workers next.processing := by
  cases effect with
  | acquire found outside handles =>
      rcases outside with rfl | rfl
      · exact accounts.move found rfl rfl
      · exact accounts.move found rfl rfl
  | leave found stopped handles => exact accounts.move found rfl rfl
  | sleep found live left nothing => exact accounts.move found rfl rfl
  | @dequeue worker wq queue after found live unpaused left registered atQueue dequeued =>
      have advanced := accounts.advance found atQueue (shift_voidDequeue dequeued) (Or.inl rfl)
        (Or.inr rfl)
      have counted : state.processing + (WorkerPc.toProcess wq : WorkerPc α).busy -
          (WorkerPc.top : WorkerPc α).busy = state.processing + 1 := by
        simp [WorkerPc.busy, WorkerPc.queue?]
      rw [counted] at advanced
      exact advanced
  | pass found atQueue pass =>
      obtain ⟨shift, before, target⟩ := pass.shift
      exact accounts.pass found atQueue shift before target
  | @relock worker wq found =>
      have below := accounts.placed _ (List.mem_of_getElem? found) wq rfl
      have atQueue := List.getElem?_eq_getElem below
      have same : state.queues.set wq state.queues[wq] = state.queues :=
        List.set_getElem_self below
      have advanced := accounts.pass found atQueue shift_relock rfl rfl
      rw [same] at advanced
      exact advanced
  | @done worker wq queue item found atQueue clients told =>
      have shift : Shift wq queue (queue.finishReturned item) (.inFinish wq item) .top :=
        shift_finishReturned
      have advanced := accounts.advance found atQueue shift (Or.inr rfl) (Or.inl rfl)
      have counted : state.processing + (WorkerPc.top : WorkerPc α).busy -
          (WorkerPc.inFinish wq item).busy = state.processing - 1 := by
        simp [WorkerPc.busy, WorkerPc.queue?]
      rw [counted] at advanced
      exact advanced
  | failed atQueue missing => exact accounts
  | timeout found => exact accounts.move found rfl rfl
  | spurious found => exact accounts
  | @insert wq queue after workers atQueue inserted notified =>
      have changed : Accounts (state.queues.set wq after) state.workers state.processing := by
        apply accounts.change atQueue
        intro balanced
        cases inserted with
        | back item => exact balanced.enqueue item
        | front item => exact balanced.enqueueFront item
      cases notified with
      | one found => exact changed.move found rfl rfl
      | nobody none => exact changed
  | wake => exact accounts.notify
  | newQueue overridesClear => exact accounts.grow overridesClear
  | register workQueues asked => exact accounts
  | start missing threads => exact accounts.spawn missing
  | stop asked found alone => exact accounts.notify
  | join found => exact accounts
  | clear asked found => exact accounts.clearQueues state.workQueues
  | pauseBlock found entry busy => exact accounts
  | pauseReturn found entry quiet => exact accounts
  | unpause asked found => exact accounts.notify
  | drainBlock found entry busy => exact accounts
  | drainReturn found entry quiet => exact accounts

theorem Accounts.initial : Accounts ([] : List (WorkQueue α)) [] 0 where
  balanced wq queue found := by cases found
  processing := rfl
  placed pc member := by cases member

theorem reachable_accounts {discipline : State α → Action α → Prop} {state : State α}
    (reached : Runs.Reachable (system α) discipline state) :
    Accounts state.queues state.workers state.processing := by
  apply reached.invariant
  · rintro current ⟨numThreads, clients, rfl⟩
    exact Accounts.initial
  · intro current action following _ accounts _ taken
    exact (step_effect taken).accounts accounts

/-! ### Assertions -/

theorem Accounts.not_missing {state : State α}
    (accounts : Accounts state.queues state.workers state.processing) {worker wq : Nat}
    {queue : WorkQueue α} (atQueue : state.queues[wq]? = some queue) :
    ¬((state.workers[worker]? = some (.toProcess wq) ∧ queue.toProcess = []) ∨
      (state.workers[worker]? = some (.toFinish wq) ∧ queue.toFinish = [])) := by
  have balanced := accounts.balanced wq queue atQueue
  rintro (⟨found, empty⟩ | ⟨found, empty⟩)
  · have counted := le_total (WorkerPc.owesProcess wq) found
    have length := balanced.toProcess
    rw [empty, List.length_nil] at length
    simp only [WorkerPc.owesProcess, if_true] at counted
    omega
  · have counted := le_total (WorkerPc.owesFinish wq) found
    have length := balanced.toFinish
    rw [empty, List.length_nil] at length
    simp only [WorkerPc.owesFinish, if_true] at counted
    omega

theorem reachable_live {discipline : State α → Action α → Prop} {state : State α}
    (reached : Runs.Reachable (system α) discipline state) : state.aborted = false := by
  apply reached.invariant
  · rintro current ⟨numThreads, clients, rfl⟩
    rfl
  · intro current action following before live _ taken
    cases step_effect taken with
    | failed atQueue missing =>
        exact absurd missing ((reachable_accounts before).not_missing atQueue)
    | _ => exact live

/-! ### Exactly once -/

theorem Balanced.partition {wq : Nat} {queue : WorkQueue α} {workers : List (WorkerPc α)}
    (balanced : Balanced wq queue workers) :
    (queue.enqueued : Multiset α) =
      queue.items + queue.toProcess +
        (total (WorkerPc.running wq) workers + total (WorkerPc.pushing wq) workers) +
        queue.toFinish + queue.passed + queue.discarded := by
  rw [balanced.enqueued, balanced.started, balanced.returned]
  abel

theorem Balanced.started_le {wq : Nat} {queue : WorkQueue α} {workers : List (WorkerPc α)}
    (balanced : Balanced wq queue workers) :
    (queue.started : Multiset α) ≤ queue.enqueued := by
  rw [balanced.enqueued]
  exact le_add_right (le_add_self)

theorem Balanced.passed_le {wq : Nat} {queue : WorkQueue α} {workers : List (WorkerPc α)}
    (balanced : Balanced wq queue workers) :
    (queue.passed : Multiset α) ≤ queue.returned ∧
      (queue.returned : Multiset α) ≤ queue.started := by
  constructor
  · rw [balanced.returned]
    exact le_add_left le_add_self
  · rw [balanced.started]
    exact le_add_self

/-- The items of a queue are where the program put them, each in one place; so
each is handed to `_process` at most once and to `_process_finish` at most once,
after its `_process` returned. No assertion fails. -/
theorem items_processed_once {state : State α}
    (reached : Runs.Reachable (system α) (fun _ _ => True) state) :
    state.aborted = false ∧
      ∀ (wq : Nat) (queue : WorkQueue α), state.queues[wq]? = some queue →
        (queue.enqueued : Multiset α) =
            queue.items + queue.toProcess +
              (total (WorkerPc.running wq) state.workers +
                total (WorkerPc.pushing wq) state.workers) +
              queue.toFinish + queue.passed + queue.discarded ∧
          (queue.started : Multiset α) ≤ queue.enqueued ∧
          (queue.passed : Multiset α) ≤ queue.returned ∧
          (queue.returned : Multiset α) ≤ queue.started ∧
          (queue.enqueued.Nodup → queue.started.Nodup ∧ queue.passed.Nodup) := by
  refine ⟨reachable_live reached, ?_⟩
  intro wq queue atQueue
  have balanced := (reachable_accounts reached).balanced wq queue atQueue
  obtain ⟨passedLe, returnedLe⟩ := balanced.passed_le
  refine ⟨balanced.partition, balanced.started_le, passedLe, returnedLe, ?_⟩
  intro distinct
  have distinctStarted : queue.started.Nodup :=
    Multiset.coe_nodup.mp (Multiset.nodup_of_le balanced.started_le
      (Multiset.coe_nodup.mpr distinct))
  exact ⟨distinctStarted, Multiset.coe_nodup.mp (Multiset.nodup_of_le
    (passedLe.trans returnedLe) (Multiset.coe_nodup.mpr distinctStarted))⟩

/-- One worker takes one item through both calls. -/
theorem items_processed_once_run :
    ∃ state, Runs.Reachable (system Nat) (fun _ _ => True) state ∧ state.aborted = false ∧
      ∃ queue, state.queues[0]? = some queue ∧ queue.passed = [7] ∧
        (queue.passed : Multiset Nat) ≤ queue.returned := by
  obtain ⟨state, reached, passed⟩ := Runs.exists_of_replay (fun _ _ => True)
    (show (system Nat).initial (State.initial 1 0) from ⟨1, 0, rfl⟩)
    ([.newQueue false, .queue 0 7 none, .start] ++ List.replicate 8 (.work 0))
    (fun state : State Nat => (state.queues[0]?).any fun queue => queue.passed = [7])
    (by decide +kernel)
  obtain ⟨queue, atQueue, ends⟩ := (Option.any_eq_true _ _).mp passed
  obtain ⟨live, accounts⟩ := items_processed_once reached
  exact ⟨state, reached, live, queue, atQueue, of_decide_eq_true ends,
    (accounts 0 queue atQueue).2.2.1⟩

end BlueThread.ThreadPool
