/-
The order of items through a `WorkQueueVal`.

A worker moves an item from the list of the subclass to `to_process` under the pool's
lock, gives the lock up, and takes an item from `to_process` under the queue's own
lock: often one that another worker moved. Both are moves from the front of one list
to the back of the next, so the item that a worker takes is always the one that has
waited longest since its dequeue.
-/

import BlueThread.Foundation.TwoStage
import BlueThread.ThreadPool.Steps

namespace BlueThread.ThreadPool

open TwoStage

variable {α : Type}

def State.served (state : State α) : Option Nat :=
  if state.stop then none
  else if state.workQueues = [] then none
  else if state.pause ≠ 0 then none
  else
    (scan state.queues state.workQueues (2 * state.workQueues.length)
      state.nextWorkQueue).2.map Prod.fst

def queueEvent (wq : Nat) (state : State α) : Action α → Option (Event α)
  | .queue other item _ => if other = wq then some (.back item) else none
  | .queueFront other item _ => if other = wq then some (.front item) else none
  | .work worker =>
      match state.workers[worker]? with
      | some .top => if state.served = some wq then some .dequeue else none
      | some (.toProcess other) => if other = wq then some .take else none
      | _ => none
  | _ => none

/-- The pool, and what has happened to the queue, the latest first. -/
structure Observed (α : Type) where
  pool : State α
  events : List (Event α)

/-- The pool with an eye on one queue. -/
def observed (wq : Nat) : Runs.System (Observed α) (Action α) where
  initial current := (system α).initial current.pool ∧ current.events = []
  step current action :=
    (step current.pool action).map fun next =>
      { pool := next
        events := (queueEvent wq current.pool action).toList ++ current.events }

/-- No call of `stop`, whose last step clears the queues. -/
def WithoutStop : Action α → Prop
  | .stop _ | .join _ | .clear _ => False
  | _ => True

/-! ### The lists of a queue -/

structure Mirrors (queue : WorkQueue α) (lane : Lane α) : Prop where
  items : queue.items = lane.waiting
  toProcess : queue.toProcess = lane.staged
  started : queue.started.reverse = lane.taken

def Tracks (wq : Nat) (queues : List (WorkQueue α)) (events : List (Event α)) : Prop :=
  match queues[wq]? with
  | none => events = []
  | some queue => Mirrors queue (run events)

section Queue

variable {queue after : WorkQueue α} {lane : Lane α} {item : α}

theorem Mirrors.enqueue (mirrors : Mirrors queue lane) (item : α) :
    Mirrors (queue.enqueue item) (lane.next (.back item)) :=
  ⟨congrArg (· ++ [item]) mirrors.items, mirrors.toProcess, mirrors.started⟩

theorem Mirrors.enqueueFront (mirrors : Mirrors queue lane) (item : α) :
    Mirrors (queue.enqueueFront item) (lane.next (.front item)) :=
  ⟨congrArg (item :: ·) mirrors.items, mirrors.toProcess, mirrors.started⟩

theorem Mirrors.voidDequeue (mirrors : Mirrors queue lane)
    (dequeued : queue.voidDequeue = some after) : Mirrors after (lane.next .dequeue) := by
  obtain ⟨item, rest, front, same⟩ := WorkQueue.voidDequeue_eq_some dequeued
  obtain ⟨items, toProcess, started⟩ := mirrors
  obtain ⟨waiting, staged, dequeuedBefore, taken⟩ := lane
  rw [front] at items
  subst same items
  exact ⟨rfl, congrArg (· ++ [item]) toProcess, started⟩

theorem Mirrors.popToProcess (mirrors : Mirrors queue lane)
    (popped : queue.popToProcess = some (after, item)) : Mirrors after (lane.next .take) := by
  obtain ⟨rest, front, same⟩ := WorkQueue.popToProcess_eq_some popped
  obtain ⟨items, toProcess, started⟩ := mirrors
  obtain ⟨waiting, staged, dequeued, taken⟩ := lane
  rw [front] at toProcess
  subst same toProcess
  refine ⟨items, rfl, ?_⟩
  change (item :: queue.started).reverse = taken ++ [item]
  rw [List.reverse_cons]
  exact congrArg (· ++ [item]) started

theorem Mirrors.failed (mirrors : Mirrors queue lane) (failed : queue.popToProcess = none) :
    Mirrors queue (lane.next .take) := by
  have toProcess := mirrors.toProcess
  rw [WorkQueue.popToProcess_eq_none failed] at toProcess
  rw [Lane.next, ← toProcess]
  exact mirrors

theorem Mirrors.same (mirrors : Mirrors queue lane) (items : after.items = queue.items)
    (toProcess : after.toProcess = queue.toProcess) (started : after.started = queue.started) :
    Mirrors after lane := by
  refine ⟨items.trans mirrors.items, toProcess.trans mirrors.toProcess, ?_⟩
  rw [started]
  exact mirrors.started

end Queue

section Lists

variable {wq place : Nat} {queues : List (WorkQueue α)} {events : List (Event α)}
  {queue after : WorkQueue α}

theorem Tracks.found (atQueue : queues[wq]? = some queue) :
    Tracks wq queues events ↔ Mirrors queue (run events) := by
  rw [Tracks, atQueue]

theorem Tracks.set {event : Event α} (tracks : Tracks wq queues events)
    (atPlace : queues[place]? = some queue)
    (moves : ∀ lane, Mirrors queue lane → Mirrors after (lane.next event)) :
    Tracks wq (queues.set place after)
      ((if place = wq then some event else none).toList ++ events) := by
  by_cases same : place = wq
  · subst same
    rw [if_pos rfl]
    refine (Tracks.found (Population.getElem?_set_found atPlace)).mpr (moves _ ?_)
    exact (Tracks.found atPlace).mp tracks
  · rw [if_neg same, Tracks, List.getElem?_set_ne same]
    exact tracks

theorem Tracks.setSame (tracks : Tracks wq queues events) (atPlace : queues[place]? = some queue)
    (items : after.items = queue.items) (toProcess : after.toProcess = queue.toProcess)
    (started : after.started = queue.started) : Tracks wq (queues.set place after) events := by
  by_cases same : place = wq
  · subst same
    refine (Tracks.found (Population.getElem?_set_found atPlace)).mpr ?_
    exact ((Tracks.found atPlace).mp tracks).same items toProcess started
  · rw [Tracks, List.getElem?_set_ne same]
    exact tracks

theorem Tracks.append (tracks : Tracks wq queues events) (overridesClear : Bool) :
    Tracks wq (queues ++ [WorkQueue.initial overridesClear]) events := by
  cases atQueue : queues[wq]? with
  | some queue =>
      have bound := (List.getElem?_eq_some_iff.mp atQueue).1
      have still : (queues ++ [WorkQueue.initial overridesClear])[wq]? = some queue := by
        rw [List.getElem?_append_left bound]
        exact atQueue
      exact (Tracks.found still).mpr ((Tracks.found atQueue).mp tracks)
  | none =>
      rw [Tracks, atQueue] at tracks
      cases new : (queues ++ [WorkQueue.initial overridesClear])[wq]? with
      | none =>
          rw [Tracks, new]
          exact tracks
      | some queue =>
          have bound := List.getElem?_eq_none_iff.mp atQueue
          have place := new
          rw [List.getElem?_append_right bound] at place
          have fresh := List.mem_singleton.mp (List.mem_of_getElem? place)
          refine (Tracks.found new).mpr ?_
          rw [fresh, tracks]
          exact ⟨rfl, rfl, rfl⟩

end Lists

/-! ### The steps of the pool -/

section Steps

variable {wq worker : Nat} {state next : State α} {events : List (Event α)}

theorem workerTop_tracks (tracks : Tracks wq state.queues events)
    (found : state.workers[worker]? = some .top) :
    Tracks wq (workerTop state worker).queues
      ((queueEvent wq state (.work worker)).toList ++ events) := by
  rw [queueEvent, found]
  dsimp only
  rw [State.served, workerTop]
  cases state.stop with
  | true => exact tracks
  | false =>
      rw [if_neg Bool.false_ne_true, if_neg Bool.false_ne_true]
      by_cases empty : state.workQueues = []
      · rw [if_pos empty, if_pos empty]
        exact tracks
      · rw [if_neg empty, if_neg empty]
        by_cases paused : state.pause ≠ 0
        · rw [if_pos paused, if_pos paused]
          exact tracks
        · rw [if_neg paused, if_neg paused]
          cases scanned : scan state.queues state.workQueues (2 * state.workQueues.length)
              state.nextWorkQueue with
          | mk left outcome =>
              cases outcome with
              | none => exact tracks
              | some chosen =>
                  obtain ⟨place, after⟩ := chosen
                  obtain ⟨_registered, queue, atPlace, dequeued⟩ := scan_some scanned
                  simp only [Option.map_some, Option.some.injEq]
                  exact tracks.set atPlace (fun lane mirrors => mirrors.voidDequeue dequeued)

theorem work_tracks (tracks : Tracks wq state.queues events) {pc : WorkerPc α}
    (found : state.workers[worker]? = some pc) (done : work state worker pc = some next) :
    Tracks wq next.queues ((queueEvent wq state (.work worker)).toList ++ events) := by
  cases pc with
  | top =>
      rw [work, Option.some.injEq] at done
      subst done
      exact workerTop_tracks tracks found
  | toProcess place =>
      obtain ⟨queue, atPlace, result⟩ := Option.map_eq_some_iff.mp done
      rw [queueEvent, found]
      dsimp only
      cases popped : queue.popToProcess with
      | some taken =>
          obtain ⟨after, item⟩ := taken
          rw [popped] at result
          subst result
          exact tracks.set atPlace (fun lane mirrors => mirrors.popToProcess popped)
      | none =>
          rw [popped] at result
          subst result
          have kept : Tracks wq (state.queues.set place queue)
              ((if place = wq then some .take else none).toList ++ events) :=
            tracks.set atPlace (fun lane mirrors => mirrors.failed popped)
          rw [Population.set_same atPlace] at kept
          exact kept
  | inProcess place item =>
      obtain ⟨queue, atPlace, result⟩ := Option.map_eq_some_iff.mp done
      subst result
      rw [queueEvent, found]
      exact tracks.setSame atPlace rfl rfl rfl
  | processed place item =>
      obtain ⟨queue, atPlace, result⟩ := Option.map_eq_some_iff.mp done
      subst result
      rw [queueEvent, found]
      exact tracks.setSame atPlace rfl rfl rfl
  | toFinish place =>
      obtain ⟨queue, atPlace, result⟩ := Option.map_eq_some_iff.mp done
      rw [queueEvent, found]
      cases popped : queue.popToFinish with
      | some taken =>
          obtain ⟨after, item⟩ := taken
          obtain ⟨rest, _front, same⟩ := WorkQueue.popToFinish_eq_some popped
          rw [popped] at result
          subst result same
          exact tracks.setSame atPlace rfl rfl rfl
      | none =>
          rw [popped] at result
          subst result
          exact tracks
  | inFinish place item =>
      obtain ⟨queue, atPlace, result⟩ := Option.map_eq_some_iff.mp done
      subst result
      rw [queueEvent, found]
      have kept : (workerDone state worker place queue item).queues =
          state.queues.set place (queue.finishReturned item) := by
        rw [workerDone]
        by_cases told : state.pause ≠ 0 ∨ state.draining ≠ 0
        · rw [if_pos told]
          rfl
        · rw [if_neg told]
          rfl
      rw [kept]
      exact tracks.setSame atPlace rfl rfl rfl
  | starting | relock _ | woken =>
      rw [work, Option.ite_none_right_eq_some] at done
      cases done.2
      rw [queueEvent, found]
      exact tracks
  | waiting | finished => cases done

theorem insertItem_tracks {place : Nat} {change : WorkQueue α → WorkQueue α} {event : Event α}
    {notified : Option Nat} (tracks : Tracks wq state.queues events)
    (moves : ∀ queue lane, Mirrors queue lane → Mirrors (change queue) (lane.next event))
    (done : insertItem state place change notified = some next) :
    Tracks wq next.queues ((if place = wq then some event else none).toList ++ events) := by
  obtain ⟨queue, atPlace, ⟨worker, _, rfl⟩ | ⟨_, rfl⟩⟩ := insertItem_eq_some done
  · exact tracks.set atPlace (moves queue)
  · exact tracks.set atPlace (moves queue)

theorem pauseLoop_queues (state : State α) (client pauses : Nat) :
    (pauseLoop state client pauses).queues = state.queues := by
  obtain ⟨pc, later, same⟩ := pauseLoop_eq state client pauses
  rw [same]
  rfl

theorem drainLoop_queues (state : State α) (client pauses : Nat) (place : Option Nat) :
    (drainLoop state client pauses place).queues = state.queues := by
  obtain ⟨pc, draining, same⟩ := drainLoop_eq state client pauses place
  rw [same]
  rfl

theorem clientStep_tracks {action : Action α} (tracks : Tracks wq state.queues events)
    (unstopped : ∀ client, action ≠ .clear client)
    (done : clientStep state action = some next) :
    Tracks wq next.queues ((queueEvent wq state action).toList ++ events) := by
  cases action with
  | queue place item notified =>
      exact insertItem_tracks tracks (fun _queue _lane mirrors => mirrors.enqueue item) done
  | queueFront place item notified =>
      exact insertItem_tracks tracks (fun _queue _lane mirrors => mirrors.enqueueFront item) done
  | wake | removeWorkQueue _ | start =>
      cases done
      exact tracks
  | newQueue overridesClear =>
      cases done
      exact tracks.append overridesClear
  | addWorkQueue place =>
      rw [clientStep, Option.ite_none_right_eq_some] at done
      cases done.2
      exact tracks
  | stop client =>
      obtain ⟨pauses, _called, result⟩ := Option.bind_eq_some_iff.mp done
      rw [Option.ite_none_left_eq_some] at result
      cases result.2
      exact tracks
  | clear client => exact absurd rfl (unstopped client)
  | pause client =>
      obtain ⟨pauses, _called, result⟩ := Option.map_eq_some_iff.mp done
      subst result
      rw [pauseLoop_queues]
      exact tracks
  | unpause client =>
      obtain ⟨pauses, _called, result⟩ := Option.map_eq_some_iff.mp done
      subst result
      exact tracks
  | drain client place =>
      obtain ⟨pauses, _called, result⟩ := Option.map_eq_some_iff.mp done
      subst result
      rw [drainLoop_queues]
      exact tracks
  | resume client =>
      rw [clientStep] at done
      cases found : state.clients[client]? with
      | none =>
          rw [found] at done
          cases done
      | some one =>
          obtain ⟨pc, pauses⟩ := one
          rw [found] at done
          cases pc with
          | pauseWoken =>
              cases done
              rw [pauseLoop_queues]
              exact tracks
          | drainWoken place =>
              cases done
              rw [drainLoop_queues]
              exact tracks
          | idle | pauseWait | drainWait _ | stopJoining | stopClearing => cases done
  | work _ | timeout _ | spurious _ | join _ => cases done

theorem step_tracks {action : Action α} (tracks : Tracks wq state.queues events)
    (unstopped : ∀ client, action ≠ .clear client)
    (taken : step state action = some next) :
    Tracks wq next.queues ((queueEvent wq state action).toList ++ events) := by
  rw [step, Option.ite_none_left_eq_some] at taken
  obtain ⟨_running, done⟩ := taken
  have locked {rest : Option (State α)} (same : rest = clientStep state action)
      (result : (if state.lock = none then rest else none) = some next) :
      Tracks wq next.queues ((queueEvent wq state action).toList ++ events) := by
    rw [Option.ite_none_right_eq_some] at result
    exact clientStep_tracks tracks unstopped (same ▸ result.2)
  cases action with
  | work worker =>
      obtain ⟨pc, found, worked⟩ := Option.bind_eq_some_iff.mp done
      exact work_tracks tracks found worked
  | timeout worker =>
      rw [stepLive, Option.ite_none_right_eq_some] at done
      cases done.2
      exact tracks
  | spurious client =>
      obtain ⟨one, _found, result⟩ := Option.map_eq_some_iff.mp done
      subst result
      exact tracks
  | join client =>
      rw [stepLive] at done
      cases found : state.clients[client]? with
      | none =>
          rw [found] at done
          cases done
      | some one =>
          obtain ⟨pc, pauses⟩ := one
          rw [found] at done
          cases pc with
          | stopJoining =>
              dsimp only at done
              rw [Option.ite_none_right_eq_some] at done
              cases done.2
              exact tracks
          | idle | pauseWait | pauseWoken | drainWait _ | drainWoken _ | stopClearing =>
              cases done
  | _ => exact locked rfl done

end Steps

/-! ### Runs -/

section Runs

variable {wq : Nat} {current : Observed α}

theorem reachable_tracks (reached : Runs.Reachable (observed wq) (fun _ => WithoutStop) current) :
    Tracks wq current.pool.queues current.events := by
  apply reached.invariant
  · intro first initial
    obtain ⟨⟨numThreads, clients, same⟩, none⟩ := initial
    rw [same, none]
    rfl
  · intro before action after _reached tracks permitted taken
    obtain ⟨next, moved, same⟩ := Option.map_eq_some_iff.mp taken
    subst same
    refine step_tracks tracks ?_ moved
    intro client clears
    rw [clears] at permitted
    exact permitted

theorem reachable_observed {state : State α}
    (reached : Runs.Reachable (system α) (fun _ => WithoutStop) state) :
    ∃ events, Runs.Reachable (observed wq) (fun _ => WithoutStop) ⟨state, events⟩ := by
  induction reached with
  | start initial => exact ⟨[], .start ⟨initial, rfl⟩⟩
  | @next before after action _before permitted taken ih =>
      obtain ⟨events, reached⟩ := ih
      have watched : (observed wq).step ⟨before, events⟩ action =
          some ⟨after, (queueEvent wq before action).toList ++ events⟩ :=
        Option.map_eq_some_iff.mpr ⟨after, taken, rfl⟩
      exact ⟨_, .next action reached permitted watched⟩

/-- The order of items through a queue. The items are numbered in the order in which
`queue` and `queue_front` locked the pool. The lists of the queue are those that its
events make; items are taken in the order in which they were dequeued, they are dequeued
in the order of the calls if all calls are `queue`, and an item that came in at the front
is taken before every item that was in the list then. -/
theorem items_in_order (reached : Runs.Reachable (observed wq) (fun _ => WithoutStop) current)
    {queue : WorkQueue α} (atQueue : current.pool.queues[wq]? = some queue) :
    queue.items = (run (number current.events)).waiting.map Prod.snd ∧
      queue.toProcess = (run (number current.events)).staged.map Prod.snd ∧
      queue.started.reverse = (run (number current.events)).taken.map Prod.snd ∧
      (run (number current.events)).taken.Nodup ∧
      (run (number current.events)).taken <+: (run (number current.events)).dequeued ∧
      ((∀ event ∈ current.events, event.Fair) →
        (run (number current.events)).dequeued <+: inserted (number current.events)) ∧
      ∀ later item earlier, current.events = later ++ .front item :: earlier →
        ∀ entry ∈ (run (number earlier)).waiting,
          entry ∈ (run (number current.events)).taken →
          [((inserted earlier).length, item), entry].Sublist
            (run (number current.events)).taken := by
  have mirrors := (Tracks.found atQueue).mp (reachable_tracks reached)
  rw [← run_number] at mirrors
  refine ⟨mirrors.items, mirrors.toProcess, mirrors.started, taken_distinct _,
    taken_before_staged _, ?_, ?_⟩
  · intro fair
    exact dequeued_of_fair _ (number_fair _ fair)
  · intro later item earlier split entry behind taken
    rw [split] at taken ⊢
    exact front_taken_before later earlier item behind taken

end Runs

instance (action : Action α) : Decidable (WithoutStop action) :=
  match action with
  | .stop _ | .join _ | .clear _ => inferInstanceAs (Decidable False)
  | .work _ | .timeout _ | .spurious _ | .queue _ _ _ | .queueFront _ _ _ | .wake | .newQueue _
  | .addWorkQueue _ | .removeWorkQueue _ | .start | .pause _ | .unpause _ | .drain _ _
  | .resume _ => inferInstanceAs (Decidable True)

/-- Two workers dequeue the item that was put in front and the first one of the others,
and each takes the item that the other one dequeued. -/
theorem items_in_order_crossed :
    ∃ (current : Observed Nat) (queue : WorkQueue Nat),
      Runs.Reachable (observed 0) (fun _ => WithoutStop) current ∧
      current.pool.queues[0]? = some queue ∧
      [(2, 30), (0, 10)].Sublist (run (number current.events)).taken := by
  obtain ⟨current, reached, passed⟩ := Runs.exists_of_replay (fun _ => WithoutStop)
    (show (observed 0).initial ⟨State.initial 2 0, []⟩ from ⟨⟨2, 0, rfl⟩, rfl⟩)
    [.newQueue false, .queue 0 10 none, .queue 0 20 none, .queueFront 0 30 none, .start,
      .work 0, .work 0, .work 1, .work 1, .work 1, .work 0]
    (fun current : Observed Nat => decide (current.events =
      [Event.take, Event.take, Event.dequeue, Event.dequeue, Event.front 30, Event.back 20,
        Event.back 10]) && current.pool.queues[0]?.isSome) (by decide +kernel)
  obtain ⟨same, present⟩ := Bool.and_eq_true_iff.mp passed
  have events := of_decide_eq_true same
  obtain ⟨queue, atQueue⟩ := Option.isSome_iff_exists.mp present
  obtain ⟨_, _, _, _, _, _, before⟩ := items_in_order reached atQueue
  refine ⟨current, queue, reached, atQueue, ?_⟩
  apply before [.take, .take, .dequeue, .dequeue] 30 [.back 20, .back 10] events
  · decide
  · rw [events]
    decide

end BlueThread.ThreadPool
