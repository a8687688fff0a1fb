/-
Shared data under a mutex and a condition: the use that `condition_variable.h` is made for.

A visit takes the mutex, waits with `wait(lock, pred)` or `wait_for(lock, awhile, pred)`,
reads the data, writes it back changed, notifies, and gives the mutex up. The mutex, which
was constructed without the checker, and the condition are the objects of the other
modules, step by step, and the data is read and written in steps of its own, so that
nothing but the mutex keeps two visits apart. A thread that is blocked may wake up at any
time; a notification makes sure that it does.
-/

import BlueThread.Locks.Ownership

namespace BlueThread.Locks

open Lockdep

universe u

/-- What a thread does between `lock` and `unlock`. A timed visit waits with
`wait_for(lock, awhile, pred)`, which may give up; in the end `notify_all` is called, or
`notify_one`. -/
structure Visit (content : Type u) where
  timed : Bool
  pred : content → Bool
  change : content → content
  all : Bool

/-- The next statement of a thread that is not inside a call on the mutex or the condition.
`woken` is behind `wait(lock)` or `_wait_until`, and `lastTest` the `return pred()` after a
time-out. -/
inductive Stage (content : Type u)
  | outside
  | testing (visit : Visit content)
  | calling (visit : Visit content)
  | woken (visit : Visit content)
  | lastTest (visit : Visit content)
  | reading (visit : Visit content)
  | writing (visit : Visit content) (copy : content)
  | notifying (visit : Visit content)
  | leaving (visit : Visit content) (granted : Bool)

/-- `signalled` are the waiters that a notification has reached since they called, and
`written` the changes so far, the latest first. -/
structure Monitor (content : Type u) where
  locks : State
  data : content
  stages : Tid → Stage content
  signalled : Tid → Bool
  written : List (content → content)

/-- A statement goes on with the status of a timed wait and the waiter that `notify_one`
picks. -/
inductive MonitorAction (content : Type u)
  | visit (tid : Tid) (visit : Visit content) (trace : BackTrace)
  | proceed (tid : Tid) (timedOut : Bool) (chosen : Tid)
  | advance (tid : Tid) (trace : BackTrace)
  | wake (tid : Tid)
  | deadlockError (tid : Tid)

namespace Monitor

variable {content : Type u}

/-- A mutex that is not checked, and a number of threads. -/
def initial (lockName : Name) (threads : Nat) (start : content) : Monitor content :=
  { locks :=
      { State.initial threads with objects := [newObject .mutex lockName none false] }
    data := start
    stages := fun _ => .outside
    signalled := fun _ => false
    written := [] }

def goTo (monitor : Monitor content) (tid : Tid) (stage : Stage content) : Monitor content :=
  { monitor with stages := Function.update monitor.stages tid stage }

def enter (monitor : Monitor content) (tid : Tid) (stage : Stage content) (action : Action) :
    Option (Monitor content) :=
  (Locks.step monitor.locks action).map fun locks =>
    { monitor.goTo tid stage with locks := locks }

/-- Blocked in `pthread_cond_wait` or `pthread_cond_timedwait`. -/
def blocked (monitor : Monitor content) (tid : Tid) : Bool :=
  match monitor.locks.threads[tid]? with
  | some (.condBlocked _ _) => true
  | _ => false

/-- `notify_one` and `notify_all`: the assertion, and then the signal. -/
def notify (monitor : Monitor content) (tid : Tid) (visit : Visit content) (chosen : Tid) :
    Monitor content :=
  if monitor.locks.waiterMutex 0 = none ∨ monitor.locks.isLocked 0 = true then
    { monitor.goTo tid (.leaving visit true) with
      signalled := fun other =>
        monitor.signalled other || (monitor.blocked other && (visit.all || other == chosen)) }
  else { monitor with locks := monitor.locks.abort }

def proceed (monitor : Monitor content) (tid : Tid) (timedOut : Bool) (chosen : Tid) :
    Option (Monitor content) :=
  match monitor.stages tid with
  | .outside => none
  | .testing visit =>
      some (monitor.goTo tid (if visit.pred monitor.data then .reading visit else .calling visit))
  | .calling visit =>
      (monitor.enter tid (.woken visit) (.wait tid 0 0)).map fun next =>
        { next with signalled := Function.update next.signalled tid false }
  | .woken visit =>
      some (monitor.goTo tid (if visit.timed && timedOut then .lastTest visit else .testing visit))
  | .lastTest visit =>
      some (monitor.goTo tid
        (if visit.pred monitor.data then .reading visit else .leaving visit false))
  | .reading visit => some (monitor.goTo tid (.writing visit monitor.data))
  | .writing visit copy =>
      some
        { monitor.goTo tid (.notifying visit) with
          data := visit.change copy
          written := visit.change :: monitor.written }
  | .notifying visit => some (monitor.notify tid visit chosen)
  | .leaving _ _ => monitor.enter tid .outside (.unlock tid 0)

def progress (monitor : Monitor content) (action : Action) : Option (Monitor content) :=
  (Locks.step monitor.locks action).map fun locks => { monitor with locks := locks }

def step (monitor : Monitor content) : MonitorAction content → Option (Monitor content)
  | .visit tid visit trace =>
      match monitor.stages tid with
      | .outside => monitor.enter tid (.testing visit) (.lock tid 0 trace)
      | _ => none
  | .proceed tid timedOut chosen =>
      if monitor.locks.aborted = false ∧ monitor.locks.threads[tid]? = some .idle then
        monitor.proceed tid timedOut chosen
      else none
  | .advance tid trace => monitor.progress (.advance tid trace)
  | .wake tid => monitor.progress (.wake tid)
  | .deadlockError tid => monitor.progress (.deadlockError tid)

end Monitor

def monitors {content : Type u} (start : content) :
    Runs.System (Monitor content) (MonitorAction content) where
  initial monitor := ∃ lockName threads, monitor = Monitor.initial lockName threads start
  step := Monitor.step

/-! ### Only the owner is inside -/

namespace Stage

variable {content : Type u}

/-- Whether the thread has the mutex when it gets there. -/
def owns : Stage content → Bool
  | .outside => false
  | _ => true

/-- Between two calls, on the data. -/
def computing : Stage content → Bool
  | .outside | .testing _ | .woken _ => false
  | _ => true

/-- What the thread knows about the data. -/
def Knows (data : content) : Stage content → Prop
  | .calling visit => visit.pred data = false
  | .lastTest visit => visit.timed = true
  | .reading visit => visit.pred data = true
  | .writing visit copy => visit.pred data = true ∧ copy = data
  | .leaving visit granted => granted = false → visit.timed = true ∧ visit.pred data = false
  | .outside | .testing _ | .woken _ | .notifying _ => True

theorem knows_of_calls {stage : Stage content} (calls : stage.computing = false) (data : content) :
    stage.Knows data := by
  cases stage with
  | outside => trivial
  | testing visit => trivial
  | woken visit => trivial
  | _ => cases calls

theorem owns_of_computing {stage : Stage content} (computes : stage.computing = true) :
    stage.owns = true := by
  cases stage with
  | outside => cases computes
  | _ => rfl

end Stage

structure Guarded {content : Type u} (start : content) (monitor : Monitor content)
    (object : LockObject) : Prop where
  reached : Runs.Reachable system OwnerUse monitor.locks
  pool : monitor.locks.Pool object
  heads : ∀ (tid : Tid) (pc : Pc), monitor.locks.threads[tid]? = some pc →
    pc.Heads tid object (monitor.stages tid).owns
  settled : ∀ (tid : Tid) (pc : Pc), monitor.locks.threads[tid]? = some pc →
    (monitor.stages tid).computing = true → pc = .idle
  knows : ∀ (tid : Tid) (pc : Pc), monitor.locks.threads[tid]? = some pc →
    (monitor.stages tid).Knows monitor.data
  serial : monitor.data = monitor.written.foldr (fun change data => change data) start

section Guards

variable {content : Type u} {start : content} {monitor next : Monitor content}
  {object : LockObject} {tid : Tid}

theorem Guarded.exact (guarded : Guarded start monitor object) : monitor.locks.Exact 0 object := by
  obtain ⟨found, live⟩ := object?_eq_some.mp guarded.pool.present
  exact reachable_booked guarded.reached 0 object found live guarded.pool.pooled.mutex

theorem Guarded.owner (guarded : Guarded start monitor object) {pc : Pc}
    (thread : monitor.locks.threads[tid]? = some pc)
    (computes : (monitor.stages tid).computing = true) : object.owner = some tid := by
  have idle := guarded.settled tid pc thread computes
  subst idle
  exact (guarded.heads tid .idle thread).mp (Stage.owns_of_computing computes)

theorem Guarded.isLocked (guarded : Guarded start monitor object)
    (idle : monitor.locks.threads[tid]? = some .idle) (owns : object.owner = some tid) :
    0 < object.lockedCount ∧ monitor.locks.isLocked 0 = true := by
  have counted := (Pc.exact_idle.mp (guarded.exact.threads tid .idle idle) owns).1
  unfold State.isLocked
  rw [guarded.pool.present, Option.any_some, counted]
  exact ⟨by decide, rfl⟩

theorem Guarded.arrive {locks : State} {action : Action} {stage : Stage content}
    {signalled : Tid → Bool} (guarded : Guarded start monitor object)
    (permitted : OwnerUse monitor.locks action) (acts : action.actor = some tid)
    (taken : Locks.step monitor.locks action = some locks)
    (arrives : Arrives locks tid stage.owns) (calls : stage.computing = false) :
    ∃ after, Guarded start
      { monitor.goTo tid stage with locks := locks, signalled := signalled } after := by
  obtain ⟨alive, conds, after, place, objects, pooled, thread, heads⟩ := arrives
  have consistent := ownerUse_consistent guarded.reached
  obtain ⟨found, _⟩ := object?_eq_some.mp guarded.pool.present
  have others (one : Tid) (apart : one ≠ tid) :
      locks.threads[one]? = monitor.locks.threads[one]? ∧
        (after.owner = some one ↔ object.owner = some one) := by
    have unmoved : action.actor ≠ some one := by
      rw [acts]
      exact fun equal => apart (Option.some.inj equal).symm
    obtain ⟨still, touched⟩ := (step_touch consistent taken).bystander unmoved
    obtain ⟨later, atLater, _, owner, _⟩ := touched 0 object found
    rw [objects] at atLater
    cases atLater
    exact ⟨still, owner⟩
  refine ⟨after, .next action guarded.reached permitted taken, ⟨alive, conds, objects, pooled⟩,
    ?_, ?_, ?_, guarded.serial⟩
  · intro one pc atOne
    change pc.Heads one after (Function.update monitor.stages tid stage one).owns
    by_cases same : one = tid
    · subst same
      rw [Function.update_self]
      cases thread.symm.trans atOne
      exact heads
    · rw [Function.update_of_ne same]
      obtain ⟨still, owner⟩ := others one same
      exact (guarded.heads one pc (still.symm.trans atOne)).transfer owner
  · intro one pc atOne computes
    change (Function.update monitor.stages tid stage one).computing = true at computes
    by_cases same : one = tid
    · subst same
      rw [Function.update_self, calls] at computes
      cases computes
    · rw [Function.update_of_ne same] at computes
      exact guarded.settled one pc ((others one same).1.symm.trans atOne) computes
  · intro one pc atOne
    change (Function.update monitor.stages tid stage one).Knows monitor.data
    by_cases same : one = tid
    · subst same
      rw [Function.update_self]
      exact Stage.knows_of_calls calls monitor.data
    · rw [Function.update_of_ne same]
      exact guarded.knows one pc ((others one same).1.symm.trans atOne)

theorem Guarded.compute {stage : Stage content} {after : content}
    {signalled : Tid → Bool} {written : List (content → content)}
    (guarded : Guarded start monitor object)
    (idle : monitor.locks.threads[tid]? = some .idle) (owns : object.owner = some tid)
    (owning : stage.owns = true) (knows : stage.Knows after)
    (serial : after = written.foldr (fun change data => change data) start) :
    Guarded start
      { monitor.goTo tid stage with data := after, signalled := signalled, written := written }
      object := by
  refine ⟨guarded.reached, guarded.pool, ?_, ?_, ?_, serial⟩
  · intro one pc atOne
    change pc.Heads one object (Function.update monitor.stages tid stage one).owns
    by_cases same : one = tid
    · subst same
      rw [Function.update_self, owning]
      cases idle.symm.trans atOne
      exact iff_of_true rfl owns
    · rw [Function.update_of_ne same]
      exact guarded.heads one pc atOne
  · intro one pc atOne computes
    change (Function.update monitor.stages tid stage one).computing = true at computes
    by_cases same : one = tid
    · subst same
      exact (Option.some.inj (idle.symm.trans atOne)).symm
    · rw [Function.update_of_ne same] at computes
      exact guarded.settled one pc atOne computes
  · intro one pc atOne
    change (Function.update monitor.stages tid stage one).Knows after
    by_cases same : one = tid
    · subst same
      rw [Function.update_self]
      exact knows
    · rw [Function.update_of_ne same]
      apply Stage.knows_of_calls
      rw [← Bool.not_eq_true]
      intro computes
      have theirs := guarded.owner atOne computes
      rw [owns, Option.some.injEq] at theirs
      exact same theirs.symm

theorem Guarded.inner {action : Action} (guarded : Guarded start monitor object)
    (permitted : OwnerUse monitor.locks action) (acts : action.actor = some tid)
    (absent : monitor.locks.threads[tid]? = none → stepLive monitor.locks action = none)
    (busy : monitor.locks.threads[tid]? = some .idle → stepLive monitor.locks action = none)
    (arrives : ∀ (pc : Pc) (own : Bool) (locks : State),
      monitor.locks.threads[tid]? = some pc → pc.Heads tid object own →
      Locks.step monitor.locks action = some locks → Arrives locks tid own)
    (taken : monitor.progress action = some next) : ∃ after, Guarded start next after := by
  obtain ⟨locks, called, rfl⟩ := Option.map_eq_some_iff.mp taken
  have live := guarded.pool.stepLive called
  cases thread : monitor.locks.threads[tid]? with
  | none =>
      rw [absent thread] at live
      cases live
  | some pc =>
      have calls : (monitor.stages tid).computing = false := by
        rw [← Bool.not_eq_true]
        intro computes
        have idle := guarded.settled tid pc thread computes
        rw [idle] at thread
        rw [busy thread] at live
        cases live
      obtain ⟨after, stayed⟩ := guarded.arrive permitted acts called
        (arrives pc _ locks thread (guarded.heads tid pc thread) called) calls
      rw [Monitor.goTo, Function.update_eq_self] at stayed
      exact ⟨after, stayed⟩

theorem Guarded.proceed {timedOut : Bool} {chosen : Tid} (guarded : Guarded start monitor object)
    (idle : monitor.locks.threads[tid]? = some .idle)
    (taken : monitor.proceed tid timedOut chosen = some next) :
    ∃ after, Guarded start next after := by
  have heads := guarded.heads tid .idle idle
  have knows := guarded.knows tid .idle idle
  rw [Monitor.proceed] at taken
  cases stage : monitor.stages tid with
  | outside =>
      rw [stage] at taken
      cases taken
  | testing visit =>
      rw [stage] at taken heads
      cases taken
      refine ⟨object, guarded.compute idle (heads.mp rfl) ?_ ?_ guarded.serial⟩
      · split <;> rfl
      · split
        · assumption
        · rename_i refused
          exact Bool.eq_false_of_not_eq_true refused
  | calling visit =>
      rw [stage] at taken heads
      obtain ⟨waiting, entered, rfl⟩ := Option.map_eq_some_iff.mp taken
      obtain ⟨locks, called, rfl⟩ := Option.map_eq_some_iff.mp entered
      have permitted : OwnerUse monitor.locks (.wait tid 0 0) := by
        intro one present
        cases guarded.pool.present.symm.trans present
        exact heads.mp rfl
      exact guarded.arrive permitted rfl called
        (.wait guarded.pool idle (guarded.isLocked idle (heads.mp rfl)).1 called) rfl
  | woken visit =>
      rw [stage] at taken heads
      cases taken
      refine ⟨object, guarded.compute idle (heads.mp rfl) ?_ ?_ guarded.serial⟩
      · split <;> rfl
      · split
        · rename_i both
          exact (Bool.and_eq_true_iff.mp both).1
        · trivial
  | lastTest visit =>
      rw [stage] at taken heads knows
      cases taken
      refine ⟨object, guarded.compute idle (heads.mp rfl) ?_ ?_ guarded.serial⟩
      · split <;> rfl
      · split
        · assumption
        · rename_i refused
          exact fun _ => ⟨knows, Bool.eq_false_of_not_eq_true refused⟩
  | reading visit =>
      rw [stage] at taken heads knows
      cases taken
      exact ⟨object, guarded.compute idle (heads.mp rfl) rfl ⟨knows, rfl⟩ guarded.serial⟩
  | writing visit copy =>
      rw [stage] at taken heads knows
      cases taken
      refine ⟨object, guarded.compute idle (heads.mp rfl) rfl trivial ?_⟩
      rw [List.foldr_cons, ← guarded.serial, knows.2]
  | notifying visit =>
      rw [stage] at taken heads
      cases taken
      rw [Monitor.notify, if_pos (Or.inr (guarded.isLocked idle (heads.mp rfl)).2)]
      exact ⟨object, guarded.compute idle (heads.mp rfl) rfl nofun guarded.serial⟩
  | leaving visit granted =>
      rw [stage] at taken heads
      obtain ⟨locks, called, rfl⟩ := Option.map_eq_some_iff.mp taken
      have permitted : OwnerUse monitor.locks (.unlock tid 0) := by
        intro one present _
        cases guarded.pool.present.symm.trans present
        exact heads.mp rfl
      exact guarded.arrive permitted rfl called (.unlock guarded.pool idle called) rfl

theorem Guarded.step {action : MonitorAction content} (guarded : Guarded start monitor object)
    (taken : monitor.step action = some next) : ∃ after, Guarded start next after := by
  cases action with
  | visit tid visit trace =>
      rw [Monitor.step] at taken
      cases stage : monitor.stages tid with
      | outside =>
          rw [stage] at taken
          obtain ⟨locks, called, rfl⟩ := Option.map_eq_some_iff.mp taken
          have permitted : OwnerUse monitor.locks (.lock tid 0 trace) := trivial
          have live := guarded.pool.stepLive called
          rw [stepLive, State.callee?] at live
          split_ifs at live with idle
          · have unowned : object.owner ≠ some tid := by
              intro owns
              have heads := guarded.heads tid .idle idle
              rw [stage] at heads
              cases heads.mpr owns
            exact guarded.arrive permitted rfl called (.lock guarded.pool idle unowned called) rfl
          · cases live
      | _ =>
          rw [stage] at taken
          cases taken
  | proceed tid timedOut chosen =>
      rw [Monitor.step] at taken
      split_ifs at taken with ready
      exact guarded.proceed ready.2 taken
  | advance tid trace =>
      have permitted : OwnerUse monitor.locks (.advance tid trace) := trivial
      refine guarded.inner permitted rfl ?_ ?_ ?_ taken
      · intro missing
        rw [stepLive, missing]
        rfl
      · intro idle
        rw [stepLive, idle]
        rfl
      · intro pc own locks thread heads called
        exact .inner guarded.pool guarded.exact thread heads called
  | wake tid =>
      have permitted : OwnerUse monitor.locks (.wake tid) := trivial
      refine guarded.inner permitted rfl ?_ ?_ ?_ taken
      · intro missing
        rw [stepLive, missing]
      · intro idle
        rw [stepLive, idle]
      · intro pc own locks thread heads called
        exact .wake guarded.pool thread heads called
  | deadlockError tid =>
      have permitted : OwnerUse monitor.locks (.deadlockError tid) := trivial
      refine guarded.inner permitted rfl ?_ ?_ ?_ taken
      · intro missing
        rw [stepLive, missing]
      · intro idle
        rw [stepLive, idle]
      · intro pc own locks thread heads called
        rw [no_deadlockError guarded.pool thread heads] at called
        cases called

theorem Guarded.initial (lockName : Name) (threads : Nat) (start : content) :
    Guarded start (Monitor.initial lockName threads start)
      (newObject .mutex lockName none false) := by
  refine ⟨?_, ⟨rfl, fun _ => Or.inl rfl, rfl, ⟨rfl, rfl, rfl⟩⟩, ?_, ?_, ?_, rfl⟩
  · have fresh : Runs.Reachable system OwnerUse (State.initial threads) := .start ⟨threads, rfl⟩
    exact .next (.create .mutex lockName false) fresh trivial rfl
  · intro tid pc thread
    have idle : pc = .idle := List.eq_of_mem_replicate (List.mem_of_getElem? thread)
    subst idle
    exact iff_of_false nofun nofun
  · intro tid pc thread computes
    cases computes
  · intro tid pc thread
    trivial

theorem reachable_guarded {discipline : Monitor content → MonitorAction content → Prop}
    (reached : Runs.Reachable (monitors start) discipline monitor) :
    ∃ object, Guarded start monitor object := by
  induction reached with
  | start initial =>
      obtain ⟨lockName, threads, rfl⟩ := initial
      exact ⟨_, .initial lockName threads start⟩
  | next action _before _permitted taken ih =>
      obtain ⟨object, guarded⟩ := ih
      exact guarded.step taken

end Guards

namespace Monitor

variable {content : Type u}

/-- Whether the thread owns the mutex. -/
def owned (monitor : Monitor content) (tid : Tid) : Prop :=
  ∃ object, monitor.locks.object? 0 = some object ∧ object.owner = some tid

end Monitor

section Results

variable {content : Type u} {start : content} {monitor : Monitor content}

/-- However the threads interleave, no assertion of the mutex or the condition fails, the
data is what the written changes make of it one after the other, at most one thread works
on it, and that thread has waited for its predicate or given up on it: what
`wait(lock, pred)` and `wait_for(lock, awhile, pred)` returned still holds. -/
theorem monitor_serial {discipline : Monitor content → MonitorAction content → Prop}
    (reached : Runs.Reachable (monitors start) discipline monitor) :
    monitor.locks.aborted = false ∧
      monitor.data = monitor.written.foldr (fun change data => change data) start ∧
      (∀ (tid : Tid) (pc : Pc), monitor.locks.threads[tid]? = some pc →
        (monitor.stages tid).computing = true →
        monitor.owned tid ∧ (monitor.stages tid).Knows monitor.data) ∧
      ∀ (tid other : Tid) (pc one : Pc), monitor.locks.threads[tid]? = some pc →
        monitor.locks.threads[other]? = some one → (monitor.stages tid).computing = true →
        (monitor.stages other).computing = true → tid = other := by
  obtain ⟨object, guarded⟩ := reachable_guarded reached
  refine ⟨guarded.pool.alive, guarded.serial, ?_, ?_⟩
  · intro tid pc thread computes
    exact ⟨⟨object, guarded.pool.present, guarded.owner thread computes⟩,
      guarded.knows tid pc thread⟩
  · intro tid other pc one thread atOther computes too
    have mine := guarded.owner thread computes
    rw [guarded.owner atOther too, Option.some.injEq] at mine
    exact mine.symm

end Results

/-- A thread waits until another one has counted up, and is about to count up itself. -/
theorem monitor_serial_after_wait :
    ∃ monitor, Runs.Reachable (monitors 0) (fun _ _ => True) monitor ∧ monitor.data = 1 ∧
      monitor.locks.aborted = false ∧ monitor.owned 0 ∧
      (monitor.stages 0).Knows monitor.data := by
  let trace : BackTrace := ⟨0, []⟩
  let waiter : Visit Nat := ⟨false, fun count => decide (1 ≤ count), (· + 1), true⟩
  let counter : Visit Nat := ⟨false, fun _ => true, (· + 1), false⟩
  let advance (tid count : Nat) : List (MonitorAction Nat) :=
    List.replicate count (.advance tid trace)
  let proceed (tid count : Nat) : List (MonitorAction Nat) :=
    List.replicate count (.proceed tid false 0)
  let actions : List (MonitorAction Nat) :=
    [.visit 0 waiter trace] ++ advance 0 4 ++ proceed 0 2 ++ advance 0 5 ++
      [.visit 1 counter trace] ++ advance 1 4 ++ proceed 1 5 ++ advance 1 6 ++
      [.wake 0] ++ advance 0 4 ++ proceed 0 3
  obtain ⟨monitor, reached, passed⟩ := Runs.exists_of_replay (fun _ _ => True)
    (show (monitors 0).initial (Monitor.initial [97] 2 0) from ⟨[97], 2, rfl⟩) actions
    (fun monitor : Monitor Nat => decide (monitor.data = 1 ∧
      monitor.locks.threads[0]? = some Pc.idle ∧
      (monitor.stages 0).computing = true)) (by decide +kernel)
  obtain ⟨counted, idle, computes⟩ := of_decide_eq_true passed
  obtain ⟨alive, _serial, inside, _alone⟩ := monitor_serial reached
  obtain ⟨owned, knows⟩ := inside 0 .idle idle computes
  exact ⟨monitor, reached, counted, alive, owned, knows⟩

end BlueThread.Locks
