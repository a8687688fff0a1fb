/-
Condition waits that fail.

`pthread_cond_wait` and `pthread_cond_timedwait` may return an error without
having given the mutex back. By then `_pre_unlock` has lowered the counter, and
`_post_lock` has to raise it again: `_wait_until` calls it before it looks at the
error, `wait` throws first. A failed `_wait_until` is then as good as a wait
that was woken at once, which carries the bookkeeping invariant over to runs
with errors.
-/

import BlueThread.Locks.Bookkeeping

namespace BlueThread.Locks

open Lockdep Population

/-- `condition_variable::wait` or `condition_variable::_wait_until`. -/
inductive WaitForm
  | wait
  | waitUntil
deriving DecidableEq

inductive WaitExit
  | noTimeout
  | timeout
  | threw (code : Int)
deriving DecidableEq

def etimedout : Int := 110

/-- What a call makes of the result of its pthread call. -/
def WaitForm.exit : WaitForm → Int → WaitExit
  | .wait, result => if result ≠ 0 then .threw result else .noTimeout
  | .waitUntil, result =>
      if result = 0 then .noTimeout
      else if result = etimedout then .timeout
      else .threw result

/-- The locks, and for each thread the function that its last wait called and the
local variable `r` of that call. -/
structure Waiters where
  locks : State
  forms : Tid → WaitForm
  results : Tid → Int

/-- `timeout` is `ETIMEDOUT`, which comes with the mutex, and `fail` an error that comes
before the mutex was given back. -/
inductive WaitAction
  | base (action : Action)
  | wait (tid : Tid) (form : WaitForm) (cond lock : Nat)
  | timeout (tid : Tid)
  | fail (tid : Tid) (code : Int)
deriving DecidableEq

namespace Waiters

def initial (threads : Nat) : Waiters :=
  { locks := State.initial threads
    forms := fun _ => .wait
    results := fun _ => 0 }

def refused (state : Waiters) (tid : Tid) : Bool :=
  match state.locks.threads[tid]? with
  | some (.condWait _ lock) =>
      (state.locks.object? lock).any fun object => (releaseBy object tid).isNone
  | _ => false

/-- The calls of `wait` have an action of their own, and so have errors. -/
def baseStep (state : Waiters) : Action → Option Waiters
  | .wait _ _ _ => none
  | .wake tid =>
      (Locks.step state.locks (.wake tid)).map fun locks =>
        { state with locks := locks, results := Function.update state.results tid 0 }
  | .advance tid trace =>
      if state.refused tid then none
      else (Locks.step state.locks (.advance tid trace)).map fun locks =>
        { state with locks := locks }
  | action => (Locks.step state.locks action).map fun locks => { state with locks := locks }

/-- The rest of a wait whose pthread call returned an error with the mutex still
taken. -/
def unwind (state : State) (tid : Tid) (lock : Nat) (object : LockObject) : WaitForm → State
  | .wait => state.setPc tid .idle
  | .waitUntil =>
      state.setPc tid
        (.ofBooks lock .finish (postLock object.kind .exclusive object.lockdep))

def fail (state : Waiters) (tid : Tid) (code : Int) : Option Waiters :=
  match state.locks.threads[tid]? with
  | some (.condWait _ lock) =>
      (state.locks.object? lock).map fun object =>
        { state with
          locks := unwind state.locks tid lock object (state.forms tid)
          results := Function.update state.results tid code }
  | _ => none

def step (state : Waiters) : WaitAction → Option Waiters
  | .base action => state.baseStep action
  | .wait tid form cond lock =>
      (Locks.step state.locks (.wait tid cond lock)).map fun locks =>
        { state with locks := locks, forms := Function.update state.forms tid form }
  | .timeout tid =>
      if state.forms tid = .waitUntil then
        (Locks.step state.locks (.wake tid)).map fun locks =>
          { state with locks := locks, results := Function.update state.results tid etimedout }
      else none
  | .fail tid code =>
      if state.locks.aborted ∨ code = 0 then none else state.fail tid code

end Waiters

def waiters : Runs.System Waiters WaitAction where
  initial state := ∃ threads, state = Waiters.initial threads
  step := Waiters.step

/-- Owners wait and unlock, and only timed waits fail. -/
def TimedFailures (state : Waiters) : WaitAction → Prop
  | .base action => OwnerUse state.locks action
  | .wait tid _ cond lock => OwnerUse state.locks (.wait tid cond lock)
  | .timeout _ => True
  | .fail tid _ => state.forms tid = .waitUntil

instance (state : Waiters) (action : WaitAction) : Decidable (TimedFailures state action) :=
  match action with
  | .base action => inferInstanceAs (Decidable (OwnerUse state.locks action))
  | .wait tid _ cond lock => inferInstanceAs (Decidable (OwnerUse state.locks (.wait tid cond lock)))
  | .timeout _ => inferInstanceAs (Decidable True)
  | .fail tid _ => inferInstanceAs (Decidable (state.forms tid = .waitUntil))

/-! ### A mutex has no readers -/

def Pc.waitsOn : Pc → Option Nat
  | .book lock _ _ (.condWait _) => some lock
  | .condWait _ lock => some lock
  | .condBlocked _ lock => some lock
  | .condAcquiring _ lock => some lock
  | _ => none

structure Unshared (state : State) : Prop where
  readers : ∀ (lock : Nat) (object : LockObject), state.objects[lock]? = some object →
    object.live = true → object.kind = .mutex → object.readers = []
  waits : ∀ (tid : Tid) (pc : Pc) (lock : Nat) (object : LockObject),
    state.threads[tid]? = some pc → pc.waitsOn = some lock →
    state.objects[lock]? = some object → object.kind = .mutex

section Steps

variable {action : Action} {tid : Tid} {lock place : Nat} {object after : LockObject} {old pc : Pc}
  {state next : State}

theorem waitsOn_target (waits : pc.waitsOn = some lock) : pc.target = some lock := by
  cases pc with
  | book other first rest following =>
      cases following with
      | condWait cond => exact waits
      | _ => cases waits
  | condWait cond other => exact waits
  | condBlocked cond other => exact waits
  | condAcquiring cond other => exact waits
  | _ => cases waits

theorem waitsOn_ofBooks {following : After} {books : List Book}
    (waits : (Pc.ofBooks lock following books).waitsOn = some place) :
    place = lock ∧ ∃ cond, following = .condWait cond := by
  cases following with
  | condWait cond =>
      cases books with
      | nil => exact ⟨(Option.some.inj waits).symm, cond, rfl⟩
      | cons first rest => exact ⟨(Option.some.inj waits).symm, cond, rfl⟩
  | finish =>
      cases books with
      | nil => cases waits
      | cons first rest => cases waits
  | willUnlock =>
      cases books with
      | nil => cases waits
      | cons first rest => cases waits

/-- A thread is in a wait because it was in it before, or because it entered one
on a mutex. -/
theorem LockMove.waitsOn (moved : LockMove action tid lock object old after pc)
    (waits : pc.waitsOn = some place) :
    place = lock ∧ (old.waitsOn = some lock ∨ object.kind = .mutex) := by
  cases moved with
  | grant wants granted goes =>
      rcases goes with rfl | rfl
      · cases waits
      · obtain ⟨_, _, impossible⟩ := waitsOn_ofBooks waits
        cases impossible
  | settle mode =>
      obtain ⟨_, _, impossible⟩ := waitsOn_ofBooks waits
      cases impossible
  | book ran =>
      obtain ⟨rfl, cond, rfl⟩ := waitsOn_ofBooks waits
      exact ⟨rfl, Or.inl rfl⟩
  | leave leaves =>
      obtain ⟨rfl, cond, rfl⟩ := waitsOn_ofBooks waits
      cases leaves with
      | wait _ mutex => exact ⟨rfl, Or.inr mutex⟩
  | park cond released => exact ⟨(Option.some.inj waits).symm, Or.inl rfl⟩
  | wake cond => exact ⟨(Option.some.inj waits).symm, Or.inl rfl⟩
  | _ => cases waits

theorem grantTo_readers (granted : grantTo object tid .exclusive = some after) :
    after.readers = object.readers := by
  rw [grantTo] at granted
  split at granted <;> cases granted
  rfl

theorem releaseBy_readers (none : object.readers = [])
    (released : releaseBy object tid = some after) : after.readers = [] := by
  unfold releaseBy at released
  split_ifs at released with owner reader <;> cases released
  · exact none
  · rw [none] at reader
    cases reader

theorem LockMove.unshared (moved : LockMove action tid lock object old after pc)
    (inside : old.Inside tid object) (none : object.readers = []) : after.readers = [] := by
  cases moved with
  | grant wants granted goes =>
      cases wants with
      | acquires mode =>
          obtain ⟨rfl, _⟩ := inside
          exact (grantTo_readers granted).trans none
      | _ => exact (grantTo_readers granted).trans none
  | book ran => exact (Book.run_spec ran).2.2.trans none
  | unlock released => exact releaseBy_readers none released
  | park cond released => exact releaseBy_readers none released
  | _ => exact none

theorem Unshared.initial (threads : Nat) : Unshared (State.initial threads) where
  readers lock object found := by cases found
  waits tid pc lock object _ _ found := by cases found

theorem Unshared.step_readers (unshared : Unshared state) (booked : Booked state)
    (consistent : Consistent state) (touch : Touch state action next) (lock : Nat)
    (object : LockObject) (found : next.objects[lock]? = some object)
    (live : object.live = true) (mutex : object.kind = .mutex) : object.readers = [] := by
  refine touch.forall_live (fun _ _ object => object.kind = .mutex → object.readers = [])
    consistent unshared.readers ?_ ?_ ?_ ?_ lock object found live mutex
  · intro lock object _ before
    exact before
  · intro lock kind name id lockdep _ _
    rfl
  · intro tid lock object after old pc present thread moved _ before mutex
    obtain ⟨found, live⟩ := object?_eq_some.mp present
    have wasMutex := moved.kept.1.symm.trans mutex
    have exact := (booked lock object found live wasMutex).threads tid old thread
    exact moved.unshared ((Pc.exact_iff_inside moved.targets.1).mp exact) (before wasMutex)
  · intro tid lock other object one after old pc _ _ _ _ before
    exact before

theorem Touch.kind_before (touch : Touch state action next) {lock : Nat} {object : LockObject}
    (placed : lock < state.objects.length) (found : next.objects[lock]? = some object) :
    ∃ earlier, state.objects[lock]? = some earlier ∧ object.kind = earlier.kind := by
  have atEarlier := List.getElem?_eq_getElem placed
  obtain ⟨after, atAfter, same | gone | moves⟩ := touch.object_cases atEarlier
  all_goals
    rw [found, Option.some.injEq] at atAfter
    subst atAfter
  · exact ⟨_, atEarlier, by rw [same]⟩
  · exact ⟨_, atEarlier, by rw [gone]⟩
  · obtain ⟨tid, old, pc, _, _, moved⟩ := moves
    exact ⟨_, atEarlier, moved.kept.1⟩

theorem Unshared.step_waits (unshared : Unshared state) (consistent : Consistent state)
    (touch : Touch state action next) (tid : Tid) (pc : Pc) (lock : Nat) (object : LockObject)
    (thread : next.threads[tid]? = some pc) (waits : pc.waitsOn = some lock)
    (found : next.objects[lock]? = some object) : object.kind = .mutex := by
  rcases touch.thread_cases thread with before | ⟨place, one, old, after, atPlace, was, moved, now⟩
  · have placed := consistent.placed tid pc lock before (waitsOn_target waits)
    obtain ⟨earlier, atEarlier, kind⟩ := touch.kind_before placed found
    rw [kind]
    exact unshared.waits tid pc lock earlier before waits atEarlier
  · obtain ⟨rfl, entered⟩ := moved.waitsOn waits
    rw [found, Option.some.injEq] at now
    rw [now, moved.kept.1]
    rcases entered with waited | mutex
    · exact unshared.waits tid old lock one was waited atPlace
    · exact mutex

theorem Unshared.step (unshared : Unshared state) (booked : Booked state)
    (consistent : Consistent state) (touch : Touch state action next) : Unshared next :=
  ⟨unshared.step_readers booked consistent touch, unshared.step_waits consistent touch⟩

theorem reachable_unshared (reached : Runs.Reachable system OwnerUse state) :
    Unshared state := by
  apply reached.invariant
  · rintro current ⟨threads, rfl⟩
    exact Unshared.initial threads
  · intro current action following before unshared permitted taken
    have consistent := ownerUse_consistent before
    exact unshared.step (reachable_booked before) consistent (step_touch consistent taken)

end Steps

/-! ### A failed timed wait is a wait that was woken at once -/

section Simulation

variable {state : State} {tid : Tid} {cond lock : Nat} {object : LockObject}

theorem step_of_running {action : Action} (running : state.aborted = false) :
    step state action = stepLive state action := by
  unfold step
  rw [running]
  rfl

theorem step_park (trace : BackTrace) (running : state.aborted = false)
    (thread : state.threads[tid]? = some (.condWait cond lock))
    (present : state.object? lock = some object) (owns : object.owner = some tid) :
    step state (.advance tid trace) =
      some ((state.setObject lock { object with owner := none }).setPc tid
        (.condBlocked cond lock)) := by
  have given : releaseBy object tid = some { object with owner := none } := if_pos owns
  rw [step_of_running running, stepLive, thread]
  simp only [Option.bind_some, Pc.target, present, advance, given]

theorem step_wake (running : state.aborted = false)
    (thread : state.threads[tid]? = some (.condBlocked cond lock)) :
    step state (.wake tid) = some (state.setPc tid (.condAcquiring cond lock)) := by
  rw [step_of_running running, stepLive, thread]

theorem step_retake (trace : BackTrace) (running : state.aborted = false)
    (thread : state.threads[tid]? = some (.condAcquiring cond lock))
    (present : state.object? lock = some object) (free : object.owner = none)
    (unshared : object.readers = []) :
    step state (.advance tid trace) =
      some ((state.setObject lock { object with owner := some tid }).setPc tid
        (.ofBooks lock .finish (postLock object.kind .exclusive object.lockdep))) := by
  have granted : grantTo object tid .exclusive = some { object with owner := some tid } :=
    if_pos ⟨free, unshared⟩
  rw [step_of_running running, stepLive, thread]
  simp only [Option.bind_some, Pc.target, present, advance, granted]

theorem waiting_uncounted (reached : Runs.Reachable system OwnerUse state)
    (thread : state.threads[tid]? = some (.condWait cond lock))
    (present : state.object? lock = some object) :
    object.kind = .mutex ∧ object.Uncounted tid := by
  obtain ⟨found, live⟩ := object?_eq_some.mp present
  have mutex := (reachable_unshared reached).waits tid _ lock object thread rfl found
  have exact := reachable_booked reached lock object found live mutex
  exact ⟨mutex, (Pc.exact_at rfl).mp (exact.threads tid _ thread)⟩

theorem reachable_unwind (reached : Runs.Reachable system OwnerUse state)
    (running : state.aborted = false)
    (thread : state.threads[tid]? = some (.condWait cond lock))
    (present : state.object? lock = some object) :
    Runs.Reachable system OwnerUse (Waiters.unwind state tid lock object .waitUntil) := by
  obtain ⟨found, live⟩ := object?_eq_some.mp present
  obtain ⟨mutex, uncounted⟩ := waiting_uncounted reached thread present
  have placed : lock < state.objects.length := (List.getElem?_eq_some_iff.mp found).1
  have seated : tid < state.threads.length := (List.getElem?_eq_some_iff.mp thread).1
  have parked := step_park ⟨0, []⟩ running thread present uncounted.1
  let blocked := (state.setObject lock { object with owner := none }).setPc tid
    (.condBlocked cond lock)
  have atBlocked : blocked.threads[tid]? = some (.condBlocked cond lock) :=
    List.getElem?_set_self seated
  have woken : step blocked (.wake tid) = some (blocked.setPc tid (.condAcquiring cond lock)) :=
    step_wake running atBlocked
  let returning := blocked.setPc tid (.condAcquiring cond lock)
  have atReturning : returning.threads[tid]? = some (.condAcquiring cond lock) := by
    apply List.getElem?_set_self
    change tid < (state.threads.set tid _).length
    rw [List.length_set]
    exact seated
  have free : returning.object? lock = some { object with owner := none } :=
    object?_eq_some.mpr ⟨List.getElem?_set_self placed, live⟩
  have retaken : step returning (.advance tid ⟨0, []⟩) = _ :=
    step_retake ⟨0, []⟩ running atReturning free rfl
      ((reachable_unshared reached).readers lock object found live mutex)
  have same : (returning.setObject lock { object with owner := some tid }).setPc tid
      (.ofBooks lock .finish (postLock object.kind .exclusive object.lockdep)) =
        Waiters.unwind state tid lock object .waitUntil := by
    have kept : { object with owner := some tid } = object := by
      rw [← uncounted.1]
    simp only [returning, blocked, State.setObject, State.setPc, Waiters.unwind, List.set_set,
      kept, set_same found]
  rw [← same]
  exact .next (.advance tid ⟨0, []⟩)
    (.next (.wake tid) (.next (.advance tid ⟨0, []⟩) reached trivial parked) trivial woken)
    trivial retaken

end Simulation

/-! ### Runs with failures -/

section Failures

variable {state next : Waiters} {tid : Tid} {cond lock : Nat} {object : LockObject} {code : Int}

theorem fail_cases (failed : state.step (.fail tid code) = some next) :
    state.locks.aborted = false ∧ code ≠ 0 ∧ ∃ cond lock object,
      state.locks.threads[tid]? = some (.condWait cond lock) ∧
      state.locks.object? lock = some object ∧
      next = { state with
        locks := Waiters.unwind state.locks tid lock object (state.forms tid)
        results := Function.update state.results tid code } := by
  rw [Waiters.step] at failed
  split_ifs at failed with barred
  have running : state.locks.aborted = false :=
    Bool.eq_false_iff.mpr fun aborted => barred (Or.inl aborted)
  refine ⟨running, fun zero => barred (Or.inr zero), ?_⟩
  unfold Waiters.fail at failed
  split at failed
  · rename_i cond lock thread
    obtain ⟨object, present, same⟩ := Option.map_eq_some_iff.mp failed
    exact ⟨cond, lock, object, thread, present, same.symm⟩
  · cases failed

/-- The thread that acts. -/
def WaitAction.actor : WaitAction → Option Tid
  | .base action => action.actor
  | .wait tid _ _ _ => some tid
  | .timeout tid => some tid
  | .fail tid _ => some tid

/-- Every step is one of the locks or a failure; nobody but the thread that waits
writes what it remembers, and only its waits and wake-ups do. -/
inductive Passage (state : Waiters) (action : WaitAction) (next : Waiters) : Prop
  | locks (act : Action) (taken : Locks.step state.locks act = some next.locks)
      (allowed : TimedFailures state action → OwnerUse state.locks act)
      (actor : action.actor = act.actor)
      (memory : ∀ other, (action.actor ≠ some other ∨ ∃ trace, act = .advance other trace) →
        next.forms other = state.forms other ∧ next.results other = state.results other)
  | fail {tid : Tid} {cond lock : Nat} {object : LockObject} {code : Int}
      (same : action = .fail tid code) (running : state.locks.aborted = false)
      (thread : state.locks.threads[tid]? = some (.condWait cond lock))
      (present : state.locks.object? lock = some object)
      (result : next = { state with
        locks := Waiters.unwind state.locks tid lock object (state.forms tid)
        results := Function.update state.results tid code })

theorem baseStep_passage {act : Action} (taken : state.baseStep act = some next) :
    Passage state (.base act) next := by
  have plain {after : State} (stepped : Locks.step state.locks act = some after) :
      Passage state (.base act) { state with locks := after } :=
    .locks act stepped (fun allowed => allowed) rfl (fun _ _ => ⟨rfl, rfl⟩)
  cases act with
  | wait tid cond lock => cases taken
  | wake tid =>
      obtain ⟨after, stepped, rfl⟩ := Option.map_eq_some_iff.mp taken
      refine .locks (.wake tid) stepped (fun allowed => allowed) rfl ?_
      rintro other (apart | ⟨trace, impossible⟩)
      · exact ⟨rfl, Function.update_of_ne (fun same => apart (congrArg some same.symm)) _ _⟩
      · cases impossible
  | advance tid trace =>
      rw [Waiters.baseStep] at taken
      split_ifs at taken
      obtain ⟨after, stepped, rfl⟩ := Option.map_eq_some_iff.mp taken
      exact plain stepped
  | _ =>
      obtain ⟨after, stepped, rfl⟩ := Option.map_eq_some_iff.mp taken
      exact plain stepped

theorem step_passage {action : WaitAction} (taken : state.step action = some next) :
    Passage state action next := by
  cases action with
  | base act => exact baseStep_passage taken
  | wait tid form cond lock =>
      obtain ⟨after, stepped, rfl⟩ := Option.map_eq_some_iff.mp taken
      refine .locks (.wait tid cond lock) stepped (fun allowed => allowed) rfl ?_
      rintro other (apart | ⟨trace, impossible⟩)
      · exact ⟨Function.update_of_ne (fun same => apart (congrArg some same.symm)) _ _, rfl⟩
      · cases impossible
  | timeout tid =>
      rw [Waiters.step] at taken
      split_ifs at taken
      obtain ⟨after, stepped, rfl⟩ := Option.map_eq_some_iff.mp taken
      refine .locks (.wake tid) stepped (fun _ => trivial) rfl ?_
      rintro other (apart | ⟨trace, impossible⟩)
      · exact ⟨rfl, Function.update_of_ne (fun same => apart (congrArg some same.symm)) _ _⟩
      · cases impossible
  | fail tid code =>
      obtain ⟨running, _, cond, lock, object, thread, present, result⟩ := fail_cases taken
      exact .fail rfl running thread present result

theorem reachable_locks (reached : Runs.Reachable waiters TimedFailures state) :
    Runs.Reachable system OwnerUse state.locks := by
  induction reached with
  | start initial =>
      obtain ⟨threads, rfl⟩ := initial
      exact .start ⟨threads, rfl⟩
  | @next current following action _ permitted taken ih =>
      cases step_passage taken with
      | locks act stepped allowed _ _ => exact .next act ih (allowed permitted) stepped
      | @fail tid cond lock object code same running thread present result =>
          subst same result
          have timed : current.forms tid = .waitUntil := permitted
          rw [timed]
          exact reachable_unwind ih running thread present

end Failures

/-! ### The rest of a failed timed wait -/

section Rest

variable {state next : State} {action : Action} {tid : Tid} {lock : Nat} {object : LockObject}
  {pc : Pc}

theorem Effect.target_live (effect : Effect state action next)
    (thread : state.threads[tid]? = some pc) (target : pc.target = some lock)
    (found : state.objects[lock]? = some object) (live : object.live = true) :
    ∃ after, next.objects[lock]? = some after ∧ after.live = true := by
  have retired {place : Nat} {gone : LockObject} (atPlace : state.objects[place]? = some gone)
      (untouched : ∀ (other : Tid) (pc : Pc), state.threads[other]? = some pc →
        pc.target ≠ some place) :
      ∃ after, (state.objects.set place { gone with live := false })[lock]? = some after ∧
        after.live = true := by
    have apart : place ≠ lock := by
      rintro rfl
      exact untouched tid pc thread target
    exact ⟨object, by rw [List.getElem?_set_ne apart, found], live⟩
  have appended (new : LockObject) : ∃ after, (state.objects ++ [new])[lock]? = some after ∧
      after.live = true := by
    refine ⟨object, ?_, live⟩
    rw [List.getElem?_append_left (List.getElem?_eq_some_iff.mp found).1]
    exact found
  cases effect with
  | control waiters flag => exact ⟨object, found, live⟩
  | @update waiters actor place before after tables old pc atPlace thread update =>
      by_cases same : place = lock
      · subst same
        rw [atPlace, Option.some.injEq] at found
        subst found
        exact ⟨after, getElem?_set_found atPlace,
          update.tag.live.trans live⟩
      · exact ⟨object, (List.getElem?_set_ne same).trans found, live⟩
  | createUnchecked kind name => exact appended _
  | create same registered => exact appended _
  | createFailed failed => exact ⟨object, found, live⟩
  | destroyUnchecked atPlace unchecked unowned untouched => exact retired atPlace untouched
  | destroy atPlace checked atId unowned untouched => exact retired atPlace untouched

theorem book_step {first : Book} {rest : List Book} {following : After}
    (thread : state.threads[tid]? = some (.book lock first rest following))
    (actor : action.actor = some tid) (taken : step state action = some next) :
    ∃ trace object, action = .advance tid trace ∧ state.object? lock = some object ∧
      next = advanceBook state tid lock object first rest following := by
  have busy (place : Nat) : state.callee? tid place = none := by
    unfold State.callee?
    rw [if_neg]
    rw [thread]
    nofun
  unfold step at taken
  split_ifs at taken
  cases action with
  | create kind name lockdep => cases actor
  | destroy place => cases actor
  | wake one =>
      cases actor
      rw [stepLive, thread] at taken
      cases taken
  | deadlockError one =>
      cases actor
      rw [stepLive, thread] at taken
      cases taken
  | advance one trace =>
      cases actor
      obtain ⟨pc, atPc, continued⟩ := Option.bind_eq_some_iff.mp taken
      obtain ⟨object, present, advanced⟩ := Option.bind_eq_some_iff.mp continued
      rw [thread, Option.some.injEq] at atPc
      subst atPc
      refine ⟨trace, object, rfl, present, ?_⟩
      rw [advance, Option.some.injEq] at advanced
      exact advanced.symm
  | _ =>
      cases actor
      rw [stepLive, busy] at taken
      cases taken

end Rest

/-- The rest of a `_wait_until` of which the pthread call failed: `_post_lock` by
the owner, and then the switch over the error. -/
structure Restoring (tid : Tid) (lock : Nat) (code : Int) (current : Waiters) : Prop where
  reachable : Runs.Reachable system OwnerUse current.locks
  form : current.forms tid = .waitUntil
  result : current.results tid = code
  owned : ∃ object, current.locks.object? lock = some object ∧ object.kind = .mutex ∧
    object.owner = some tid
  place : current.locks.threads[tid]? = some .idle ∨
    ∃ first rest, current.locks.threads[tid]? = some (.book lock first rest .finish)

section Restoration

variable {current following : Waiters} {tid : Tid} {lock : Nat} {code : Int}

theorem Restoring.booking (restoring : Restoring tid lock code current) {object : LockObject}
    {first : Book} {rest : List Book} (present : current.locks.object? lock = some object)
    (thread : current.locks.threads[tid]? = some (.book lock first rest .finish)) :
    object.Entering tid first rest := by
  obtain ⟨owned, atOwned, mutex, _⟩ := restoring.owned
  rw [present, Option.some.injEq] at atOwned
  subst atOwned
  obtain ⟨found, live⟩ := object?_eq_some.mp present
  exact (Pc.exact_at rfl).mp
    ((reachable_booked restoring.reachable lock object found live mutex).threads tid _ thread)

theorem Restoring.advance (restoring : Restoring tid lock code current) {first : Book}
    {rest : List Book} {object : LockObject}
    (present : current.locks.object? lock = some object)
    (thread : current.locks.threads[tid]? = some (.book lock first rest .finish))
    (reachable : Runs.Reachable system OwnerUse following.locks)
    (result : following.locks = advanceBook current.locks tid lock object first rest .finish)
    (memory : following.forms tid = current.forms tid ∧
      following.results tid = current.results tid) :
    Restoring tid lock code following := by
  obtain ⟨owned, atOwned, mutex, owner⟩ := restoring.owned
  rw [present, Option.some.injEq] at atOwned
  subst atOwned
  obtain ⟨found, live⟩ := object?_eq_some.mp present
  obtain ⟨changed, remaining, ran, _⟩ :=
    entering_handled lock (restoring.booking present thread)
  obtain ⟨tag, sameOwner, _⟩ := Book.run_spec ran
  have moved : following.locks = (current.locks.setObject lock changed).setPc tid
      (.ofBooks lock .finish remaining) := by
    rw [result, advanceBook, ran]
  have atLock : following.locks.objects[lock]? = some changed := by
    rw [moved]
    exact getElem?_set_found found
  have atThread : following.locks.threads[tid]? = some (.ofBooks lock .finish remaining) := by
    rw [moved]
    exact getElem?_set_found thread
  refine ⟨reachable, memory.1.trans restoring.form, memory.2.trans restoring.result,
    ⟨changed, object?_eq_some.mpr ⟨atLock, tag.live.trans live⟩, (Book.run_kind ran).trans mutex,
      sameOwner.trans owner⟩, ?_⟩
  cases remaining with
  | nil => exact Or.inl atThread
  | cons later others => exact Or.inr ⟨later, others, atThread⟩

theorem unwind_objects (state : State) (object : LockObject) (form : WaitForm) :
    (Waiters.unwind state tid lock object form).objects = state.objects := by
  cases form with
  | wait => rfl
  | waitUntil => rfl

theorem unwind_bystander (state : State) (object : LockObject) (form : WaitForm) {other : Tid}
    (apart : other ≠ tid) :
    (Waiters.unwind state other lock object form).threads[tid]? = state.threads[tid]? := by
  cases form with
  | wait => exact List.getElem?_set_ne apart
  | waitUntil => exact List.getElem?_set_ne apart

/-- Whatever the others do, the rest of the wait stays as it is until its thread
goes on. -/
theorem Restoring.step (restoring : Restoring tid lock code current) {action : WaitAction}
    (permitted : TimedFailures current action)
    (busy : current.locks.threads[tid]? ≠ some .idle)
    (taken : current.step action = some following) : Restoring tid lock code following := by
  obtain ⟨first, rest, thread⟩ := restoring.place.resolve_left busy
  obtain ⟨object, present, mutex, owner⟩ := restoring.owned
  obtain ⟨found, live⟩ := object?_eq_some.mp present
  cases step_passage taken with
  | locks act stepped allowed actor memory =>
      have reachable := restoring.reachable.next act (allowed permitted) stepped
      by_cases own : act.actor = some tid
      · obtain ⟨trace, target, rfl, atTarget, result⟩ := book_step thread own stepped
        rw [present, Option.some.injEq] at atTarget
        subst atTarget
        exact restoring.advance present thread reachable result (memory tid (Or.inr ⟨trace, rfl⟩))
      · have consistent := ownerUse_consistent restoring.reachable
        obtain ⟨still, kept⟩ := (step_touch consistent stepped).bystander own
        obtain ⟨after, atAfter, kind, sameOwner, _⟩ := kept lock object found
        have effect := step_effect consistent (allowed permitted).destroysUnused stepped
        obtain ⟨alive, atAlive, liveAfter⟩ := effect.target_live thread rfl found live
        rw [atAfter, Option.some.injEq] at atAlive
        subst atAlive
        obtain ⟨sameForm, sameResult⟩ := memory tid (Or.inl (actor ▸ own))
        exact ⟨reachable, sameForm.trans restoring.form, sameResult.trans restoring.result,
          ⟨after, object?_eq_some.mpr ⟨atAfter, liveAfter⟩, kind.trans mutex,
            sameOwner.mpr owner⟩, Or.inr ⟨first, rest, still.trans thread⟩⟩
  | @fail other cond place target failure same running waiting atTarget result =>
      subst same result
      have apart : other ≠ tid := by
        rintro rfl
        rw [thread] at waiting
        cases waiting
      have timed : current.forms other = .waitUntil := permitted
      refine ⟨?_, restoring.form, ?_, ⟨object, ?_, mutex, owner⟩, Or.inr ⟨first, rest, ?_⟩⟩
      · rw [timed]
        exact reachable_unwind restoring.reachable running waiting atTarget
      · exact (Function.update_of_ne (Ne.symm apart) _ _).trans restoring.result
      · apply object?_eq_some.mpr
        rw [unwind_objects]
        exact ⟨found, live⟩
      · exact (unwind_bystander _ _ _ apart).trans thread

theorem Restoring.running (restoring : Restoring tid lock code current)
    (running : current.locks.aborted = false) {first : Book} {rest : List Book}
    (thread : current.locks.threads[tid]? = some (.book lock first rest .finish))
    (trace : BackTrace) :
    ∃ following, current.step (.base (.advance tid trace)) = some following ∧
      following.locks.aborted = false := by
  obtain ⟨object, present, _, _⟩ := restoring.owned
  obtain ⟨changed, remaining, ran, _⟩ :=
    entering_handled lock (restoring.booking present thread)
  have free : current.refused tid = false := by
    unfold Waiters.refused
    rw [thread]
  have stepped : Locks.step current.locks (.advance tid trace) =
      some (advanceBook current.locks tid lock object first rest .finish) := by
    rw [step_of_running running, stepLive, thread]
    simp only [Option.bind_some, Pc.target, present, Locks.advance]
  refine ⟨{ current with locks := advanceBook current.locks tid lock object first rest .finish },
    ?_, ?_⟩
  · rw [Waiters.step, Waiters.baseStep, free, stepped]
    rfl
  · rw [advanceBook, ran]
    exact running

theorem Restoring.restored (restoring : Restoring tid lock code current)
    (idle : current.locks.threads[tid]? = some .idle) :
    ∃ object, current.locks.object? lock = some object ∧ object.owner = some tid ∧
      object.lockedCount = 1 ∧ object.lockedBy = some tid := by
  obtain ⟨object, present, mutex, owner⟩ := restoring.owned
  obtain ⟨found, live⟩ := object?_eq_some.mp present
  have exact := reachable_booked restoring.reachable lock object found live mutex
  have settled := Pc.exact_idle.mp (exact.threads tid .idle idle)
  exact ⟨object, present, owner, settled owner⟩

end Restoration

/-! ### Every failure -/

/-- Everybody goes on until the thread has left its call. -/
def UntilReturn (tid : Tid) (current : Waiters) (action : WaitAction) : Prop :=
  TimedFailures current action ∧ current.locks.threads[tid]? ≠ some .idle

instance (tid : Tid) (current : Waiters) (action : WaitAction) :
    Decidable (UntilReturn tid current action) :=
  inferInstanceAs (Decidable (_ ∧ _))

section Theorem

variable {state next : Waiters} {tid : Tid} {cond lock : Nat} {code : Int}

theorem restoring_after_fail (reached : Runs.Reachable waiters TimedFailures state)
    (waiting : state.locks.threads[tid]? = some (.condWait cond lock))
    (timed : state.forms tid = .waitUntil) (failed : state.step (.fail tid code) = some next) :
    Restoring tid lock code next := by
  obtain ⟨running, _, _, _, object, thread, present, rfl⟩ := fail_cases failed
  rw [waiting, Option.some.injEq, Pc.condWait.injEq] at thread
  obtain ⟨rfl, rfl⟩ := thread
  have reachable := reachable_locks reached
  obtain ⟨mutex, uncounted⟩ := waiting_uncounted reachable waiting present
  refine ⟨?_, timed, Function.update_self _ _ _, ⟨object, ?_, mutex, uncounted.1⟩, Or.inr ?_⟩
  · rw [timed]
    exact reachable_unwind reachable running waiting present
  · apply object?_eq_some.mpr
    rw [unwind_objects]
    exact object?_eq_some.mp present
  · rw [timed]
    refine ⟨.assertCount 0, [.setLockedBy, .addCount], ?_⟩
    have books : Pc.ofBooks lock .finish (postLock object.kind .exclusive object.lockdep) =
        .book lock (.assertCount 0) [.setLockedBy, .addCount] .finish := by
      rw [mutex]
      rfl
    rw [← books]
    exact getElem?_set_found waiting

theorem untilReturn_idle {final : Waiters} (idle : next.locks.threads[tid]? = some .idle)
    (rest : Runs.Reachable (waiters.after next) (UntilReturn tid) final) : final = next := by
  induction rest with
  | start initial => exact initial
  | next action _ permitted _ ih => exact absurd (ih ▸ idle) permitted.2

/-- Whether the mutex is in order after a failed wait depends on the function that
was called, and on nothing else: not on the error, and not on the others. -/
theorem failed_wait_restores_iff (reached : Runs.Reachable waiters TimedFailures state)
    (waiting : state.locks.threads[tid]? = some (.condWait cond lock))
    (untimed : state.forms tid = .waitUntil → code ≠ etimedout)
    (failed : state.step (.fail tid code) = some next) :
    (∀ middle trace, Runs.Reachable (waiters.after next) (UntilReturn tid) middle →
        middle.locks.aborted = false → middle.locks.threads[tid]? = some .idle ∨
          ∃ following, middle.step (.base (.advance tid trace)) = some following ∧
            following.locks.aborted = false) ∧
      ∀ final, Runs.Reachable (waiters.after next) (UntilReturn tid) final →
        final.locks.threads[tid]? = some .idle →
        (final.forms tid).exit (final.results tid) = .threw code ∧
          ∃ object, final.locks.object? lock = some object ∧ object.owner = some tid ∧
            ((object.lockedCount = 1 ∧ object.lockedBy = some tid) ↔
              state.forms tid = .waitUntil) := by
  obtain ⟨running, nonzero, _, _, object, thread, present, result⟩ := fail_cases failed
  rw [waiting, Option.some.injEq, Pc.condWait.injEq] at thread
  obtain ⟨rfl, rfl⟩ := thread
  cases form : state.forms tid with
  | wait =>
      rw [form] at result
      have idle : next.locks.threads[tid]? = some .idle := by
        rw [result]
        exact getElem?_set_found waiting
      refine ⟨?_, ?_⟩
      · intro middle trace rest _
        exact Or.inl (untilReturn_idle idle rest ▸ idle)
      · intro final rest _
        rw [untilReturn_idle idle rest, result]
        obtain ⟨_, uncounted⟩ := waiting_uncounted (reachable_locks reached) waiting present
        refine ⟨?_, object, present, uncounted.1, ?_, nofun⟩
        · change (state.forms tid).exit (Function.update state.results tid code tid) = _
          rw [form, Function.update_self]
          exact if_pos nonzero
        · rintro ⟨counted, _⟩
          rw [uncounted.2] at counted
          cases counted
  | waitUntil =>
      have restoring {current : Waiters}
          (rest : Runs.Reachable (waiters.after next) (UntilReturn tid) current) :
          Restoring tid lock code current := by
        apply rest.invariant
        · rintro first rfl
          exact restoring_after_fail reached waiting form failed
        · intro middle action following _ before permitted taken
          exact before.step permitted.1 permitted.2 taken
      refine ⟨?_, ?_⟩
      · intro middle trace rest alive
        rcases (restoring rest).place with idle | ⟨first, books, busy⟩
        · exact Or.inl idle
        · exact Or.inr ((restoring rest).running alive busy trace)
      · intro final rest idle
        have last := restoring rest
        obtain ⟨owned, atOwned, owner, counted⟩ := last.restored idle
        refine ⟨?_, owned, atOwned, owner, fun _ => rfl, fun _ => counted⟩
        rw [last.form, last.result]
        exact (if_neg nonzero).trans (if_neg (untimed form))

end Theorem

def waitEntryRun (form : WaitForm) : List WaitAction :=
  [.base (.create .mutex [120] false), .base (.lock 0 0 ⟨0, []⟩)] ++
    List.replicate 4 (.base (.advance 0 ⟨0, []⟩)) ++ [.wait 0 form 0 0] ++
    List.replicate 4 (.base (.advance 0 ⟨0, []⟩))

/-- A timed wait for an invalid time, which is `EINVAL`. -/
theorem failed_wait_restores_invalid_time :
    ∃ (state next final : Waiters) (object : LockObject),
      Runs.Reachable waiters TimedFailures state ∧ state.step (.fail 0 22) = some next ∧
      Runs.Reachable (waiters.after next) (UntilReturn 0) final ∧
      (final.forms 0).exit (final.results 0) = .threw 22 ∧
      final.locks.object? 0 = some object ∧ object.lockedCount = 1 ∧
      object.lockedBy = some 0 := by
  obtain ⟨state, reached, passed⟩ := Runs.exists_of_replay TimedFailures
    (show waiters.initial (Waiters.initial 1) from ⟨1, rfl⟩) (waitEntryRun .waitUntil)
    (fun state : Waiters => decide (state.locks.threads[0]? = some (Pc.condWait 0 0) ∧
      state.forms 0 = .waitUntil) && (state.step (.fail 0 22)).any fun next =>
        (Runs.replay (waiters.after next) (UntilReturn 0) next
          (List.replicate 3 (.base (.advance 0 ⟨0, []⟩)))).any fun final =>
            decide (final.locks.threads[0]? = some Pc.idle)) (by decide +kernel)
  obtain ⟨place, ended⟩ := Bool.and_eq_true_iff.mp passed
  obtain ⟨waiting, timed⟩ := of_decide_eq_true place
  obtain ⟨next, failed, finished⟩ := (Option.any_eq_true _ _).mp ended
  obtain ⟨final, replayed, idle⟩ := (Option.any_eq_true _ _).mp finished
  have rest := Runs.replay_reachable (.start rfl) replayed
  obtain ⟨threw, object, present, _, counted⟩ :=
    (failed_wait_restores_iff reached waiting (fun _ => by decide) failed).2 final rest
      (of_decide_eq_true idle)
  exact ⟨state, next, final, object, reached, failed, rest, threw, present, counted.mpr timed⟩

/-- A plain wait of the owner fails with `EINVAL`: the call throws, the counter is
zero, and the assertion in the owner's `unlock` ends the process. -/
theorem failed_wait_loses_count :
    ∃ state, Runs.Reachable waiters TimedFailures state ∧
      state.locks.threads[0]? = some (.condWait 0 0) ∧
      ∃ next object, state.step (.fail 0 22) = some next ∧
        next.locks.threads[0]? = some .idle ∧
        (next.forms 0).exit (next.results 0) = .threw 22 ∧
        next.locks.object? 0 = some object ∧ object.owner = some 0 ∧ object.lockedCount = 0 ∧
        ∃ unlocking failed, next.step (.base (.unlock 0 0)) = some unlocking ∧
          unlocking.step (.base (.advance 0 ⟨0, []⟩)) = some failed ∧
          failed.locks.aborted = true := by
  obtain ⟨state, reached, passed⟩ := Runs.exists_of_replay TimedFailures
    (show waiters.initial (Waiters.initial 1) from ⟨1, rfl⟩) (waitEntryRun .wait)
    (fun state : Waiters => decide (state.locks.threads[0]? = some (Pc.condWait 0 0)) &&
      (state.step (.fail 0 22)).any fun next =>
        (next.locks.object? 0).any fun object =>
          decide (next.locks.threads[0]? = some Pc.idle ∧
            (next.forms 0).exit (next.results 0) = .threw 22 ∧ object.owner = some 0 ∧
            object.lockedCount = 0) &&
          (next.step (.base (.unlock 0 0))).any fun unlocking =>
            (unlocking.step (.base (.advance 0 ⟨0, []⟩))).any fun failed =>
              failed.locks.aborted) (by decide +kernel)
  obtain ⟨place, ended⟩ := Bool.and_eq_true_iff.mp passed
  obtain ⟨next, failed, rest⟩ := (Option.any_eq_true _ _).mp ended
  obtain ⟨object, present, rest⟩ := (Option.any_eq_true _ _).mp rest
  obtain ⟨left, rest⟩ := Bool.and_eq_true_iff.mp rest
  obtain ⟨idle, threw, owner, count⟩ := of_decide_eq_true left
  obtain ⟨unlocking, unlocked, rest⟩ := (Option.any_eq_true _ _).mp rest
  obtain ⟨stopped, asserted, aborted⟩ := (Option.any_eq_true _ _).mp rest
  exact ⟨state, reached, of_decide_eq_true place, next, object, failed, idle, threw, present,
    owner, count, unlocking, stopped, unlocked, asserted, aborted⟩

end BlueThread.Locks
