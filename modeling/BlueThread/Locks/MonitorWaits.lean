/-
A change of the data finds its waiters: `notify_one` and `notify_all`.

A thread tests its predicate with the mutex and gives the mutex up in the same step as it
falls asleep, so a change comes before the test or after the sleep has begun; and who makes
the change has the mutex until it has notified. So a thread that sleeps and is not called
has no reason to be awake, and if nothing moves any more then every predicate that is
waited for is false.
-/

import BlueThread.Locks.FailedWaits
import BlueThread.Locks.Monitor

namespace BlueThread.Locks

open Lockdep

universe u

def After.falling : After → Bool
  | .condWait _ => true
  | .finish | .willUnlock => false

def Pc.falling : Pc → Bool
  | .book _ _ _ after => after.falling
  | .condWait _ _ | .condBlocked _ _ => true
  | _ => false

theorem Pc.falling_ofBooks (lock : Nat) (after : After) (books : List Book) :
    (Pc.ofBooks lock after books).falling = after.falling := by
  cases books with
  | cons next rest => rfl
  | nil =>
      cases after with
      | finish => rfl
      | willUnlock => rfl
      | condWait cond => rfl

theorem LockMove.falling {action : Action} {tid : Tid} {lock : Nat} {object after : LockObject}
    {old pc : Pc} (moved : LockMove action tid lock object old after pc)
    (falls : pc.falling = true) : old.falling = true ∨ ∃ cond, action = .wait tid cond lock := by
  cases moved with
  | call mutex => cases falls
  | callShared mode shared => cases falls
  | block => cases falls
  | refuse mode => cases falls
  | grant wants granted goes =>
      rcases goes with rfl | rfl
      · cases falls
      · rw [Pc.falling_ofBooks] at falls
        cases falls
  | settle mode =>
      rw [Pc.falling_ofBooks] at falls
      cases falls
  | book ran =>
      rw [Pc.falling_ofBooks] at falls
      exact Or.inl falls
  | leave leaves =>
      rw [Pc.falling_ofBooks] at falls
      cases leaves with
      | unlock => cases falls
      | unlockShared shared => cases falls
      | wait cond mutex => exact Or.inr ⟨cond, rfl⟩
  | unrecord => cases falls
  | unlock released => cases falls
  | park cond released => exact Or.inl rfl
  | fail inside failed => cases falls
  | wake cond => cases falls

namespace Monitor

variable {content : Type u}

def Announcing (monitor : Monitor content) : Prop :=
  ∃ tid visit, monitor.locks.threads[tid]? = some .idle ∧ monitor.stages tid = .notifying visit

/-- Why a thread may sleep: it is called already, or its predicate fails, or it will be
called. -/
def Excused (monitor : Monitor content) (tid : Tid) (visit : Visit content) : Prop :=
  monitor.signalled tid = true ∨ visit.pred monitor.data = false ∨ monitor.Announcing

/-- Blocked, and not reached by a notification. -/
def Unheard (monitor : Monitor content) (tid : Tid) : Prop :=
  monitor.blocked tid = true ∧ monitor.signalled tid = false

end Monitor

/-- A change is announced by `notify_all`, or by a `notify_one` that reaches the only
waiter. -/
def Announces {content : Type u} (monitor : Monitor content) : MonitorAction content → Prop
  | .proceed tid _ chosen =>
      match monitor.stages tid with
      | .notifying visit => visit.all = true ∨
          ∀ other < monitor.locks.threads.length, monitor.Unheard other → other = chosen
      | _ => True
  | _ => True

instance {content : Type u} (monitor : Monitor content) (tid : Tid) :
    Decidable (monitor.Unheard tid) :=
  inferInstanceAs (Decidable (_ ∧ _))

instance {content : Type u} (monitor : Monitor content) (action : MonitorAction content) :
    Decidable (Announces monitor action) := by
  unfold Announces
  split
  · split <;> infer_instance
  · infer_instance

def Attentive {content : Type u} (monitor : Monitor content) : Prop :=
  ∀ (tid : Tid) (pc : Pc), monitor.locks.threads[tid]? = some pc → pc.falling = true →
    ∃ visit, monitor.stages tid = .woken visit ∧ monitor.Excused tid visit

section Wakeups

variable {content : Type u} {start : content} {monitor next : Monitor content}
  {object : LockObject} {tid : Tid}

theorem Attentive.act (attentive : Attentive monitor)
    (mine : ∀ pc : Pc, next.locks.threads[tid]? = some pc → pc.falling = true →
      ∃ visit, next.stages tid = .woken visit ∧ next.Excused tid visit)
    (others : ∀ one, one ≠ tid →
      next.locks.threads[one]? = monitor.locks.threads[one]? ∧
        next.stages one = monitor.stages one)
    (kept : ∀ (one : Tid) (pc : Pc), one ≠ tid → monitor.locks.threads[one]? = some pc →
      pc.falling = true → ∀ visit, monitor.Excused one visit → next.Excused one visit) :
    Attentive next := by
  intro one pc atOne falls
  by_cases same : one = tid
  · subst same
    exact mine pc atOne falls
  · obtain ⟨still, stage⟩ := others one same
    rw [still] at atOne
    obtain ⟨visit, woken, excused⟩ := attentive one pc atOne falls
    exact ⟨visit, stage.trans woken, kept one pc same atOne falls visit excused⟩

theorem announcing_kept (quiet : ∀ visit, monitor.stages tid ≠ .notifying visit)
    (others : ∀ one, one ≠ tid →
      next.locks.threads[one]? = monitor.locks.threads[one]? ∧
        next.stages one = monitor.stages one)
    (announcing : monitor.Announcing) : next.Announcing := by
  obtain ⟨one, visit, idle, stage⟩ := announcing
  have apart : one ≠ tid := by
    rintro rfl
    exact quiet visit stage
  obtain ⟨still, same⟩ := others one apart
  exact ⟨one, visit, still.trans idle, same.trans stage⟩

theorem goTo_others (stage : Stage content) (one : Tid) (apart : one ≠ tid) :
    (monitor.goTo tid stage).stages one = monitor.stages one :=
  Function.update_of_ne apart ..

theorem Guarded.others (guarded : Guarded start monitor object) {action : Action} {locks : State}
    (acts : action.actor = some tid) (taken : Locks.step monitor.locks action = some locks)
    (one : Tid) (apart : one ≠ tid) : locks.threads[one]? = monitor.locks.threads[one]? := by
  apply (step_touch (ownerUse_consistent guarded.reached) taken).stands
  rw [acts]
  exact fun equal => apart (Option.some.inj equal).symm

theorem Guarded.falling (guarded : Guarded start monitor object) {action : Action} {locks : State}
    {pc : Pc} (taken : Locks.step monitor.locks action = some locks)
    (thread : locks.threads[tid]? = some pc) (falls : pc.falling = true)
    (notWait : ∀ cond lock, action ≠ .wait tid cond lock) :
    ∃ old, monitor.locks.threads[tid]? = some old ∧ old.falling = true := by
  rcases (step_touch (ownerUse_consistent guarded.reached) taken).thread_cases thread with
    same | ⟨lock, _, old, _, _, before, moved, _⟩
  · exact ⟨pc, same, falls⟩
  · rcases moved.falling falls with fell | ⟨cond, waits⟩
    · exact ⟨old, before, fell⟩
    · exact absurd waits (notWait cond lock)

theorem Monitor.Excused.kept {one : Tid} {visit : Visit content}
    (excused : monitor.Excused one visit)
    (signalled : monitor.signalled one = true → next.signalled one = true)
    (data : next.data = monitor.data) (announcing : monitor.Announcing → next.Announcing) :
    next.Excused one visit := by
  rcases excused with called | fails | later
  · exact Or.inl (signalled called)
  · exact Or.inr (Or.inl (data ▸ fails))
  · exact Or.inr (Or.inr (announcing later))

theorem Attentive.enter {action : Action} {stage : Stage content} (attentive : Attentive monitor)
    (guarded : Guarded start monitor object) (acts : action.actor = some tid)
    (notWait : ∀ cond lock, action ≠ .wait tid cond lock)
    (idle : monitor.locks.threads[tid]? = some .idle)
    (quiet : ∀ visit, monitor.stages tid ≠ .notifying visit)
    (taken : monitor.enter tid stage action = some next) : Attentive next := by
  obtain ⟨locks, called, rfl⟩ := Option.map_eq_some_iff.mp taken
  have others (one : Tid) (apart : one ≠ tid) :
      locks.threads[one]? = monitor.locks.threads[one]? ∧
        (monitor.goTo tid stage).stages one = monitor.stages one :=
    ⟨guarded.others acts called one apart, goTo_others stage one apart⟩
  refine attentive.act ?_ others ?_
  · intro pc thread falls
    obtain ⟨old, before, fell⟩ := guarded.falling called thread falls notWait
    cases idle.symm.trans before
    cases fell
  · intro one _pc apart _thread _falls visit excused
    exact excused.kept id rfl (announcing_kept quiet others)

theorem Attentive.inner {action : Action} (attentive : Attentive monitor)
    (guarded : Guarded start monitor object) (acts : action.actor = some tid)
    (notWait : ∀ cond lock, action ≠ .wait tid cond lock)
    (busy : monitor.locks.threads[tid]? = some .idle → stepLive monitor.locks action = none)
    (taken : monitor.progress action = some next) : Attentive next := by
  obtain ⟨locks, called, rfl⟩ := Option.map_eq_some_iff.mp taken
  have others (one : Tid) (apart : one ≠ tid) :
      locks.threads[one]? = monitor.locks.threads[one]? ∧
        monitor.stages one = monitor.stages one :=
    ⟨guarded.others acts called one apart, rfl⟩
  have announcing : monitor.Announcing → Monitor.Announcing { monitor with locks := locks } := by
    rintro ⟨one, visit, idle, stage⟩
    have apart : one ≠ tid := by
      rintro rfl
      have live := guarded.pool.stepLive called
      rw [busy idle] at live
      cases live
    exact ⟨one, visit, (others one apart).1.trans idle, stage⟩
  refine attentive.act ?_ others ?_
  · intro pc thread falls
    obtain ⟨old, before, fell⟩ := guarded.falling called thread falls notWait
    obtain ⟨visit, woken, excused⟩ := attentive tid old before fell
    exact ⟨visit, woken, excused.kept id rfl announcing⟩
  · intro one _pc _apart _thread _falls visit excused
    exact excused.kept id rfl announcing

theorem Attentive.compute {stage : Stage content} {after : content} {signalled : Tid → Bool}
    {written : List (content → content)} (attentive : Attentive monitor)
    (idle : monitor.locks.threads[tid]? = some .idle)
    (kept : ∀ (one : Tid) (pc : Pc), one ≠ tid → monitor.locks.threads[one]? = some pc →
      pc.falling = true → ∀ visit, monitor.Excused one visit →
        Monitor.Excused
          { monitor.goTo tid stage with
            data := after
            signalled := signalled
            written := written } one visit) :
    Attentive
      { monitor.goTo tid stage with
        data := after
        signalled := signalled
        written := written } := by
  refine attentive.act ?_ (fun one apart => ⟨rfl, goTo_others stage one apart⟩) kept
  intro pc thread falls
  cases idle.symm.trans thread
  cases falls

theorem Attentive.goTo (attentive : Attentive monitor) (stage : Stage content)
    (idle : monitor.locks.threads[tid]? = some .idle)
    (quiet : ∀ visit, monitor.stages tid ≠ .notifying visit) :
    Attentive (monitor.goTo tid stage) := by
  apply attentive.compute idle
  intro one _pc _apart _thread _falls visit excused
  exact excused.kept id rfl
    (announcing_kept quiet fun one apart => ⟨rfl, goTo_others stage one apart⟩)

theorem Guarded.place (guarded : Guarded start monitor object) {pc : Pc} {lock : Nat}
    (thread : monitor.locks.threads[tid]? = some pc) (target : pc.target = some lock) :
    lock = 0 := by
  have inside := (ownerUse_consistent guarded.reached).placed tid pc lock thread target
  rw [guarded.pool.objects] at inside
  exact Nat.lt_one_iff.mp inside

theorem Guarded.inside (guarded : Guarded start monitor object) {pc : Pc} {lock : Nat}
    (thread : monitor.locks.threads[tid]? = some pc) (target : pc.target = some lock) :
    pc.Inside tid object := by
  have known := guarded.exact.threads tid pc thread
  rw [guarded.place thread target] at target
  exact (Pc.exact_at target).mp known

theorem Guarded.falling_owner (guarded : Guarded start monitor object) {pc : Pc}
    (thread : monitor.locks.threads[tid]? = some pc) (falls : pc.falling = true) :
    monitor.blocked tid = true ∨ object.owner = some tid := by
  cases pc with
  | book lock book rest after =>
      have inside := guarded.inside thread rfl
      cases after with
      | finish => cases falls
      | willUnlock => cases falls
      | condWait cond => exact Or.inr inside.1
  | condWait cond lock => exact Or.inr (guarded.inside thread rfl).1
  | condBlocked cond lock =>
      left
      rw [Monitor.blocked, thread]
  | _ => cases falls

theorem Attentive.proceed {timedOut : Bool} {chosen : Tid} (attentive : Attentive monitor)
    (guarded : Guarded start monitor object)
    (announces : Announces monitor (.proceed tid timedOut chosen))
    (idle : monitor.locks.threads[tid]? = some .idle)
    (taken : monitor.proceed tid timedOut chosen = some next) : Attentive next := by
  have knows := guarded.knows tid .idle idle
  rw [Monitor.proceed] at taken
  cases stage : monitor.stages tid with
  | outside =>
      rw [stage] at taken
      cases taken
  | testing visit =>
      rw [stage] at taken
      cases taken
      apply attentive.goTo _ idle
      intro _ notifies
      cases stage.symm.trans notifies
  | calling visit =>
      rw [stage] at taken knows
      obtain ⟨waiting, entered, rfl⟩ := Option.map_eq_some_iff.mp taken
      obtain ⟨locks, called, rfl⟩ := Option.map_eq_some_iff.mp entered
      have others (one : Tid) (apart : one ≠ tid) :
          locks.threads[one]? = monitor.locks.threads[one]? ∧
            (monitor.goTo tid (.woken visit)).stages one = monitor.stages one :=
        ⟨guarded.others rfl called one apart, goTo_others _ one apart⟩
      refine attentive.act ?_ others ?_
      · intro pc thread falls
        exact ⟨visit, Function.update_self .., Or.inr (Or.inl knows)⟩
      · intro one pc apart thread falls other excused
        refine excused.kept ?_ rfl (announcing_kept ?_ others)
        · intro signalled
          exact (Function.update_of_ne apart ..).trans signalled
        · intro _ notifies
          cases stage.symm.trans notifies
  | woken visit =>
      rw [stage] at taken
      cases taken
      apply attentive.goTo _ idle
      intro _ notifies
      cases stage.symm.trans notifies
  | lastTest visit =>
      rw [stage] at taken
      cases taken
      apply attentive.goTo _ idle
      intro _ notifies
      cases stage.symm.trans notifies
  | reading visit =>
      rw [stage] at taken
      cases taken
      apply attentive.goTo _ idle
      intro _ notifies
      cases stage.symm.trans notifies
  | writing visit copy =>
      rw [stage] at taken
      cases taken
      apply attentive.compute idle
      intro one _pc _apart _thread _falls other _excused
      exact Or.inr (Or.inr ⟨tid, visit, idle, Function.update_self ..⟩)
  | notifying visit =>
      have computes : (monitor.stages tid).computing = true := by
        rw [stage]
        rfl
      have owns := guarded.owner idle computes
      rw [stage] at taken
      cases taken
      rw [Monitor.notify, if_pos (Or.inr (guarded.isLocked idle owns).2)]
      apply attentive.compute idle
      intro one pc apart thread falls other excused
      by_cases heard : monitor.signalled one = true
      · exact Or.inl (Bool.or_eq_true_iff.mpr (Or.inl heard))
      · rcases guarded.falling_owner thread falls with blocked | theirs
        · left
          rw [Bool.not_eq_true] at heard
          have reaches : (visit.all || one == chosen) = true := by
            have reached := announces
            rw [Announces, stage] at reached
            rcases reached with all | only
            · rw [all, Bool.true_or]
            · rw [only one (List.getElem?_eq_some_iff.mp thread).1 ⟨blocked, heard⟩,
                beq_self_eq_true, Bool.or_true]
          dsimp only
          rw [heard, blocked, reaches]
          rfl
        · rw [owns, Option.some.injEq] at theirs
          exact absurd theirs.symm apart
  | leaving visit granted =>
      rw [stage] at taken
      refine attentive.enter guarded rfl ?_ idle ?_ taken
      · intro cond lock equal
        cases equal
      · intro _ notifies
        cases stage.symm.trans notifies

theorem Attentive.step {action : MonitorAction content} (attentive : Attentive monitor)
    (guarded : Guarded start monitor object) (announces : Announces monitor action)
    (taken : monitor.step action = some next) : Attentive next := by
  cases action with
  | visit tid visit trace =>
      rw [Monitor.step] at taken
      cases stage : monitor.stages tid with
      | outside =>
          rw [stage] at taken
          obtain ⟨locks, called, _⟩ := Option.map_eq_some_iff.mp taken
          have live := guarded.pool.stepLive called
          rw [stepLive, State.callee?] at live
          split_ifs at live with idle
          · refine attentive.enter guarded rfl ?_ idle ?_ taken
            · intro cond lock equal
              cases equal
            · intro _ notifies
              cases stage.symm.trans notifies
          · cases live
      | _ =>
          rw [stage] at taken
          cases taken
  | proceed tid timedOut chosen =>
      rw [Monitor.step] at taken
      split_ifs at taken with ready
      exact attentive.proceed guarded announces ready.2 taken
  | advance tid trace =>
      refine attentive.inner guarded rfl ?_ ?_ taken
      · intro cond lock equal
        cases equal
      · intro idle
        rw [stepLive, idle]
        rfl
  | wake tid =>
      refine attentive.inner guarded rfl ?_ ?_ taken
      · intro cond lock equal
        cases equal
      · intro idle
        rw [stepLive, idle]
  | deadlockError tid =>
      refine attentive.inner guarded rfl ?_ ?_ taken
      · intro cond lock equal
        cases equal
      · intro idle
        rw [stepLive, idle]

theorem reachable_attentive (reached : Runs.Reachable (monitors start) Announces monitor) :
    Attentive monitor := by
  induction reached with
  | start initial =>
      obtain ⟨lockName, threads, rfl⟩ := initial
      intro tid pc thread falls
      have idle : pc = .idle := List.eq_of_mem_replicate (List.mem_of_getElem? thread)
      subst idle
      cases falls
  | next action before announces taken attentive =>
      obtain ⟨object, guarded⟩ := reachable_guarded before
      exact attentive.step guarded announces taken

end Wakeups

/-! ### Standstill -/

namespace Monitor

variable {content : Type u}

/-- Nobody owns the mutex. -/
def free (monitor : Monitor content) : Prop :=
  ∃ object, monitor.locks.object? 0 = some object ∧ object.owner = none

/-- No thread inside a visit can go on by itself: none has a next statement or a step in a
call, and none that was called is still asleep. -/
def Standstill (monitor : Monitor content) : Prop :=
  (∀ tid timedOut chosen, monitor.step (.proceed tid timedOut chosen) = none) ∧
    (∀ tid trace, monitor.step (.advance tid trace) = none) ∧
    ∀ tid, monitor.signalled tid = true → monitor.step (.wake tid) = none

end Monitor

section Standstills

variable {content : Type u} {start : content} {monitor : Monitor content} {object : LockObject}
  {tid : Tid} {pc : Pc}

theorem Guarded.advance_eq (guarded : Guarded start monitor object) {lock : Nat}
    (thread : monitor.locks.threads[tid]? = some pc) (target : pc.target = some lock)
    (trace : BackTrace) :
    Locks.step monitor.locks (.advance tid trace) =
      Locks.advance monitor.locks tid trace object pc := by
  have found : monitor.locks.object? lock = some object := by
    rw [guarded.place thread target]
    exact guarded.pool.present
  rw [step_of_running guarded.pool.alive, stepLive, thread, Option.bind_some, target,
    Option.bind_some, found, Option.bind_some]

theorem Guarded.advances (guarded : Guarded start monitor object) {lock : Nat}
    (thread : monitor.locks.threads[tid]? = some pc) (target : pc.target = some lock)
    (still : monitor.Standstill) (trace : BackTrace) :
    Locks.advance monitor.locks tid trace object pc = none := by
  rw [← guarded.advance_eq thread target]
  have stuck := still.2.1 tid trace
  rw [Monitor.step, Monitor.progress, Option.map_eq_none_iff] at stuck
  exact stuck

theorem Guarded.owner_moves (guarded : Guarded start monitor object)
    (thread : monitor.locks.threads[tid]? = some pc) (owns : object.owner = some tid) :
    ¬monitor.Standstill := by
  intro still
  have heads := guarded.heads tid pc thread
  let trace : BackTrace := ⟨0, []⟩
  cases pc with
  | idle =>
      have stuck := still.1 tid false 0
      rw [Monitor.step, if_pos ⟨guarded.pool.alive, thread⟩, Monitor.proceed] at stuck
      have owning := heads.mpr owns
      cases stage : monitor.stages tid with
      | outside =>
          rw [stage] at owning
          cases owning
      | calling visit =>
          rw [stage] at stuck
          rw [Option.map_eq_none_iff, Monitor.enter, Option.map_eq_none_iff,
            step_of_running guarded.pool.alive, stepLive, guarded.pool.callee thread,
            Option.bind_some, if_pos guarded.pool.pooled.mutex] at stuck
          cases stuck
      | leaving visit granted =>
          rw [stage] at stuck
          rw [Monitor.enter, Option.map_eq_none_iff, step_of_running guarded.pool.alive,
            stepLive, guarded.pool.callee thread] at stuck
          cases stuck
      | _ =>
          rw [stage] at stuck
          cases stuck
  | tryLock lock => exact heads.2 owns
  | acquiring lock mode => exact heads.2 owns
  | locked lock mode => exact heads
  | book lock book rest after => cases guarded.advances thread rfl still trace
  | willUnlock lock => cases guarded.advances thread rfl still trace
  | unlocking lock => cases guarded.advances thread rfl still trace
  | condWait cond lock =>
      have stuck := guarded.advances thread rfl still trace
      rw [Locks.advance] at stuck
      split at stuck <;> cases stuck
  | condBlocked cond lock => exact guarded.inside thread rfl owns
  | condAcquiring cond lock => exact guarded.inside thread rfl owns

theorem Guarded.grants (guarded : Guarded start monitor object) (free : object.owner = none)
    (tid : Tid) : grantTo object tid .exclusive = some { object with owner := some tid } := by
  obtain ⟨found, live⟩ := object?_eq_some.mp guarded.pool.present
  have unshared := (reachable_unshared guarded.reached).readers 0 object found live
    guarded.pool.pooled.mutex
  rw [grantTo, if_pos ⟨free, unshared⟩]

/-- While nobody has the mutex, no thread is on its way to a wait, and nobody is about to
notify. -/
theorem Attentive.asleep (attentive : Attentive monitor) (guarded : Guarded start monitor object)
    (free : object.owner = none) (unheard : monitor.Unheard tid) :
    ∃ visit, monitor.stages tid = .woken visit ∧ visit.pred monitor.data = false := by
  obtain ⟨blocked, silent⟩ := unheard
  rw [Monitor.blocked] at blocked
  split at blocked
  · rename_i cond lock thread
    obtain ⟨visit, woken, excused⟩ := attentive tid _ thread rfl
    rcases excused with called | fails | ⟨one, other, idle, notifies⟩
    · cases silent.symm.trans called
    · exact ⟨visit, woken, fails⟩
    · have owns := guarded.owner idle (by rw [notifies]; rfl)
      cases free.symm.trans owns
  · cases blocked

theorem Guarded.rests (guarded : Guarded start monitor object) (free : object.owner = none)
    (still : monitor.Standstill)
    (thread : monitor.locks.threads[tid]? = some pc) :
    monitor.stages tid = .outside ∨ monitor.Unheard tid := by
  have heads := guarded.heads tid pc thread
  let trace : BackTrace := ⟨0, []⟩
  have unowned : object.owner ≠ some tid := by
    rw [free]
    nofun
  cases pc with
  | idle =>
      left
      have out : (monitor.stages tid).owns ≠ true := fun owning => unowned (heads.mp owning)
      cases stage : monitor.stages tid with
      | outside => rfl
      | _ =>
          rw [stage] at out
          exact absurd rfl out
  | tryLock lock =>
      have stuck := guarded.advances thread rfl still trace
      rw [Locks.advance, guarded.grants free tid] at stuck
      cases stuck
  | acquiring lock mode =>
      have stuck := guarded.advances thread rfl still trace
      rw [Locks.advance, (guarded.inside thread rfl).1, guarded.grants free tid] at stuck
      cases stuck
  | locked lock mode => exact heads.elim
  | book lock book rest after => cases guarded.advances thread rfl still trace
  | willUnlock lock => cases guarded.advances thread rfl still trace
  | unlocking lock => cases guarded.advances thread rfl still trace
  | condWait cond lock => exact absurd (guarded.inside thread rfl).1 unowned
  | condBlocked cond lock =>
      right
      refine ⟨by rw [Monitor.blocked, thread], ?_⟩
      rw [← Bool.not_eq_true]
      intro called
      have stuck := still.2.2 tid called
      rw [Monitor.step, Monitor.progress, Option.map_eq_none_iff,
        step_of_running guarded.pool.alive, stepLive, thread] at stuck
      cases stuck
  | condAcquiring cond lock =>
      have stuck := guarded.advances thread rfl still trace
      rw [Locks.advance, guarded.grants free tid] at stuck
      cases stuck

/-- No change is missed. While the mutex is free, a waiter that sleeps and is not called
waits for a predicate that is false. And the visits never block each other: once nothing
moves, the mutex is free, and every thread is outside or waits for a predicate that is
false. -/
theorem monitor_wakes (reached : Runs.Reachable (monitors start) Announces monitor) :
    (monitor.free → ∀ tid, monitor.Unheard tid →
        ∃ visit, monitor.stages tid = .woken visit ∧ visit.pred monitor.data = false) ∧
      (monitor.Standstill → monitor.free ∧
        ∀ (tid : Tid) (pc : Pc), monitor.locks.threads[tid]? = some pc →
          monitor.stages tid = .outside ∨
            ∃ visit, monitor.stages tid = .woken visit ∧ visit.pred monitor.data = false) := by
  obtain ⟨object, guarded⟩ := reachable_guarded reached
  have attentive := reachable_attentive reached
  constructor
  · rintro ⟨one, present, free⟩ tid unheard
    cases guarded.pool.present.symm.trans present
    exact attentive.asleep guarded free unheard
  · intro still
    have free : object.owner = none := by
      cases owner : object.owner with
      | none => rfl
      | some tid =>
          have thread := List.getElem?_eq_getElem (guarded.exact.present tid owner)
          exact absurd still (guarded.owner_moves thread owner)
    refine ⟨⟨object, guarded.pool.present, free⟩, ?_⟩
    intro tid pc thread
    rcases guarded.rests free still thread with outside | unheard
    · exact Or.inl outside
    · exact Or.inr (attentive.asleep guarded free unheard)

end Standstills

/-- A thread that waits for a count that nobody has raised. -/
theorem monitor_wakes_while_false :
    ∃ monitor, Runs.Reachable (monitors 0) Announces monitor ∧ monitor.Unheard 0 ∧
      monitor.free ∧
      ∃ visit, monitor.stages 0 = .woken visit ∧ visit.pred monitor.data = false := by
  let trace : BackTrace := ⟨0, []⟩
  let waiter : Visit Nat := ⟨false, fun count => decide (1 ≤ count), (· + 1), true⟩
  let actions : List (MonitorAction Nat) :=
    [.visit 0 waiter trace] ++ List.replicate 4 (.advance 0 trace) ++
      List.replicate 2 (.proceed 0 false 0) ++ List.replicate 5 (.advance 0 trace)
  obtain ⟨monitor, reached, passed⟩ := Runs.exists_of_replay Announces
    (show (monitors 0).initial (Monitor.initial [97] 2 0) from ⟨[97], 2, rfl⟩) actions
    (fun monitor => decide (monitor.Unheard 0 ∧
      (monitor.locks.object? 0).map (·.owner) = some none)) (by decide +kernel)
  obtain ⟨unheard, unowned⟩ := of_decide_eq_true passed
  have free : monitor.free := Option.map_eq_some_iff.mp unowned
  exact ⟨monitor, reached, unheard, free, (monitor_wakes reached).1 free 0 unheard⟩

end BlueThread.Locks
