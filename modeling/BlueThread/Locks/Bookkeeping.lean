/-
The counter and the owner field of a `BlueMutex` follow the pthread mutex.

Both fields are written outside the pthread calls, so they lag behind it: the
owner has not raised the counter yet, or has lowered it already. The invariant
says for every program counter how far its thread has come. It needs that only
the owner unlocks or waits; then nobody but the owner writes either field.
-/

import BlueThread.Locks.Moves

namespace BlueThread.Locks

open Lockdep Population

/-! ### How far a thread has come -/

namespace LockObject

variable (object : LockObject) (tid : Tid)

def Settled : Prop :=
  object.owner = some tid → object.lockedCount = 1 ∧ object.lockedBy = some tid

/-- The owner is not counted: `_post_lock` is still to come, or `_pre_unlock` is
over. -/
def Uncounted : Prop := object.owner = some tid ∧ object.lockedCount = 0

/-- The rest of `_post_lock`, and what holds before it. -/
def Entering (next : Book) (rest : List Book) : Prop :=
  object.Uncounted tid ∧
    ((next = .assertCount 0 ∧ rest = [.setLockedBy, .addCount]) ∨
      (next = .setLockedBy ∧ rest = [.addCount]) ∨
      (next = .addCount ∧ rest = [] ∧ object.lockedBy = some tid))

/-- The rest of `_pre_unlock`, and what holds before it. -/
def Leaving (next : Book) (rest : List Book) : Prop :=
  object.owner = some tid ∧ object.lockedCount = 1 ∧ object.lockedBy = some tid ∧
    ((next = .assertCount 1 ∧ rest = [.testOwned, .subCount]) ∨
      (next = .testOwned ∧ rest = [.subCount]) ∨
      (next = .setLockedBy ∧ rest = [.subCount]) ∨
      (next = .subCount ∧ rest = []))

def Booking (next : Book) (rest : List Book) : After → Prop
  | .finish => object.Entering tid next rest
  | .willUnlock => object.Leaving tid next rest
  | .condWait _ => object.Leaving tid next rest

end LockObject

def Pc.Inside (tid : Tid) (object : LockObject) : Pc → Prop
  | .idle => object.Settled tid
  | .tryLock _ => object.Settled tid
  | .acquiring _ mode => mode = .exclusive ∧ object.Settled tid
  | .locked _ mode => mode = .exclusive ∧ object.Uncounted tid
  | .book _ next rest after => object.Booking tid next rest after
  | .willUnlock _ => object.Uncounted tid
  | .unlocking _ => object.Uncounted tid
  | .condWait _ _ => object.Uncounted tid
  | .condBlocked _ _ => object.owner ≠ some tid
  | .condAcquiring _ _ => object.owner ≠ some tid

/-- What a program counter says about any mutex: a thread that works on another
lock is outside the bookkeeping of this one. -/
def Pc.Exact (tid : Tid) (lock : Nat) (object : LockObject) (pc : Pc) : Prop :=
  if pc.target = some lock then pc.Inside tid object else object.Settled tid

theorem Pc.exact_at {pc : Pc} {tid : Tid} {lock : Nat} {object : LockObject}
    (target : pc.target = some lock) : pc.Exact tid lock object ↔ pc.Inside tid object :=
  iff_of_eq (if_pos target)

theorem Pc.exact_elsewhere {pc : Pc} {tid : Tid} {lock : Nat} {object : LockObject}
    (apart : pc.target ≠ some lock) : pc.Exact tid lock object ↔ object.Settled tid :=
  iff_of_eq (if_neg apart)

theorem Pc.exact_idle {tid : Tid} {lock : Nat} {object : LockObject} :
    Pc.Exact tid lock object .idle ↔ object.Settled tid :=
  exact_elsewhere nofun

theorem Pc.exact_iff_inside {pc : Pc} {tid : Tid} {lock : Nat} {object : LockObject}
    (about : pc.target = none ∨ pc.target = some lock) :
    pc.Exact tid lock object ↔ pc.Inside tid object := by
  rcases about with nothing | target
  · cases pc with
    | idle => exact exact_idle
    | _ => cases nothing
  · exact exact_at target

theorem Pc.Exact.transfer {pc : Pc} {tid : Tid} {lock : Nat} {object after : LockObject}
    (exact : pc.Exact tid lock object)
    (owner : after.owner = some tid ↔ object.owner = some tid)
    (kept : object.owner = some tid →
      after.lockedCount = object.lockedCount ∧ after.lockedBy = object.lockedBy) :
    pc.Exact tid lock after := by
  have settled (before : object.Settled tid) : after.Settled tid := by
    intro owns
    have owned := owner.mp owns
    rw [(kept owned).1, (kept owned).2]
    exact before owned
  have uncounted (before : object.Uncounted tid) : after.Uncounted tid :=
    ⟨owner.mpr before.1, (kept before.1).1.trans before.2⟩
  have entering {next : Book} {rest : List Book} (before : object.Entering tid next rest) :
      after.Entering tid next rest := by
    refine ⟨uncounted before.1, ?_⟩
    rw [(kept before.1.1).2]
    exact before.2
  have leaving {next : Book} {rest : List Book} (before : object.Leaving tid next rest) :
      after.Leaving tid next rest := by
    obtain ⟨owned, counted, named, shape⟩ := before
    exact ⟨owner.mpr owned, (kept owned).1.trans counted, (kept owned).2.trans named, shape⟩
  have released (before : object.owner ≠ some tid) : after.owner ≠ some tid :=
    fun owns => before (owner.mp owns)
  unfold Pc.Exact at exact ⊢
  split
  · rename_i target
    rw [if_pos target] at exact
    cases pc with
    | idle => exact settled exact
    | tryLock other => exact settled exact
    | acquiring other mode => exact ⟨exact.1, settled exact.2⟩
    | locked other mode => exact ⟨exact.1, uncounted exact.2⟩
    | book other next rest following =>
        cases following with
        | finish => exact entering exact
        | willUnlock => exact leaving exact
        | condWait cond => exact leaving exact
    | willUnlock other => exact uncounted exact
    | unlocking other => exact uncounted exact
    | condWait cond other => exact uncounted exact
    | condBlocked cond other => exact released exact
    | condAcquiring cond other => exact released exact
  · rename_i apart
    rw [if_neg apart] at exact
    exact settled exact

/-! ### Moves on a mutex -/

/-- A move leaves the mutex and the thread in order, and touches neither field
while somebody else owns the mutex. -/
structure Handled (tid : Tid) (object after : LockObject) (pc : Pc) : Prop where
  inside : pc.Inside tid after
  vacant : after.owner = none → after.lockedCount = 0
  untouched : ∀ other, other ≠ tid → object.owner = some other →
    after.lockedCount = object.lockedCount ∧ after.lockedBy = object.lockedBy

section Moves

variable {action : Action} {tid : Tid} {lock : Nat} {object after : LockObject} {old pc : Pc}

theorem Handled.same (inside : pc.Inside tid object)
    (vacant : object.owner = none → object.lockedCount = 0) : Handled tid object object pc :=
  ⟨inside, vacant, fun _ _ _ => ⟨rfl, rfl⟩⟩

theorem Handled.own (owns : object.owner = some tid) (inside : pc.Inside tid after)
    (vacant : after.owner = none → after.lockedCount = 0) : Handled tid object after pc := by
  refine ⟨inside, vacant, ?_⟩
  intro other apart owner
  rw [owns, Option.some.injEq] at owner
  exact absurd owner.symm apart

theorem booking_of_uncounted (uncounted : object.Uncounted tid) (mutex : object.kind = .mutex)
    (mode : Mode) (lockdep : Bool) :
    (Pc.ofBooks lock .finish (postLock object.kind mode lockdep)).Inside tid object := by
  rw [mutex]
  exact ⟨uncounted, Or.inl ⟨rfl, rfl⟩⟩

theorem grant_handled {mode : Mode} (mutex : object.kind = .mutex)
    (vacant : object.owner = none → object.lockedCount = 0)
    (inside : old.Inside tid object) (wants : Wants lock object old mode)
    (granted : grantTo object tid mode = some after)
    (goes : pc = .locked lock mode ∨
      pc = .ofBooks lock .finish (postLock object.kind mode object.lockdep)) :
    Handled tid object after pc := by
  have exclusive : mode = .exclusive := by
    cases wants with
    | acquires mode => exact inside.1
    | _ => rfl
  obtain ⟨counts, names, free, owners⟩ := grantTo_owner granted
  have owner : after.owner = some tid := by
    rcases owners with ⟨_, mine⟩ | ⟨impossible, _⟩
    · exact mine
    · rw [exclusive] at impossible
      cases impossible
  have uncounted : after.Uncounted tid := ⟨owner, counts.trans (vacant free)⟩
  have kind := grantTo_kind granted
  refine ⟨?_, fun _ => counts.trans (vacant free), fun _ _ _ => ⟨counts, names⟩⟩
  rcases goes with rfl | rfl
  · exact ⟨exclusive, uncounted⟩
  · rw [← kind]
    exact booking_of_uncounted uncounted (kind.trans mutex) mode object.lockdep

/-- One step of `_post_lock`: the assertion holds, and the last step counts the
owner. -/
theorem entering_handled (lock : Nat) {next : Book} {rest : List Book}
    (entering : object.Entering tid next rest) :
    ∃ changed remaining, next.run tid object rest = some (changed, remaining) ∧
      Handled tid object changed (.ofBooks lock .finish remaining) := by
  obtain ⟨⟨owns, count⟩, ⟨rfl, rfl⟩ | ⟨rfl, rfl⟩ | ⟨rfl, rfl, named⟩⟩ := entering
  · refine ⟨object, _, if_pos count, .same ⟨⟨owns, count⟩, Or.inr (Or.inl ⟨rfl, rfl⟩)⟩ ?_⟩
    exact fun _ => count
  · refine ⟨_, _, rfl, .own owns ⟨⟨owns, count⟩, Or.inr (Or.inr ⟨rfl, rfl, rfl⟩)⟩ ?_⟩
    exact fun _ => count
  · refine ⟨_, _, rfl, .own owns (fun _ => ⟨?_, named⟩) ?_⟩
    · change object.lockedCount + 1 = 1
      omega
    · intro impossible
      change object.owner = none at impossible
      rw [owns] at impossible
      cases impossible

/-- One step of `_pre_unlock`: the assertion holds, the test finds the counter at
one, and the last step lowers it. -/
theorem leaving_run {next : Book} {rest : List Book} (leaving : object.Leaving tid next rest) :
    ∃ changed remaining, next.run tid object rest = some (changed, remaining) ∧
      changed.owner = some tid ∧
      ((∃ later others, remaining = later :: others ∧ changed.Leaving tid later others) ∨
        (remaining = [] ∧ changed.Uncounted tid)) := by
  obtain ⟨owns, count, named, ⟨rfl, rfl⟩ | ⟨rfl, rfl⟩ | ⟨rfl, rfl⟩ | ⟨rfl, rfl⟩⟩ := leaving
  · exact ⟨object, _, if_pos count, owns,
      Or.inl ⟨_, _, rfl, owns, count, named, Or.inr (Or.inl ⟨rfl, rfl⟩)⟩⟩
  · refine ⟨object, _, rfl, owns, Or.inl ⟨.setLockedBy, [.subCount], if_pos count, ?_⟩⟩
    exact ⟨owns, count, named, Or.inr (Or.inr (Or.inl ⟨rfl, rfl⟩))⟩
  · exact ⟨_, _, rfl, owns,
      Or.inl ⟨_, _, rfl, owns, count, rfl, Or.inr (Or.inr (Or.inr ⟨rfl, rfl⟩))⟩⟩
  · refine ⟨_, _, rfl, owns, Or.inr ⟨rfl, owns, ?_⟩⟩
    change object.lockedCount - 1 = 0
    omega

theorem book_handled (lock : Nat) {next : Book} {rest : List Book} {following : After}
    (booking : object.Booking tid next rest following) :
    ∃ changed remaining, next.run tid object rest = some (changed, remaining) ∧
      Handled tid object changed (.ofBooks lock following remaining) := by
  have leave (leaving : object.Leaving tid next rest)
      (inside : ∀ changed remaining,
        ((∃ later others, remaining = later :: others ∧
            LockObject.Leaving changed tid later others) ∨
          (remaining = [] ∧ changed.Uncounted tid)) →
        (Pc.ofBooks lock following remaining).Inside tid changed) :
      ∃ changed remaining, next.run tid object rest = some (changed, remaining) ∧
        Handled tid object changed (.ofBooks lock following remaining) := by
    obtain ⟨changed, remaining, ran, owns, shape⟩ := leaving_run leaving
    refine ⟨changed, remaining, ran, .own leaving.1 (inside changed remaining shape) ?_⟩
    intro impossible
    rw [owns] at impossible
    cases impossible
  cases following with
  | finish => exact entering_handled lock booking
  | willUnlock =>
      apply leave booking
      rintro changed remaining (⟨later, others, rfl, leaving⟩ | ⟨rfl, uncounted⟩)
      · exact leaving
      · exact uncounted
  | condWait cond =>
      apply leave booking
      rintro changed remaining (⟨later, others, rfl, leaving⟩ | ⟨rfl, uncounted⟩)
      · exact leaving
      · exact uncounted

theorem leave_handled {mode : Mode} {following : After} (mutex : object.kind = .mutex)
    (settled : object.Settled tid) (owns : object.owner = some tid)
    (leaves : Leaves tid lock object action mode following) :
    Handled tid object object
      (.ofBooks lock following (preUnlock object.kind mode object.lockdep)) := by
  obtain ⟨count, named⟩ := settled owns
  have vacant : object.owner = none → object.lockedCount = 0 := by
    intro impossible
    rw [owns] at impossible
    cases impossible
  rw [mutex]
  cases leaves with
  | unlock => exact .same ⟨owns, count, named, Or.inl ⟨rfl, rfl⟩⟩ vacant
  | unlockShared shared =>
      rw [mutex] at shared
      cases shared
  | wait cond _ => exact .same ⟨owns, count, named, Or.inl ⟨rfl, rfl⟩⟩ vacant

theorem release_handled (uncounted : object.Uncounted tid)
    (released : releaseBy object tid = some after)
    (inside : after.owner = none → pc.Inside tid after) : Handled tid object after pc := by
  obtain ⟨counts, names, ⟨_, free⟩ | ⟨impossible, _⟩⟩ := releaseBy_owner released
  · exact .own uncounted.1 (inside free) (fun _ => counts.trans uncounted.2)
  · exact absurd uncounted.1 impossible

theorem LockMove.handled (moved : LockMove action tid lock object old after pc)
    (mutex : object.kind = .mutex) (vacant : object.owner = none → object.lockedCount = 0)
    (inside : old.Inside tid object)
    (owner : ∀ mode following, Leaves tid lock object action mode following →
      object.owner = some tid) : Handled tid object after pc := by
  cases moved with
  | call _ => exact .same inside vacant
  | callShared mode shared =>
      rw [mutex] at shared
      cases shared
  | block => exact .same ⟨rfl, inside⟩ vacant
  | refuse mode => exact .same inside.2 vacant
  | grant wants granted goes => exact grant_handled mutex vacant inside wants granted goes
  | settle mode =>
      exact .same (booking_of_uncounted inside.2 mutex mode object.lockdep) vacant
  | book ran =>
      obtain ⟨changed, remaining, same, handled⟩ := book_handled lock inside
      rw [ran, Option.some.injEq, Prod.mk.injEq] at same
      obtain ⟨rfl, rfl⟩ := same
      exact handled
  | leave leaves => exact leave_handled mutex inside (owner _ _ leaves) leaves
  | unrecord => exact .same inside vacant
  | unlock released =>
      apply release_handled inside released
      intro free owns
      rw [free] at owns
      cases owns
  | park cond released =>
      apply release_handled inside released
      intro free owns
      rw [free] at owns
      cases owns
  | fail place failed =>
      have uncounted : object.Uncounted tid := by
        rcases place with rfl | ⟨cond, rfl⟩
        · exact inside
        · exact inside
      exact absurd (Or.inl uncounted.1) (releaseBy_none failed)
  | wake cond => exact .same inside vacant

end Moves

/-! ### The invariant over runs -/

structure State.Exact (state : State) (lock : Nat) (object : LockObject) : Prop where
  vacant : object.owner = none → object.lockedCount = 0
  present : ∀ tid, object.owner = some tid → tid < state.threads.length
  threads : ∀ (tid : Tid) (pc : Pc), state.threads[tid]? = some pc → pc.Exact tid lock object

def Booked (state : State) : Prop :=
  ∀ (lock : Nat) (object : LockObject), state.objects[lock]? = some object →
    object.live = true → object.kind = .mutex → state.Exact lock object

/-- `unlock` and `wait` are called only by the owner of the mutex. -/
def OwnerUse (state : State) : Action → Prop
  | .unlock tid lock =>
      ∀ object ∈ state.object? lock, object.kind = .mutex → object.owner = some tid
  | .wait tid _ lock => ∀ object ∈ state.object? lock, object.owner = some tid
  | action => DestroysUnused state action

instance (state : State) (action : Action) : Decidable (OwnerUse state action) :=
  match action with
  | .unlock _ _ => inferInstanceAs (Decidable (∀ object ∈ _, _ → _))
  | .wait _ _ _ => inferInstanceAs (Decidable (∀ object ∈ _, _))
  | .destroy lock => inferInstanceAs (Decidable (DestroysUnused state (.destroy lock)))
  | .create _ _ _ | .lock _ _ _ | .tryLock _ _ | .lockShared _ _ _ | .unlockShared _ _ | .wake _
  | .deadlockError _ | .advance _ _ => inferInstanceAs (Decidable True)

section Runs

variable {state next : State} {action : Action}

theorem OwnerUse.destroysUnused (permitted : OwnerUse state action) :
    DestroysUnused state action := by
  cases action with
  | destroy lock => exact permitted
  | _ => trivial

theorem ownerUse_consistent (reached : Runs.Reachable system OwnerUse state) :
    Consistent state :=
  reachable_consistent (fun _ _ permitted => permitted.destroysUnused) reached

theorem OwnerUse.owner {tid : Tid} {lock : Nat} {object : LockObject} {mode : Mode}
    {following : After} (permitted : OwnerUse state action)
    (present : state.object? lock = some object) (mutex : object.kind = .mutex)
    (leaves : Leaves tid lock object action mode following) : object.owner = some tid := by
  cases leaves with
  | unlock => exact permitted object present mutex
  | unlockShared shared =>
      rw [mutex] at shared
      cases shared
  | wait cond _ => exact permitted object present

theorem Booked.initial (threads : Nat) : Booked (State.initial threads) := by
  intro lock object found
  cases found

theorem exact_created {kind : Kind} {name : Name} {id : Option Nat} {lockdep : Bool} {lock : Nat}
    (untouched : ∀ (tid : Tid) (pc : Pc), state.threads[tid]? = some pc →
      pc.target ≠ some lock) : state.Exact lock (newObject kind name id lockdep) where
  vacant _ := rfl
  present _ owner := by cases owner
  threads tid pc thread := (Pc.exact_elsewhere (untouched tid pc thread)).mpr nofun

theorem State.Exact.move {tid : Tid} {lock : Nat} {object after : LockObject} {old pc : Pc}
    (exact : state.Exact lock object) (thread : state.threads[tid]? = some old)
    (moved : LockMove action tid lock object old after pc) (mutex : object.kind = .mutex)
    (owner : ∀ mode following, Leaves tid lock object action mode following →
      object.owner = some tid)
    (threads : next.threads = state.threads.set tid pc) : next.Exact lock after := by
  obtain ⟨oldAbout, newAbout⟩ := moved.targets
  have inside := (Pc.exact_iff_inside oldAbout).mp (exact.threads tid old thread)
  have handled := moved.handled mutex exact.vacant inside owner
  refine ⟨handled.vacant, ?_, ?_⟩
  · intro one owns
    rw [threads, List.length_set]
    by_cases same : one = tid
    · rw [same]
      exact (List.getElem?_eq_some_iff.mp thread).1
    · exact exact.present one ((moved.bystander same).1.mp owns)
  · intro one present atOne
    rw [threads] at atOne
    rcases getElem?_set_cases thread atOne with ⟨rfl, rfl⟩ | ⟨apart, before⟩
    · exact (Pc.exact_iff_inside newAbout).mpr handled.inside
    · exact (exact.threads one present before).transfer (moved.bystander (Ne.symm apart)).1
        (handled.untouched one (Ne.symm apart))

theorem State.Exact.elsewhere {tid : Tid} {lock other : Nat} {object one after : LockObject}
    {old pc : Pc} (exact : state.Exact other one) (thread : state.threads[tid]? = some old)
    (moved : LockMove action tid lock object old after pc) (apart : lock ≠ other)
    (threads : next.threads = state.threads.set tid pc) : next.Exact other one := by
  obtain ⟨oldAway, newAway⟩ := moved.away apart
  refine ⟨exact.vacant, ?_, ?_⟩
  · intro owner owns
    rw [threads, List.length_set]
    exact exact.present owner owns
  · intro actor present atActor
    rw [threads] at atActor
    rcases getElem?_set_cases thread atActor with ⟨rfl, rfl⟩ | ⟨_, before⟩
    · have settled := (Pc.exact_elsewhere oldAway).mp (exact.threads _ old thread)
      exact (Pc.exact_elsewhere newAway).mpr settled
    · exact exact.threads actor present before

theorem State.Exact.congr {lock : Nat} {object : LockObject} (exact : state.Exact lock object)
    (threads : next.threads = state.threads) : next.Exact lock object := by
  refine ⟨exact.vacant, ?_, ?_⟩
  · rw [threads]
    exact exact.present
  · rw [threads]
    exact exact.threads

theorem Booked.step (booked : Booked state) (consistent : Consistent state)
    (permitted : OwnerUse state action) (touch : Touch state action next) : Booked next := by
  apply touch.forall_live (fun current lock object =>
    object.kind = .mutex → current.Exact lock object) consistent booked
  · intro lock object threads exact mutex
    exact (exact mutex).congr threads
  · intro lock kind name id lockdep untouched _
    exact exact_created untouched
  · intro tid lock object after old pc present thread moved threads exact mutex
    have wasMutex : object.kind = .mutex := moved.kept.1.symm.trans mutex
    exact (exact wasMutex).move thread moved wasMutex
      (fun mode following leaves => permitted.owner present wasMutex leaves) threads
  · intro tid lock other object one after old pc thread moved apart threads exact mutex
    exact (exact mutex).elsewhere thread moved apart threads

theorem reachable_booked (reached : Runs.Reachable system OwnerUse state) : Booked state := by
  apply reached.invariant
  · rintro current ⟨threads, rfl⟩
    exact Booked.initial threads
  · intro current action following before booked permitted taken
    have consistent := ownerUse_consistent before
    exact booked.step consistent permitted (step_touch consistent taken)

theorem Pc.Exact.counted {pc : Pc} {tid : Tid} {lock : Nat} {object : LockObject}
    (exact : pc.Exact tid lock object) (owns : object.owner = some tid) :
    object.lockedCount = 0 ∨ (object.lockedCount = 1 ∧ object.lockedBy = some tid) := by
  unfold Pc.Exact at exact
  split at exact
  · cases pc with
    | idle => exact Or.inr (exact owns)
    | tryLock other => exact Or.inr (exact owns)
    | acquiring other mode => exact Or.inr (exact.2 owns)
    | locked other mode => exact Or.inl exact.2.2
    | book other next rest following =>
        cases following with
        | finish => exact Or.inl exact.1.2
        | willUnlock => exact Or.inr ⟨exact.2.1, exact.2.2.1⟩
        | condWait cond => exact Or.inr ⟨exact.2.1, exact.2.2.1⟩
    | willUnlock other => exact Or.inl exact.2
    | unlocking other => exact Or.inl exact.2
    | condWait cond other => exact Or.inl exact.2
    | condBlocked cond other => exact absurd owns exact
    | condAcquiring cond other => exact absurd owns exact
  · exact Or.inr (exact owns)

theorem State.Exact.counted {lock : Nat} {object : LockObject} (exact : state.Exact lock object) :
    object.lockedCount = 0 ∨
      (object.lockedCount = 1 ∧ ∃ tid, object.owner = some tid ∧ object.lockedBy = some tid) := by
  cases owner : object.owner with
  | none => exact Or.inl (exact.vacant owner)
  | some tid =>
      have thread := List.getElem?_eq_getElem (exact.present tid owner)
      rcases (exact.threads tid _ thread).counted owner with zero | ⟨one, named⟩
      · exact Or.inl zero
      · exact Or.inr ⟨one, tid, rfl, named⟩

/-- While a thread stands still, the others neither give it a lock, nor take one
from it, nor write its name. -/
theorem bystander_run {discipline : State → Action → Prop}
    (unused : ∀ current action, discipline current action → DestroysUnused current action)
    {tid : Tid} {pc : Pc} {later : State} (before : Runs.Reachable system discipline state)
    (thread : state.threads[tid]? = some pc)
    (reached : Runs.Reachable (system.after state)
      (fun current action => discipline current action ∧ action.actor ≠ some tid) later) :
    Runs.Reachable system discipline later ∧ later.threads[tid]? = some pc ∧
      ∀ (lock : Nat) (object : LockObject), state.objects[lock]? = some object →
        ∃ after, later.objects[lock]? = some after ∧ after.kind = object.kind ∧
          (after.owner = some tid ↔ object.owner = some tid) ∧
          (after.lockedBy = some tid → object.lockedBy = some tid) := by
  induction reached with
  | start initial =>
      subst initial
      exact ⟨before, thread, fun lock object found => ⟨object, found, rfl, Iff.rfl, id⟩⟩
  | next action _ permitted taken ih =>
      obtain ⟨reachable, stands, kept⟩ := ih
      have consistent := reachable_consistent unused reachable
      obtain ⟨still, touched⟩ := (step_touch consistent taken).bystander permitted.2
      refine ⟨.next action reachable permitted.1 taken, still.trans stands, ?_⟩
      intro lock object found
      obtain ⟨middle, atMiddle, kind, owner, named⟩ := kept lock object found
      obtain ⟨after, atAfter, kindAfter, ownerAfter, namedAfter⟩ := touched lock middle atMiddle
      exact ⟨after, atAfter, kindAfter.trans kind, ownerAfter.trans owner, named ∘ namedAfter⟩

end Runs

/-! ### Every interleaving -/

/-- A waiting or unlocking owner passes the assertions, the counter is zero or
one, and `is_locked_by_me` tells a thread whether it owns the mutex, whatever the
others do between its two reads. -/
theorem bookkeeping_exact {state : State} {lock : Nat} {object : LockObject}
    (reached : Runs.Reachable system OwnerUse state)
    (present : state.object? lock = some object) (mutex : object.kind = .mutex) :
    (∀ (tid : Tid) (next : Book) (rest : List Book) (after : After),
        state.threads[tid]? = some (.book lock next rest after) →
        (next.run tid object rest).isSome = true) ∧
      (∀ tid : Tid, state.threads[tid]? = some .idle → object.owner = some tid →
        0 < object.lockedCount) ∧
      (object.lockedCount = 0 ∨ object.lockedCount = 1) ∧
      ∀ (tid : Tid) (later : State) (final : LockObject), state.threads[tid]? = some .idle →
        Runs.Reachable (system.after state)
          (fun current action => OwnerUse current action ∧ action.actor ≠ some tid) later →
        later.object? lock = some final →
        (isLockedByMe tid object final = true ↔ object.owner = some tid) ∧
          (final.owner = some tid ↔ object.owner = some tid) := by
  obtain ⟨found, live⟩ := object?_eq_some.mp present
  have exact := reachable_booked reached lock object found live mutex
  have settled {tid : Tid} (idle : state.threads[tid]? = some .idle) : object.Settled tid :=
    Pc.exact_idle.mp (exact.threads tid .idle idle)
  refine ⟨?_, ?_, ?_, ?_⟩
  · intro tid next rest after thread
    have inside := (Pc.exact_at rfl).mp (exact.threads tid _ thread)
    obtain ⟨changed, remaining, ran, _⟩ := book_handled lock inside
    rw [ran]
    rfl
  · intro tid idle owns
    rw [(settled idle owns).1]
    decide
  · rcases exact.counted with zero | ⟨one, _⟩
    · exact Or.inl zero
    · exact Or.inr one
  · intro tid later final idle others atFinal
    obtain ⟨reachable, stands, kept⟩ :=
      bystander_run (fun _ _ permitted => permitted.destroysUnused) reached idle others
    obtain ⟨after, atAfter, kind, owner, named⟩ := kept lock object found
    obtain ⟨finalFound, finalLive⟩ := object?_eq_some.mp atFinal
    rw [atAfter, Option.some.injEq] at finalFound
    subst finalFound
    refine ⟨?_, owner⟩
    rw [isLockedByMe, Bool.and_eq_true, decide_eq_true_eq, decide_eq_true_eq]
    constructor
    · rintro ⟨counted, mine⟩
      rcases exact.counted with zero | ⟨_, other, owns, theirs⟩
      · rw [zero] at counted
        cases counted
      · have same := named mine
        rw [theirs] at same
        rw [owns, same]
    · intro owns
      refine ⟨?_, ?_⟩
      · rw [(settled idle owns).1]
        decide
      · have later := reachable_booked reachable lock after atAfter finalLive (kind.trans mutex)
        have still := Pc.exact_idle.mp (later.threads tid .idle stands)
        exact (still (owner.mpr owns)).2

/-- A thread owns the mutex while another one blocks on it. -/
theorem bookkeeping_exact_contended :
    ∃ state object, Runs.Reachable system OwnerUse state ∧ state.object? 0 = some object ∧
      state.threads[1]? = some (.acquiring 0 .exclusive) ∧
      isLockedByMe 0 object object = true ∧ isLockedByMe 1 object object = false := by
  obtain ⟨state, reached, passed⟩ := Runs.exists_of_replay OwnerUse
    (show system.initial (State.initial 3) from ⟨3, rfl⟩)
    ([.create .mutex [120] false, .lock 0 0 ⟨0, []⟩] ++
      List.replicate 4 (.advance 0 ⟨0, []⟩) ++ [.lock 1 0 ⟨0, []⟩, .advance 1 ⟨0, []⟩])
    (fun state : State => decide (∃ object ∈ state.object? 0, object.kind = .mutex ∧
      object.owner = some 0 ∧ state.threads[0]? = some Pc.idle ∧
      state.threads[1]? = some (Pc.acquiring 0 .exclusive) ∧ object.lockedBy ≠ some 1))
    (by decide +kernel)
  obtain ⟨object, present, mutex, owns, idle, blocked, others⟩ := of_decide_eq_true passed
  have queried := (bookkeeping_exact reached present mutex).2.2.2 0 state object idle
    (.start rfl) present
  refine ⟨state, object, reached, present, blocked, queried.1.mpr owns, ?_⟩
  rw [isLockedByMe, decide_eq_false others, Bool.and_false]

end BlueThread.Locks
