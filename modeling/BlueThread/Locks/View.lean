/-
What the lock protocol sees of the program's state.

The view keeps the live objects that the checker follows and forgets the rest:
names, counters, pthread modes and objects built without the checker. The lemmas
say how the view changes when one object, one program counter and the tables are
replaced, which is the form of every step inside a call.
-/

import BlueThread.Foundation.Population
import BlueThread.Lockdep.Order
import BlueThread.Locks.Model
import BlueThread.Locks.Protocol

namespace BlueThread.Locks

open Lockdep LockProtocol Population

/-! ### The view of a state -/

def LockObject.Checked (object : LockObject) : Prop :=
  object.live = true ∧ object.lockdep = true

instance (object : LockObject) : Decidable object.Checked :=
  inferInstanceAs (Decidable (_ ∧ _))

def LockObject.OwnedBy (object : LockObject) (tid : Tid) : Prop :=
  object.owner = some tid ∨ tid ∈ object.readers

instance (object : LockObject) (tid : Tid) : Decidable (object.OwnedBy tid) :=
  inferInstanceAs (Decidable (_ ∨ _))

def LockObject.share (id : Nat) (object : LockObject) : Nat :=
  if object.Checked ∧ object.id = some id then 1 else 0

def After.phase (lock : Nat) : After → Phase Nat
  | .finish => .quiet
  | .willUnlock => .releasing lock
  | .condWait _ => .resolved lock

def Pc.phase : Pc → Phase Nat
  | .idle => .quiet
  | .tryLock lock => .wanting lock
  | .acquiring lock _ => .wanting lock
  | .locked lock _ => .grabbed lock
  | .book lock _ _ after => after.phase lock
  | .willUnlock lock => .releasing lock
  | .unlocking lock => .dropping lock
  | .condWait _ lock => .resolved lock
  | .condBlocked _ lock => .parked lock
  | .condAcquiring _ lock => .parked lock

namespace State

def Checks (state : State) (lock : Nat) : Prop :=
  ∃ object, state.objects[lock]? = some object ∧ object.Checked

def Owns (state : State) (tid : Tid) (lock : Nat) : Prop :=
  ∃ object, state.objects[lock]? = some object ∧ object.Checked ∧ object.OwnedBy tid

open Classical in
noncomputable def phaseOf (state : State) (pc : Pc) : Phase Nat :=
  if ∃ lock, pc.target = some lock ∧ state.Checks lock then pc.phase else .quiet

noncomputable def view (state : State) : LockProtocol.State Tid Nat Nat where
  carries lock id :=
    ∃ object, state.objects[lock]? = some object ∧ object.Checked ∧ object.id = some id
  owns := state.Owns
  held tid id := id ∈ (state.tables.heldLocks tid).keys
  follows := state.tables.Follows
  phase tid := ((state.threads[tid]?).map state.phaseOf).getD .quiet

/-- How many live objects carry an identifier. -/
def carriers (state : State) (id : Nat) : Nat :=
  total (LockObject.share id) state.objects

def update (state : State) (tables : Tables) (lock : Nat) (object : LockObject) (tid : Tid)
    (pc : Pc) : State :=
  ((state.setTables tables).setObject lock object).setPc tid pc

end State

structure SameTag (before after : LockObject) : Prop where
  live : after.live = before.live
  lockdep : after.lockdep = before.lockdep
  id : after.id = before.id
  lockName : after.lockName = before.lockName

theorem SameTag.refl (object : LockObject) : SameTag object object := ⟨rfl, rfl, rfl, rfl⟩

theorem SameTag.checked {before after : LockObject} (tag : SameTag before after) :
    after.Checked ↔ before.Checked := by
  unfold LockObject.Checked
  rw [tag.live, tag.lockdep]

/-! ### The view under updates -/

section Views

variable {state : State} {lock tid : Nat} {object : LockObject}

theorem owns_iff (found : state.objects[lock]? = some object) :
    state.Owns tid lock ↔ object.Checked ∧ object.OwnedBy tid := by
  constructor
  · rintro ⟨other, atLock, rest⟩
    rw [found, Option.some.injEq] at atLock
    exact atLock ▸ rest
  · intro rest
    exact ⟨object, found, rest⟩

theorem carries_iff (found : state.objects[lock]? = some object) (id : Nat) :
    state.view.carries lock id ↔ object.Checked ∧ object.id = some id := by
  constructor
  · rintro ⟨other, atLock, rest⟩
    rw [found, Option.some.injEq] at atLock
    exact atLock ▸ rest
  · intro rest
    exact ⟨object, found, rest⟩

theorem view_phase {pc : Pc} (thread : state.threads[tid]? = some pc) :
    state.view.phase tid = state.phaseOf pc := by
  change ((state.threads[tid]?).map state.phaseOf).getD .quiet = _
  rw [thread]
  rfl

theorem phaseOf_checked {pc : Pc} (found : state.objects[lock]? = some object)
    (checked : object.Checked) (target : pc.target = some lock) :
    state.phaseOf pc = pc.phase := by
  unfold State.phaseOf
  rw [if_pos ⟨lock, target, object, found, checked⟩]

theorem phaseOf_unchecked {pc : Pc} (found : state.objects[lock]? = some object)
    (unchecked : ¬object.Checked) (target : pc.target = none ∨ pc.target = some lock) :
    state.phaseOf pc = .quiet := by
  unfold State.phaseOf
  rw [if_neg]
  rintro ⟨other, atOther, present, atPresent, checked⟩
  rcases target with none | same
  · rw [none] at atOther
    cases atOther
  · rw [same, Option.some.injEq] at atOther
    rw [← atOther, found, Option.some.injEq] at atPresent
    exact unchecked (atPresent ▸ checked)

theorem phaseOf_idle : state.phaseOf .idle = .quiet := by
  unfold State.phaseOf
  split <;> rfl

theorem target_of_about (about : (state.view.phase tid).About lock) :
    ∃ pc, state.threads[tid]? = some pc ∧ pc.target = some lock := by
  cases thread : state.threads[tid]? with
  | none =>
      change (((state.threads[tid]?).map state.phaseOf).getD .quiet).About lock at about
      rw [thread] at about
      cases about
  | some pc =>
      refine ⟨pc, rfl, ?_⟩
      rw [view_phase thread] at about
      unfold State.phaseOf at about
      split at about
      · cases pc with
        | idle => cases about
        | book target next rest after =>
            cases after with
            | finish => cases about
            | willUnlock => exact congrArg some (Eq.symm about)
            | condWait cond => exact congrArg some (Eq.symm about)
        | _ => exact congrArg some (Eq.symm about)
      · cases about

theorem getElem?_set_tag {other : Nat} {after : LockObject}
    (found : state.objects[lock]? = some object) (test : LockObject → Prop)
    (same : test after ↔ test object) :
    (∃ one, (state.objects.set lock after)[other]? = some one ∧ test one) ↔
      ∃ one, state.objects[other]? = some one ∧ test one := by
  obtain ⟨small, atLock⟩ := List.getElem?_eq_some_iff.mp found
  by_cases atOther : lock = other
  · subst other
    simp [small, same, atLock]
  · simp [List.getElem?_set_ne atOther]

theorem view_update {old pc : Pc} {after : LockObject} {tables : Tables}
    (found : state.objects[lock]? = some object) (thread : state.threads[tid]? = some old)
    (tag : SameTag object after) :
    (state.update tables lock after tid pc).view =
      { carries := state.view.carries
        owns := fun other one =>
          if one = lock then object.Checked ∧ after.OwnedBy other else state.Owns other one
        held := fun other id => id ∈ (tables.heldLocks other).keys
        follows := tables.Follows
        phase := Function.update state.view.phase tid (state.phaseOf pc) } := by
  obtain ⟨small, atLock⟩ := List.getElem?_eq_some_iff.mp found
  have checks : (state.update tables lock after tid pc).Checks = state.Checks := by
    funext other
    exact propext (getElem?_set_tag found LockObject.Checked tag.checked)
  have phases : (state.update tables lock after tid pc).phaseOf = state.phaseOf := by
    funext other
    unfold State.phaseOf
    rw [checks]
  ext other one
  · exact getElem?_set_tag found (fun object => object.Checked ∧ object.id = some one)
      (by rw [tag.checked, tag.id])
  · change (∃ present, (state.objects.set lock after)[one]? = some present ∧ _) ↔
      if one = lock then object.Checked ∧ after.OwnedBy other else state.Owns other one
    by_cases atLock : lock = one
    · subst one
      simp [small, tag.checked]
    · rw [if_neg (Ne.symm atLock), List.getElem?_set_ne atLock]
      rfl
  · rfl
  · rfl
  · change (((state.threads.set tid pc)[other]?).map
        (state.update tables lock after tid pc).phaseOf).getD .quiet =
      Function.update state.view.phase tid (state.phaseOf pc) other
    rw [phases]
    by_cases atTid : tid = other
    · subst other
      obtain ⟨inside, _⟩ := List.getElem?_eq_some_iff.mp thread
      simp [inside]
    · rw [List.getElem?_set_ne atTid, Function.update_of_ne (Ne.symm atTid)]
      rfl

theorem phases_same {next : State} (threads : next.threads = state.threads)
    (objects : ∀ (tid : Tid) (pc : Pc) (lock : Nat), state.threads[tid]? = some pc →
      pc.target = some lock → next.objects[lock]? = state.objects[lock]?) :
    next.view.phase = state.view.phase := by
  funext tid
  change ((next.threads[tid]?).map next.phaseOf).getD Phase.quiet =
    ((state.threads[tid]?).map state.phaseOf).getD Phase.quiet
  rw [threads]
  cases thread : state.threads[tid]? with
  | none => rfl
  | some pc =>
      change next.phaseOf pc = state.phaseOf pc
      unfold State.phaseOf State.Checks
      congr 1
      refine propext (exists_congr fun lock => and_congr_right fun target => ?_)
      rw [objects tid pc lock thread target]

theorem view_append {new : LockObject} (tables : Tables)
    (placed : ∀ (tid : Tid) (pc : Pc) (lock : Nat), state.threads[tid]? = some pc →
      pc.target = some lock → lock < state.objects.length)
    (unowned : ∀ other, ¬new.OwnedBy other) :
    State.view { state with tables := tables, objects := state.objects ++ [new] } =
      { carries := fun one id => state.view.carries one id ∨
          (one = state.objects.length ∧ new.Checked ∧ new.id = some id)
        owns := state.Owns
        held := fun other id => id ∈ (tables.heldLocks other).keys
        follows := tables.Follows
        phase := state.view.phase } := by
  have append (one : Nat) (test : LockObject → Prop) :
      (∃ present, (state.objects ++ [new])[one]? = some present ∧ test present) ↔
        (∃ present, state.objects[one]? = some present ∧ test present) ∨
          (one = state.objects.length ∧ test new) := by
    rcases Nat.lt_trichotomy one state.objects.length with below | same | above
    · have notLast : one ≠ state.objects.length := by omega
      simp [List.getElem?_append_left below, notLast]
    · subst same
      simp
    · have notLast : one ≠ state.objects.length := by omega
      have outside : (state.objects ++ [new]).length ≤ one := by
        rw [List.length_append, List.length_singleton]
        omega
      simp [List.getElem?_eq_none outside, List.getElem?_eq_none (Nat.le_of_lt above), notLast]
  ext other one
  · exact append other (fun object => object.Checked ∧ object.id = some one)
  · change (∃ present, (state.objects ++ [new])[one]? = some present ∧ _) ↔ _
    rw [append one (fun object => object.Checked ∧ object.OwnedBy other)]
    constructor
    · rintro (present | ⟨_, _, owned⟩)
      · exact present
      · exact absurd owned (unowned other)
    · exact Or.inl
  · rfl
  · rfl
  · change LockProtocol.State.phase (State.view _) other = state.view.phase other
    refine congrFun (phases_same ?_ ?_) other
    · rfl
    · intro tid pc one thread target
      exact List.getElem?_append_left (placed tid pc one thread target)

theorem view_retire (tables : Tables) (found : state.objects[lock]? = some object)
    (unowned : ∀ other, ¬object.OwnedBy other)
    (untouched : ∀ (other : Tid) (pc : Pc), state.threads[other]? = some pc →
      pc.target ≠ some lock) :
    ((state.setTables tables).setObject lock { object with live := false }).view =
      { carries := fun one id => state.view.carries one id ∧ one ≠ lock
        owns := state.Owns
        held := fun other id => id ∈ (tables.heldLocks other).keys
        follows := tables.Follows
        phase := state.view.phase } := by
  obtain ⟨small, _⟩ := List.getElem?_eq_some_iff.mp found
  have retired (one : Nat) (test : LockObject → Prop) :
      (∃ present, (state.objects.set lock { object with live := false })[one]? = some present ∧
          present.Checked ∧ test present) ↔
        (∃ present, state.objects[one]? = some present ∧ present.Checked ∧ test present) ∧
          one ≠ lock := by
    by_cases atLock : lock = one
    · subst one
      simp [small, LockObject.Checked]
    · simp [List.getElem?_set_ne atLock, Ne.symm atLock]
  ext other one
  · exact retired other (fun object => object.id = some one)
  · change (∃ present, (state.objects.set lock _)[one]? = some present ∧ _) ↔ state.Owns other one
    rw [retired one (fun object => object.OwnedBy other)]
    constructor
    · exact And.left
    · intro owns
      refine ⟨owns, ?_⟩
      rintro rfl
      exact unowned other ((owns_iff found).mp owns).2
  · rfl
  · rfl
  · change LockProtocol.State.phase (State.view _) other = state.view.phase other
    refine congrFun (phases_same ?_ ?_) other
    · rfl
    · intro tid pc one thread target
      apply List.getElem?_set_ne
      rintro rfl
      exact untouched tid pc thread target

/-! How the ownership of one object changes, seen from the whole state. -/

theorem owns_same {after : LockObject} (found : state.objects[lock]? = some object)
    (same : ∀ other, after.OwnedBy other ↔ object.OwnedBy other) :
    (fun other one =>
      if one = lock then object.Checked ∧ after.OwnedBy other else state.Owns other one) =
      state.Owns := by
  funext other one
  split
  · rename_i atLock
    subst one
    rw [same other]
    exact propext (owns_iff found).symm
  · rfl

theorem owns_granted {after : LockObject} (found : state.objects[lock]? = some object)
    (checked : object.Checked)
    (granted : ∀ other, after.OwnedBy other ↔ object.OwnedBy other ∨ other = tid) :
    (fun other one =>
      if one = lock then object.Checked ∧ after.OwnedBy other else state.Owns other one) =
      fun other one => state.Owns other one ∨ (other = tid ∧ one = lock) := by
  funext other one
  split
  · rename_i atLock
    subst one
    simp [granted other, owns_iff found, checked]
  · rename_i elsewhere
    simp [elsewhere]

theorem owns_released {after : LockObject} {again : Bool}
    (found : state.objects[lock]? = some object) (checked : object.Checked)
    (released : ∀ other, after.OwnedBy other ↔
      object.OwnedBy other ∧ (other = tid → again = true)) :
    (fun other one =>
      if one = lock then object.Checked ∧ after.OwnedBy other else state.Owns other one) =
      fun other one => state.Owns other one ∧ (other = tid ∧ one = lock → again = true) := by
  funext other one
  split
  · rename_i atLock
    subst one
    simp [released other, owns_iff found, checked]
  · rename_i elsewhere
    simp [elsewhere]

end Views

theorem grantTo_spec {object owned : LockObject} {tid : Tid} {mode : Mode}
    (granted : grantTo object tid mode = some owned) :
    SameTag object owned ∧
      (∀ other, owned.OwnedBy other ↔ object.OwnedBy other ∨ other = tid) ∧
      (mode = .exclusive → ∀ other, ¬object.OwnedBy other) := by
  cases mode with
  | exclusive =>
      rw [grantTo] at granted
      split at granted
      · rename_i vacant
        rw [Option.some.injEq] at granted
        subst granted
        refine ⟨⟨rfl, rfl, rfl, rfl⟩, ?_, ?_⟩
        · intro other
          simp [LockObject.OwnedBy, vacant.1, vacant.2, eq_comm]
        · intro _ other
          simp [LockObject.OwnedBy, vacant.1, vacant.2]
      · cases granted
  | shared =>
      rw [grantTo] at granted
      split at granted
      · rw [Option.some.injEq] at granted
        subst granted
        refine ⟨⟨rfl, rfl, rfl, rfl⟩, ?_, nofun⟩
        intro other
        simp only [LockObject.OwnedBy, List.mem_cons]
        exact ⟨fun cases => by tauto, fun cases => by tauto⟩
      · cases granted

theorem releaseBy_spec {object freed : LockObject} {tid : Tid}
    (released : releaseBy object tid = some freed) :
    SameTag object freed ∧ object.OwnedBy tid ∧
      ∀ other, freed.OwnedBy other ↔
        object.OwnedBy other ∧ (other = tid → decide (freed.OwnedBy tid) = true) := by
  unfold releaseBy at released
  split_ifs at released with owner reader
  · rw [Option.some.injEq] at released
    subst released
    refine ⟨⟨rfl, rfl, rfl, rfl⟩, Or.inl owner, ?_⟩
    intro other
    rw [decide_eq_true_eq]
    simp only [LockObject.OwnedBy, owner, Option.some.injEq]
    grind
  · rw [Option.some.injEq] at released
    subst released
    refine ⟨⟨rfl, rfl, rfl, rfl⟩, Or.inr reader, ?_⟩
    intro other
    rw [decide_eq_true_eq]
    simp only [LockObject.OwnedBy]
    by_cases same : other = tid
    · subst other
      simp only [owner, false_or, reader, true_and, forall_const]
    · simp [List.mem_erase_of_ne same, same]

theorem releaseBy_none {object : LockObject} {tid : Tid}
    (failed : releaseBy object tid = none) : ¬object.OwnedBy tid := by
  unfold releaseBy at failed
  split_ifs at failed with owner reader
  rintro (owns | reads)
  · exact owner owns
  · exact reader reads

end BlueThread.Locks
