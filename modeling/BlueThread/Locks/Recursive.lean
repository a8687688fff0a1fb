/-
The recursive mutex of `mutex_recursive.h`.

A call is a sequence of steps of its thread: the pthread calls, the atomic
additions and the assertions, in the order of the source. A pthread call returns
any code, and an error code means that nothing was acquired. `lock` takes every
code but three errors for a success, so the counter is exact as long as
`pthread_mutex_lock` returns one of these three or zero.
-/

import BlueThread.Foundation.Runs
import BlueThread.Lockdep.Model
import Mathlib.Algebra.Group.Int.Defs
import Mathlib.Algebra.Group.Nat.Defs
import Mathlib.Logic.Function.Basic
import Mathlib.Tactic.Common

namespace BlueThread.RecursiveMutex

open Lockdep

/-! ### The pthread mutex -/

/-- A `PTHREAD_MUTEX_RECURSIVE` mutex: free, or held with further levels inside the
first. -/
inductive PthreadMutex
  | free
  | held (owner : Tid) (nested : Nat)
deriving DecidableEq

namespace PthreadMutex

def depth : PthreadMutex → Nat
  | .free => 0
  | .held _ nested => nested + 1

/-- How many levels a thread holds. -/
def level (mutex : PthreadMutex) (tid : Tid) : Nat :=
  match mutex with
  | .free => 0
  | .held owner nested => if owner = tid then nested + 1 else 0

def acquire (mutex : PthreadMutex) (tid : Tid) : Option PthreadMutex :=
  match mutex with
  | .free => some (.held tid 0)
  | .held owner nested => if owner = tid then some (.held owner (nested + 1)) else none

def release (mutex : PthreadMutex) (tid : Tid) : Option PthreadMutex :=
  match mutex with
  | .free => none
  | .held owner 0 => if owner = tid then some .free else none
  | .held owner (nested + 1) => if owner = tid then some (.held owner nested) else none

variable {mutex following : PthreadMutex} {tid other : Tid}

theorem level_eq_depth (held : 0 < mutex.level tid) : mutex.level tid = mutex.depth := by
  cases mutex with
  | free => cases held
  | held owner nested =>
      rw [level] at held ⊢
      by_cases same : owner = tid
      · rw [if_pos same, depth]
      · rw [if_neg same] at held
        cases held

theorem level_other (held : 0 < mutex.level tid) (different : other ≠ tid) :
    mutex.level other = 0 := by
  cases mutex with
  | free => cases held
  | held owner nested =>
      rw [level] at held ⊢
      apply if_neg
      intro same
      rw [if_neg (same.trans_ne different)] at held
      cases held

theorem acquire_spec (acquired : mutex.acquire tid = some following) :
    mutex.level tid = mutex.depth ∧ following.level tid = mutex.level tid + 1 ∧
      following.depth = mutex.depth + 1 ∧
      ∀ other, other ≠ tid → mutex.level other = 0 ∧ following.level other = 0 := by
  cases mutex with
  | free =>
      rw [acquire, Option.some.injEq] at acquired
      subst acquired
      refine ⟨rfl, if_pos rfl, rfl, ?_⟩
      intro other different
      exact ⟨rfl, if_neg different.symm⟩
  | held owner nested =>
      rw [acquire] at acquired
      by_cases same : owner = tid
      · rw [if_pos same, Option.some.injEq] at acquired
        subst acquired same
        refine ⟨if_pos rfl, ?_, rfl, ?_⟩
        · rw [level, level, if_pos rfl, if_pos rfl]
        · intro other different
          exact ⟨if_neg different.symm, if_neg different.symm⟩
      · rw [if_neg same] at acquired
        cases acquired

theorem release_spec (released : mutex.release tid = some following) :
    mutex.level tid = following.level tid + 1 ∧ mutex.depth = following.depth + 1 ∧
      ∀ other, other ≠ tid → following.level other = 0 := by
  cases mutex with
  | free => cases released
  | held owner nested =>
      have same : owner = tid := by
        by_contra different
        cases nested with
        | zero =>
            rw [release, if_neg different] at released
            cases released
        | succ nested =>
            rw [release, if_neg different] at released
            cases released
      cases nested with
      | zero =>
          rw [release, if_pos same, Option.some.injEq] at released
          subst released same
          exact ⟨if_pos rfl, rfl, fun _other _different => rfl⟩
      | succ nested =>
          rw [release, if_pos same, Option.some.injEq] at released
          subst released same
          refine ⟨?_, rfl, ?_⟩
          · rw [level, level, if_pos rfl, if_pos rfl]
          · intro other different
            exact if_neg different.symm

theorem release_of_level (held : 0 < mutex.level tid) : mutex.release tid ≠ none := by
  cases mutex with
  | free => cases held
  | held owner nested =>
      have same : owner = tid := by
        by_contra different
        rw [level, if_neg different] at held
        cases held
      cases nested with
      | zero =>
          rw [release, if_pos same]
          exact Option.some_ne_none _
      | succ nested =>
          rw [release, if_pos same]
          exact Option.some_ne_none _

end PthreadMutex

/-! ### The threads -/

def eperm : Int := 1

def ebusy : Int := 16

def edeadlk : Int := 35

/-- The two functions that take the mutex. -/
inductive Call
  | lock
  | tryLock
deriving DecidableEq

/-- Where a thread stands: before which step of which call. -/
inductive Pc
  | idle
  | trying (call : Call)
  | locking
  | counting (call : Call)
  | asserting
  | uncounting
  | unlocking
deriving DecidableEq

/-- A call that returned: the levels that its thread held when it was called and
when it returned, and what `try_lock` said. -/
inductive Return
  | lock (tid : Tid) (before after : Nat)
  | tryLock (tid : Tid) (before after : Nat) (locked : Bool)
deriving DecidableEq

/-- `entered` is what a thread held when its last call began. -/
structure State where
  mutex : PthreadMutex
  lockCount : Int32
  pcs : Tid → Pc
  entered : Tid → Nat
  returned : List Return
  aborted : Bool

namespace State

def initial : State :=
  { mutex := .free
    lockCount := 0
    pcs := fun _ => .idle
    entered := fun _ => 0
    returned := []
    aborted := false }

def setPc (state : State) (tid : Tid) (pc : Pc) : State :=
  { state with pcs := Function.update state.pcs tid pc }

/-- A call begins. -/
def call (state : State) (tid : Tid) (pc : Pc) : Option State :=
  if state.pcs tid = .idle then
    some { state.setPc tid pc with
      entered := Function.update state.entered tid (state.mutex.level tid) }
  else none

def complete (state : State) (tid : Tid) : Call → Bool → State
  | .lock, _ =>
      { state.setPc tid .idle with
        returned := .lock tid (state.entered tid) (state.mutex.level tid) :: state.returned }
  | .tryLock, locked =>
      { state.setPc tid .idle with
        returned := .tryLock tid (state.entered tid) (state.mutex.level tid) locked ::
          state.returned }

/-- `try_lock` from the result of `pthread_mutex_trylock` on, and what `lock` makes
of it. -/
def tried (state : State) (tid : Tid) (call : Call) (code : Int) : Option State :=
  if code = 0 then
    (state.mutex.acquire tid).map fun mutex =>
      { state.setPc tid (.counting call) with mutex := mutex }
  else if code = ebusy then
    match call with
    | .lock => some (state.setPc tid .locking)
    | .tryLock => some (state.complete tid .tryLock false)
  -- any other code is thrown
  else some (state.setPc tid .idle)

/-- `lock` from the result of `pthread_mutex_lock` on. -/
def locked (state : State) (tid : Tid) (code : Int) : Option State :=
  if code = 0 then
    (state.mutex.acquire tid).map fun mutex =>
      { state.setPc tid (.counting .lock) with mutex := mutex }
  else if code = ebusy ∨ code = eperm ∨ code = edeadlk then some (state.setPc tid .idle)
  -- no other code is looked at
  else some (state.setPc tid (.counting .lock))

/-- The pthread call that a thread is in returns a code. -/
def result (state : State) (tid : Tid) (code : Int) : Option State :=
  match state.pcs tid with
  | .trying call => state.tried tid call code
  | .locking => state.locked tid code
  | _ => none

/-- The steps that are not pthread calls for the mutex. -/
def advance (state : State) (tid : Tid) : Option State :=
  match state.pcs tid with
  | .counting call =>
      some ({ state with lockCount := state.lockCount + 1 }.complete tid call true)
  | .asserting =>
      if 0 < state.lockCount.toInt then some (state.setPc tid .uncounting)
      else some { state with aborted := true }
  | .uncounting =>
      some { state.setPc tid .unlocking with lockCount := state.lockCount - 1 }
  | .unlocking =>
      match state.mutex.release tid with
      | some mutex => some { state.setPc tid .idle with mutex := mutex }
      -- `ASSERT(r == 0)`
      | none => some { state with aborted := true }
  | _ => none

end State

inductive Action
  | lock (tid : Tid)
  | tryLock (tid : Tid)
  | unlock (tid : Tid)
  | result (tid : Tid) (code : Int)
  | advance (tid : Tid)
deriving DecidableEq

def perform (state : State) : Action → Option State
  | .lock tid => state.call tid (.trying .lock)
  | .tryLock tid => state.call tid (.trying .tryLock)
  | .unlock tid => state.call tid .asserting
  | .result tid code => state.result tid code
  | .advance tid => state.advance tid

def recursiveMutex : Runs.System State Action where
  initial state := state = State.initial
  step state action := if state.aborted then none else perform state action

/-- Only the owner unlocks, and no level is acquired beyond the range of `int`. -/
def Contract (state : State) : Action → Prop
  | .unlock tid => 0 < state.mutex.level tid
  | .result _ code => code = 0 → state.mutex.depth + 1 < 2147483648
  | _ => True

/-- `pthread_mutex_lock` returns zero or one of the errors that `lock` throws. -/
def Recognised (state : State) : Action → Prop
  | .result tid code =>
      state.pcs tid = .locking → code = 0 ∨ code = ebusy ∨ code = eperm ∨ code = edeadlk
  | _ => True

/-- The contract, with errors that `lock` recognises. -/
def RecognisedErrors (state : State) (action : Action) : Prop :=
  Contract state action ∧ Recognised state action

/-- No thread is in the middle of a call. -/
def State.Quiet (state : State) : Prop := ∀ tid, state.pcs tid = .idle

/-- `lock` returns with one more level, and `try_lock` says whether it has it. -/
def Return.Honest : Return → Prop
  | .lock _ before after => after = before + 1
  | .tryLock _ before after locked => after = if locked then before + 1 else before

/-! ### What a thread's place says of its levels -/

def Pc.Holds : Pc → Prop
  | .counting _ | .asserting | .uncounting | .unlocking => True
  | _ => False

def Pc.uncounted : Pc → Nat
  | .counting _ | .unlocking => 1
  | _ => 0

def Pc.Since (entered level : Nat) : Pc → Prop
  | .trying _ | .locking => level = entered
  | .counting _ => level = entered + 1
  | _ => True

structure Local (state : State) (tid : Tid) : Prop where
  holds : (state.pcs tid).Holds → 0 < state.mutex.level tid
  since : (state.pcs tid).Since (state.entered tid) (state.mutex.level tid)
  counted : 0 < state.mutex.level tid →
    state.lockCount.toInt + (state.pcs tid).uncounted = state.mutex.level tid

structure Exact (state : State) : Prop where
  running : state.aborted = false
  threads : ∀ tid, Local state tid
  free : state.mutex.depth = 0 → state.lockCount = 0
  bounded : state.mutex.depth < 2147483648
  honest : ∀ done ∈ state.returned, done.Honest

theorem initial_exact : Exact State.initial where
  running := rfl
  threads := fun _tid =>
    { holds := fun held => held.elim
      since := trivial
      counted := fun held => absurd held (Nat.lt_irrefl 0) }
  free := fun _ => rfl
  bounded := by decide
  honest := fun _done returned => absurd returned List.not_mem_nil

structure Bystanders (state next : State) (tid : Tid) : Prop where
  pcs : ∀ other, other ≠ tid → next.pcs other = state.pcs other
  entered : ∀ other, other ≠ tid → next.entered other = state.entered other
  levels : ∀ other, other ≠ tid → next.mutex.level other = state.mutex.level other
  counts : next.lockCount = state.lockCount ∨ 0 < state.mutex.level tid

theorem Bystanders.threads {state next : State} {tid : Tid} (sound : Exact state)
    (others : Bystanders state next tid) (own : Local next tid) (other : Tid) :
    Local next other := by
  by_cases same : other = tid
  · rw [same]
    exact own
  · have before := sound.threads other
    have pc := others.pcs other same
    have level := others.levels other same
    refine ⟨?_, ?_, ?_⟩
    · rw [pc, level]
      exact before.holds
    · rw [pc, level, others.entered other same]
      exact before.since
    · rw [pc, level]
      intro held
      cases others.counts with
      | inl unchanged =>
          rw [unchanged]
          exact before.counted held
      | inr owner =>
          rw [PthreadMutex.level_other owner same] at held
          cases held

/-! ### The steps -/

theorem toInt_increment (count : Int32) (room : count.toInt + 1 < 2147483648) :
    (count + 1).toInt = count.toInt + 1 := by
  have lower : -2147483648 ≤ count.toInt := count.le_toInt
  have unit : (1 : Int32).toInt = 1 := rfl
  rw [Int32.toInt_add, unit]
  apply Int.bmod_eq_of_le <;> omega

theorem toInt_decrement (count : Int32) (positive : 0 < count.toInt) :
    (count - 1).toInt = count.toInt - 1 := by
  have upper : count.toInt < 2147483648 := count.toInt_lt
  have unit : (1 : Int32).toInt = 1 := rfl
  rw [Int32.toInt_sub, unit]
  apply Int.bmod_eq_of_le <;> omega

section Steps

variable {state next : State} {tid : Tid}

theorem setPc_bystanders (state : State) (tid : Tid) (pc : Pc) :
    Bystanders state (state.setPc tid pc) tid where
  pcs := fun _other different => Function.update_of_ne different _ _
  entered := fun _other _different => rfl
  levels := fun _other _different => rfl
  counts := Or.inl rfl

theorem setPc_self (state : State) (tid : Tid) (pc : Pc) :
    (state.setPc tid pc).pcs tid = pc := Function.update_self _ _ _

theorem Exact.setPc (sound : Exact state) {pc : Pc}
    (holds : pc.Holds → 0 < state.mutex.level tid)
    (since : pc.Since (state.entered tid) (state.mutex.level tid))
    (uncounted : pc.uncounted = (state.pcs tid).uncounted) :
    Exact (state.setPc tid pc) where
  running := sound.running
  threads := by
    refine (setPc_bystanders state tid pc).threads sound ⟨?_, ?_, ?_⟩
    · rw [setPc_self]
      exact holds
    · rw [setPc_self]
      exact since
    · rw [setPc_self, uncounted]
      exact (sound.threads tid).counted
  free := sound.free
  bounded := sound.bounded
  honest := sound.honest

theorem call_exact (sound : Exact state) {pc : Pc}
    (entry : pc = .asserting ∧ 0 < state.mutex.level tid ∨ ∃ call, pc = .trying call)
    (called : state.call tid pc = some next) : Exact next := by
  rw [State.call] at called
  by_cases idle : state.pcs tid = .idle
  · rw [if_pos idle, Option.some.injEq] at called
    subst called
    have others : Bystanders state { state.setPc tid pc with
        entered := Function.update state.entered tid (state.mutex.level tid) } tid :=
      { setPc_bystanders state tid pc with
        entered := fun _other different => Function.update_of_ne different _ _ }
    have counted := (sound.threads tid).counted
    rw [idle] at counted
    refine ⟨sound.running, others.threads sound ⟨?_, ?_, ?_⟩, sound.free, sound.bounded,
      sound.honest⟩
    · rw [setPc_self]
      intro held
      cases entry with
      | inl owner => exact owner.2
      | inr begun =>
          obtain ⟨call, attempt⟩ := begun
          rw [attempt] at held
          cases held
    · rw [setPc_self]
      change pc.Since (Function.update state.entered tid (state.mutex.level tid) tid)
        (state.mutex.level tid)
      rw [Function.update_self]
      cases entry with
      | inl owner =>
          rw [owner.1]
          exact trivial
      | inr begun =>
          obtain ⟨call, attempt⟩ := begun
          rw [attempt]
          rfl
    · rw [setPc_self]
      intro held
      have before := counted held
      cases entry with
      | inl owner =>
          rw [owner.1]
          exact before
      | inr begun =>
          obtain ⟨call, attempt⟩ := begun
          rw [attempt]
          exact before
  · rw [if_neg idle] at called
    cases called

theorem acquire_exact (sound : Exact state) {call : Call} {mutex : PthreadMutex}
    (room : state.mutex.depth + 1 < 2147483648)
    (since : state.mutex.level tid = state.entered tid)
    (counted : (state.pcs tid).uncounted = 0)
    (acquired : state.mutex.acquire tid = some mutex) :
    Exact { state.setPc tid (.counting call) with mutex := mutex } := by
  obtain ⟨whole, own, deeper, rest⟩ := PthreadMutex.acquire_spec acquired
  have others : Bystanders state { state.setPc tid (.counting call) with mutex := mutex } tid :=
    { setPc_bystanders state tid (.counting call) with
      levels := fun other different => by
        rw [(rest other different).1]
        exact (rest other different).2 }
  refine ⟨sound.running, others.threads sound ⟨?_, ?_, ?_⟩, ?_, ?_, sound.honest⟩
  · intro _held
    exact own ▸ Nat.succ_pos _
  · rw [setPc_self]
    change mutex.level tid = state.entered tid + 1
    rw [own, since]
  · rw [setPc_self]
    intro _held
    change state.lockCount.toInt + 1 = mutex.level tid
    rw [own]
    by_cases held : 0 < state.mutex.level tid
    · have before := (sound.threads tid).counted held
      rw [counted] at before
      omega
    · -- the mutex was free, so the counter is zero
      have zero := sound.free (by omega)
      rw [zero, Nat.eq_zero_of_not_pos held]
      rfl
  · intro empty
    change mutex.depth = 0 at empty
    omega
  · change mutex.depth < 2147483648
    omega

theorem Exact.report (sound : Exact state) {done : Return} (honest : done.Honest) :
    Exact { state with returned := done :: state.returned } where
  running := sound.running
  threads := fun tid =>
    { holds := (sound.threads tid).holds
      since := (sound.threads tid).since
      counted := (sound.threads tid).counted }
  free := sound.free
  bounded := sound.bounded
  honest := by
    intro other returned
    cases List.mem_cons.mp returned with
    | inl latest => exact latest ▸ honest
    | inr earlier => exact sound.honest other earlier

theorem complete_exact {call : Call} {done : Bool} (moved : Exact (state.setPc tid .idle))
    (honest : state.mutex.level tid =
      if call = .lock ∨ done = true then state.entered tid + 1 else state.entered tid) :
    Exact (state.complete tid call done) := by
  cases call with
  | lock => exact moved.report honest
  | tryLock =>
      apply moved.report
      exact honest.trans (if_congr (or_iff_right Call.noConfusion) rfl rfl)

theorem tried_exact (sound : Exact state) {call : Call} {code : Int}
    (place : state.pcs tid = .trying call)
    (room : code = 0 → state.mutex.depth + 1 < 2147483648)
    (taken : state.tried tid call code = some next) : Exact next := by
  have since := (sound.threads tid).since
  rw [place] at since
  have counted : (state.pcs tid).uncounted = 0 := by
    rw [place]
    rfl
  unfold State.tried at taken
  by_cases success : code = 0
  · rw [if_pos success, Option.map_eq_some_iff] at taken
    obtain ⟨mutex, acquired, result⟩ := taken
    exact result ▸ acquire_exact sound (room success) since counted acquired
  · rw [if_neg success] at taken
    by_cases busy : code = ebusy
    · rw [if_pos busy] at taken
      cases call with
      | lock =>
          cases taken
          exact sound.setPc (fun held => held.elim) since counted.symm
      | tryLock =>
          cases taken
          exact complete_exact (sound.setPc (fun held => held.elim) trivial counted.symm) since
    · rw [if_neg busy] at taken
      cases taken
      exact sound.setPc (fun held => held.elim) trivial counted.symm

theorem locked_exact (sound : Exact state) {code : Int}
    (place : state.pcs tid = .locking)
    (room : code = 0 → state.mutex.depth + 1 < 2147483648)
    (recognised : code = 0 ∨ code = ebusy ∨ code = eperm ∨ code = edeadlk)
    (taken : state.locked tid code = some next) : Exact next := by
  have since := (sound.threads tid).since
  rw [place] at since
  have counted : (state.pcs tid).uncounted = 0 := by
    rw [place]
    rfl
  rw [State.locked] at taken
  by_cases success : code = 0
  · rw [if_pos success, Option.map_eq_some_iff] at taken
    obtain ⟨mutex, acquired, result⟩ := taken
    exact result ▸ acquire_exact sound (room success) since counted acquired
  · rw [if_neg success, if_pos (recognised.resolve_left success)] at taken
    cases taken
    exact sound.setPc (fun held => held.elim) trivial counted.symm

theorem counting_exact (sound : Exact state) {call : Call}
    (place : state.pcs tid = .counting call) :
    Exact ({ state with lockCount := state.lockCount + 1 }.complete tid call true) := by
  obtain ⟨holds, since, counted⟩ := sound.threads tid
  rw [place] at holds since counted
  have held := holds trivial
  have before : state.lockCount.toInt + 1 = state.mutex.level tid := counted held
  have whole := PthreadMutex.level_eq_depth held
  have bounded := sound.bounded
  have raised := toInt_increment state.lockCount (by omega)
  have others : Bystanders state
      ({ state with lockCount := state.lockCount + 1 }.setPc tid .idle) tid :=
    { setPc_bystanders state tid .idle with counts := Or.inr held }
  refine complete_exact ⟨sound.running, others.threads sound ⟨?_, ?_, ?_⟩, ?_, bounded,
    sound.honest⟩ ?_
  · rw [setPc_self]
    intro impossible
    cases impossible
  · rw [setPc_self]
    exact trivial
  · rw [setPc_self]
    intro _held
    change (state.lockCount + 1).toInt + 0 = state.mutex.level tid
    omega
  · intro empty
    change state.mutex.depth = 0 at empty
    omega
  · rw [if_pos (Or.inr rfl)]
    exact since

theorem uncounting_exact (sound : Exact state) (place : state.pcs tid = .uncounting) :
    Exact { state.setPc tid .unlocking with lockCount := state.lockCount - 1 } := by
  obtain ⟨holds, _since, counted⟩ := sound.threads tid
  rw [place] at holds counted
  have held := holds trivial
  have before : state.lockCount.toInt + 0 = state.mutex.level tid := counted held
  have whole := PthreadMutex.level_eq_depth held
  have lowered := toInt_decrement state.lockCount (by omega)
  have others : Bystanders state
      { state.setPc tid .unlocking with lockCount := state.lockCount - 1 } tid :=
    { setPc_bystanders state tid .unlocking with counts := Or.inr held }
  refine ⟨sound.running, others.threads sound ⟨?_, ?_, ?_⟩, ?_, sound.bounded,
    sound.honest⟩
  · intro _held
    exact held
  · rw [setPc_self]
    exact trivial
  · rw [setPc_self]
    intro _held
    change (state.lockCount - 1).toInt + 1 = state.mutex.level tid
    omega
  · intro empty
    change state.mutex.depth = 0 at empty
    omega

theorem unlocking_exact (sound : Exact state) (place : state.pcs tid = .unlocking)
    {mutex : PthreadMutex} (released : state.mutex.release tid = some mutex) :
    Exact { state.setPc tid .idle with mutex := mutex } := by
  obtain ⟨own, depth, rest⟩ := PthreadMutex.release_spec released
  have counted := (sound.threads tid).counted
  rw [place] at counted
  have held : 0 < state.mutex.level tid := by omega
  have before : state.lockCount.toInt + 1 = state.mutex.level tid := counted held
  have whole := PthreadMutex.level_eq_depth held
  have bounded := sound.bounded
  have others : Bystanders state { state.setPc tid .idle with mutex := mutex } tid :=
    { setPc_bystanders state tid .idle with
      levels := fun other different => by
        rw [PthreadMutex.level_other held different]
        exact rest other different }
  refine ⟨sound.running, others.threads sound ⟨?_, ?_, ?_⟩, ?_, ?_, sound.honest⟩
  · rw [setPc_self]
    intro impossible
    cases impossible
  · rw [setPc_self]
    exact trivial
  · rw [setPc_self]
    intro _held
    change state.lockCount.toInt + 0 = mutex.level tid
    omega
  · intro empty
    change mutex.depth = 0 at empty
    apply Int32.toInt_inj.mp
    change state.lockCount.toInt = 0
    omega
  · change mutex.depth < 2147483648
    omega

theorem advance_exact (sound : Exact state) (taken : state.advance tid = some next) :
    Exact next := by
  have own := sound.threads tid
  rw [State.advance] at taken
  cases place : state.pcs tid with
  | idle | trying _ | locking =>
      rw [place] at taken
      cases taken
  | counting call =>
      rw [place] at taken
      cases taken
      exact counting_exact sound place
  | asserting =>
      rw [place] at taken
      have held := own.holds (place ▸ trivial)
      have counted : state.lockCount.toInt + 0 = state.mutex.level tid := by
        have exactly := own.counted held
        rw [place] at exactly
        exact exactly
      have passes : 0 < state.lockCount.toInt := by omega
      dsimp only at taken
      rw [if_pos passes] at taken
      cases taken
      refine sound.setPc (fun _held => held) trivial ?_
      rw [place]
      rfl
  | uncounting =>
      rw [place] at taken
      cases taken
      exact uncounting_exact sound place
  | unlocking =>
      rw [place] at taken
      have held := own.holds (place ▸ trivial)
      cases released : state.mutex.release tid with
      | none => exact absurd released (PthreadMutex.release_of_level held)
      | some mutex =>
          dsimp only at taken
          rw [released] at taken
          cases taken
          exact unlocking_exact sound place released

theorem perform_exact (sound : Exact state) {action : Action}
    (permitted : RecognisedErrors state action)
    (taken : perform state action = some next) : Exact next := by
  obtain ⟨contract, recognised⟩ := permitted
  cases action with
  | lock tid => exact call_exact sound (Or.inr ⟨.lock, rfl⟩) taken
  | tryLock tid => exact call_exact sound (Or.inr ⟨.tryLock, rfl⟩) taken
  | unlock tid => exact call_exact sound (Or.inl ⟨rfl, contract⟩) taken
  | result tid code =>
      rw [perform, State.result] at taken
      cases place : state.pcs tid with
      | idle | counting _ | asserting | uncounting | unlocking =>
          rw [place] at taken
          cases taken
      | trying call =>
          rw [place] at taken
          exact tried_exact sound place contract taken
      | locking =>
          rw [place] at taken
          exact locked_exact sound place contract (recognised place) taken
  | advance tid => exact advance_exact sound taken

end Steps

theorem reachable_exact {state : State}
    (reached : Runs.Reachable recursiveMutex RecognisedErrors state) : Exact state := by
  apply reached.invariant
  · intro current initial
    exact initial ▸ initial_exact
  · intro current action next _reached before permitted taken
    change (if current.aborted then none else perform current action) = some next at taken
    rw [before.running] at taken
    exact perform_exact before permitted taken

theorem Exact.quiet_counted {state : State} (sound : Exact state) (quiet : state.Quiet) :
    state.lockCount.toInt = state.mutex.depth := by
  cases held : state.mutex with
  | free =>
      have zero := sound.free (by rw [held, PthreadMutex.depth])
      rw [zero]
      rfl
  | held owner nested =>
      have level : state.mutex.level owner = nested + 1 := by
        rw [held]
        exact if_pos rfl
      have counted := (sound.threads owner).counted (by omega)
      rw [quiet owner, level] at counted
      change state.lockCount.toInt + 0 = _ at counted
      change _ = ((nested + 1 : Nat) : Int)
      omega

/-- The counter is right, and so is every `lock` that returns, as long as
`pthread_mutex_lock` returns zero or an error that `lock` throws. -/
theorem lock_count_exact {state : State}
    (reached : Runs.Reachable recursiveMutex RecognisedErrors state) :
    (∀ tid before after, .lock tid before after ∈ state.returned → after = before + 1) ∧
      (state.Quiet → state.lockCount.toInt = state.mutex.depth) ∧ state.aborted = false := by
  have sound := reachable_exact reached
  refine ⟨?_, sound.quiet_counted, sound.running⟩
  intro tid before after returned
  exact sound.honest _ returned

theorem unrecognised_error_returns {state : State} {tid : Tid} {code : Int}
    (reached : Runs.Reachable recursiveMutex RecognisedErrors state)
    (place : state.pcs tid = .locking)
    (unknown : ¬ (code = 0 ∨ code = ebusy ∨ code = eperm ∨ code = edeadlk)) :
    ∃ next final level, recursiveMutex.step state (.result tid code) = some next ∧
      recursiveMutex.step next (.advance tid) = some final ∧
      .lock tid level level ∈ final.returned := by
  have sound := reachable_exact reached
  have since := (sound.threads tid).since
  rw [place] at since
  have failed : code ≠ 0 := fun success => unknown (Or.inl success)
  have unfiltered : ¬ (code = ebusy ∨ code = eperm ∨ code = edeadlk) :=
    fun thrown => unknown (Or.inr thrown)
  have counts : perform state (.result tid code) = some (state.setPc tid (.counting .lock)) := by
    rw [perform, State.result, place]
    dsimp only
    rw [State.locked, if_neg failed, if_neg unfiltered]
  have returns : (state.setPc tid (.counting .lock)).advance tid =
      some ({ state.setPc tid (.counting .lock) with
        lockCount := state.lockCount + 1 }.complete tid .lock true) := by
    rw [State.advance, setPc_self]
    rfl
  refine ⟨state.setPc tid (.counting .lock), { state.setPc tid (.counting .lock) with
    lockCount := state.lockCount + 1 }.complete tid .lock true, state.mutex.level tid, ?_, ?_, ?_⟩
  · change (if state.aborted then none else _) = _
    rw [sound.running]
    exact counts
  · change (if state.aborted then none else _) = _
    rw [sound.running]
    exact returns
  · apply List.mem_cons.mpr
    left
    change Return.lock tid _ _ = Return.lock tid (state.entered tid) (state.mutex.level tid)
    rw [since]

instance (state : State) (action : Action) : Decidable (Contract state action) :=
  match action with
  | .lock _ | .tryLock _ | .advance _ => inferInstanceAs (Decidable True)
  | .unlock tid => inferInstanceAs (Decidable (0 < state.mutex.level tid))
  | .result _ code =>
      inferInstanceAs (Decidable (code = 0 → state.mutex.depth + 1 < 2147483648))

instance (state : State) (action : Action) : Decidable (Recognised state action) :=
  match action with
  | .lock _ | .tryLock _ | .advance _ | .unlock _ => inferInstanceAs (Decidable True)
  | .result tid code =>
      inferInstanceAs (Decidable (state.pcs tid = .locking →
        code = 0 ∨ code = ebusy ∨ code = eperm ∨ code = edeadlk))

instance (state : State) (action : Action) : Decidable (RecognisedErrors state action) :=
  inferInstanceAs (Decidable (Contract state action ∧ Recognised state action))

/-- A thread locks twice while another one waits, and the other one gets the mutex in
the end. -/
theorem lock_count_exact_nested :
    ∃ state, Runs.Reachable recursiveMutex RecognisedErrors state ∧
      .lock 0 1 2 ∈ state.returned ∧ .lock 1 0 1 ∈ state.returned ∧
      state.aborted = false := by
  obtain ⟨state, reached, passed⟩ := Runs.exists_of_replay RecognisedErrors
    (show recursiveMutex.initial State.initial from rfl)
    [.lock 0, .result 0 0, .advance 0, .lock 1, .result 1 ebusy, .lock 0, .result 0 0,
      .advance 0, .unlock 0, .advance 0, .advance 0, .advance 0, .unlock 0, .advance 0,
      .advance 0, .advance 0, .result 1 0, .advance 1]
    (fun state => decide (Return.lock 0 1 2 ∈ state.returned ∧
      Return.lock 1 0 1 ∈ state.returned))
    (by decide +kernel)
  obtain ⟨nested, waited⟩ := of_decide_eq_true passed
  exact ⟨state, reached, nested, waited, (lock_count_exact reached).2.2⟩

/-- `EAGAIN` from `pthread_mutex_lock` while another thread holds the mutex: `lock`
returns, and the counter is one too high. -/
theorem lock_count_after_eagain :
    ∃ state, Runs.Reachable recursiveMutex Contract state ∧
      .lock 1 0 0 ∈ state.returned ∧ state.lockCount.toInt = 2 ∧ state.mutex.depth = 1 ∧
      state.pcs 0 = .idle ∧ state.pcs 1 = .idle := by
  obtain ⟨state, reached, passed⟩ := Runs.exists_of_replay Contract
    (show recursiveMutex.initial State.initial from rfl)
    [.lock 0, .result 0 0, .advance 0, .lock 1, .result 1 ebusy, .result 1 11, .advance 1]
    (fun state => decide (Return.lock 1 0 0 ∈ state.returned ∧ state.lockCount.toInt = 2 ∧
      state.mutex.depth = 1 ∧ state.pcs 0 = Pc.idle ∧ state.pcs 1 = Pc.idle))
    (by decide +kernel)
  exact ⟨state, reached, of_decide_eq_true passed⟩

end BlueThread.RecursiveMutex
