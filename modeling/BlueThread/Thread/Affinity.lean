/-
The thread object of `thread.h` and `thread.cc`, and its CPU affinity.

Inside a member function the unqualified `get_tid()` is `ThreadBase::get_tid`,
which returns the field, and not the function of the same name that asks the
kernel. So `entry_wrapper` stores a zero over a zero, and every later test of `tid`
fails. Nothing stores `cpuid` either: the parameter of `set_cpu_affinity` hides the
field.
-/

import BlueThread.Foundation.Runs

namespace BlueThread.Thread

structure ThreadBase where
  tid : Int
  threadId : Nat
  threadName : String
  cpuid : Int
deriving DecidableEq

/-- The constructor. -/
def ThreadBase.new : ThreadBase :=
  { tid := 0
    threadId := 0
    threadName := ""
    cpuid := -1 }

def cpuSetsize : Int := 1024

def ValidCpu (cpuid : Int) : Prop := 0 ≤ cpuid ∧ cpuid < cpuSetsize

instance (cpuid : Int) : Decidable (ValidCpu cpuid) :=
  inferInstanceAs (Decidable (0 ≤ cpuid ∧ cpuid < cpuSetsize))

/-- `_set_cpu_affinity` on the calling thread, where `sched_setaffinity` succeeds:
the call of it that was made. -/
def setCpuAffinityOf (caller cpuid : Int) : List (Int × Int) :=
  if cpuid < 0 ∨ cpuSetsize ≤ cpuid then [] else [(caller, cpuid)]

namespace ThreadBase

def getTid (object : ThreadBase) : Int := object.tid

/-- `entry_wrapper` up to the call of `entry`. The result of `get_tid()` is stored if
it is positive. -/
def entryWrapper (object : ThreadBase) (caller : Int) : ThreadBase × List (Int × Int) :=
  let r := object.getTid
  let object := if 0 < r then { object with tid := r } else object
  (object,
    if object.tid ≠ 0 ∧ 0 ≤ object.cpuid then setCpuAffinityOf caller object.cpuid else [])

/-- `set_cpu_affinity`: the calls of `sched_setaffinity` that it makes. -/
def setCpuAffinity (object : ThreadBase) (caller cpuid : Int) : List (Int × Int) :=
  if cpuid < 0 ∨ cpuSetsize ≤ cpuid then []
  else if object.tid ≠ 0 ∧ object.getTid = object.tid then setCpuAffinityOf caller cpuid
  else []

end ThreadBase

/-- How far the thread of the object is; in `entry` it has an id from the kernel. -/
inductive Phase
  | absent
  | created
  | entry (kernel : Int)
  | ended
deriving DecidableEq

/-- The calls of `sched_setaffinity` are kept, with the thread and the processor, and the
latest valid request. -/
structure State where
  base : ThreadBase
  phase : Phase
  pinned : List (Int × Int)
  latest : Option Int
  aborted : Bool
deriving DecidableEq

inductive Action
  | setCpuAffinity (caller cpuid : Int)
  | create (name : String) (threadId : Nat) (result : Int)
  | start (kernel : Int)
  | finish
  | join
deriving DecidableEq

namespace State

def initial : State :=
  { base := ThreadBase.new
    phase := .absent
    pinned := []
    latest := none
    aborted := false }

def request (state : State) (caller cpuid : Int) : State :=
  { state with
    pinned := state.base.setCpuAffinity caller cpuid ++ state.pinned
    latest := if ValidCpu cpuid then some cpuid else state.latest }

def create (state : State) (name : String) (threadId : Nat) (result : Int) : State :=
  -- `ASSERT(strlen(thread_name) < 16)` and `ASSERT(r == 0)`
  if name.utf8ByteSize < 16 ∧ result = 0 then
    { state with
      base := { state.base with threadName := name, threadId := threadId }
      phase := .created }
  else { state with aborted := true }

def start (state : State) (kernel : Int) : State :=
  { state with
    base := (state.base.entryWrapper kernel).1
    phase := .entry kernel
    pinned := (state.base.entryWrapper kernel).2 ++ state.pinned }

def join (state : State) : State :=
  if state.base.threadId ≠ 0 then
    { state with base := { state.base with threadId := 0 }, phase := .absent }
  else { state with aborted := true }

def perform (state : State) : Action → Option State
  | .setCpuAffinity caller cpuid => some (state.request caller cpuid)
  | .create name threadId result =>
      if state.phase = .absent then some (state.create name threadId result) else none
  | .start kernel => if state.phase = .created then some (state.start kernel) else none
  | .finish =>
      match state.phase with
      | .entry _ => some { state with phase := .ended }
      | _ => none
  | .join => if state.phase = .ended then some state.join else none

/-- The processor that a thread was last bound to through the object. -/
def lastOn (state : State) (kernel : Int) : Option Int :=
  (state.pinned.find? fun call => call.1 = kernel).map Prod.snd

/-- Inside `entry`: the latest request is in effect, and the object knows its thread. -/
def Effective (state : State) (kernel : Int) : Prop :=
  (∀ cpuid, state.latest = some cpuid → state.lastOn kernel = some cpuid) ∧
    state.base.getTid = kernel

end State

def threadBase : Runs.System State Action where
  initial state := state = State.initial
  step state action := if state.aborted then none else state.perform action

/-- Requests come before `create`, or from inside `entry`. Thread ids are positive. -/
def Requests (state : State) : Action → Prop
  | .setCpuAffinity caller _ => state.phase = .absent ∨ state.phase = .entry caller
  | .start kernel => 0 < kernel
  | _ => True

/-- What no call changes: the object has no thread id and no processor, and no call
binds a thread. -/
structure Unbound (state : State) : Prop where
  tid : state.base.tid = 0
  cpuid : state.base.cpuid = -1
  pinned : state.pinned = []
  positive : ∀ kernel, state.phase = .entry kernel → 0 < kernel

theorem Unbound.request {state : State} (unbound : Unbound state) (caller cpuid : Int) :
    Unbound (state.request caller cpuid) := by
  refine ⟨unbound.tid, unbound.cpuid, ?_, unbound.positive⟩
  have ignored : state.base.setCpuAffinity caller cpuid = [] := by
    rw [ThreadBase.setCpuAffinity]
    by_cases invalid : cpuid < 0 ∨ cpuSetsize ≤ cpuid
    · exact if_pos invalid
    · rw [if_neg invalid]
      apply if_neg
      intro known
      exact known.1 unbound.tid
  change state.base.setCpuAffinity caller cpuid ++ state.pinned = []
  rw [ignored, unbound.pinned]
  rfl

theorem Unbound.create {state : State} (unbound : Unbound state) (name : String)
    (threadId : Nat) (result : Int) : Unbound (state.create name threadId result) := by
  rw [State.create]
  by_cases succeeded : name.utf8ByteSize < 16 ∧ result = 0
  · rw [if_pos succeeded]
    refine ⟨unbound.tid, unbound.cpuid, unbound.pinned, ?_⟩
    intro kernel inside
    cases inside
  · rw [if_neg succeeded]
    exact ⟨unbound.tid, unbound.cpuid, unbound.pinned, unbound.positive⟩

theorem Unbound.entryWrapper {state : State} (unbound : Unbound state) (kernel : Int) :
    state.base.entryWrapper kernel = (state.base, []) := by
  have unknown : ¬ 0 < state.base.getTid := by
    rw [ThreadBase.getTid, unbound.tid]
    exact Int.lt_irrefl 0
  have untested : ¬ (state.base.tid ≠ 0 ∧ 0 ≤ state.base.cpuid) :=
    fun known => known.1 unbound.tid
  simp only [ThreadBase.entryWrapper, if_neg unknown, if_neg untested]

theorem Unbound.start {state : State} (unbound : Unbound state) {kernel : Int}
    (positive : 0 < kernel) : Unbound (state.start kernel) := by
  rw [State.start, unbound.entryWrapper kernel]
  refine ⟨unbound.tid, unbound.cpuid, unbound.pinned, ?_⟩
  intro other inside
  cases inside
  exact positive

theorem Unbound.join {state : State} (unbound : Unbound state) : Unbound state.join := by
  rw [State.join]
  by_cases running : state.base.threadId ≠ 0
  · rw [if_pos running]
    refine ⟨unbound.tid, unbound.cpuid, unbound.pinned, ?_⟩
    intro kernel inside
    cases inside
  · rw [if_neg running]
    exact ⟨unbound.tid, unbound.cpuid, unbound.pinned, unbound.positive⟩

theorem Unbound.perform {state next : State} (unbound : Unbound state) {action : Action}
    (permitted : Requests state action) (taken : state.perform action = some next) :
    Unbound next := by
  cases action with
  | setCpuAffinity caller cpuid =>
      cases taken
      exact unbound.request caller cpuid
  | create name threadId result =>
      rw [State.perform, Option.ite_none_right_eq_some] at taken
      cases taken.2
      exact unbound.create name threadId result
  | start kernel =>
      rw [State.perform, Option.ite_none_right_eq_some] at taken
      cases taken.2
      exact unbound.start permitted
  | finish =>
      rw [State.perform] at taken
      generalize state.phase = phase at taken
      cases phase with
      | entry kernel =>
          cases taken
          refine ⟨unbound.tid, unbound.cpuid, unbound.pinned, ?_⟩
          intro other inside
          cases inside
      | absent | created | ended => cases taken
  | join =>
      rw [State.perform, Option.ite_none_right_eq_some] at taken
      cases taken.2
      exact unbound.join

theorem reachable_unbound {state : State} (reached : Runs.Reachable threadBase Requests state) :
    Unbound state := by
  apply reached.invariant
  · intro current initial
    rw [initial]
    refine ⟨rfl, rfl, rfl, ?_⟩
    intro kernel inside
    cases inside
  · intro current action next _reached unbound permitted taken
    change (if current.aborted then none else current.perform action) = some next at taken
    rw [Option.ite_none_left_eq_some] at taken
    exact unbound.perform permitted taken.2

/-- No request ever takes effect, and no thread is known to its object. -/
theorem affinity_never_effective {state : State} {kernel : Int}
    (reached : Runs.Reachable threadBase Requests state)
    (inside : state.phase = .entry kernel) :
    (∀ cpuid, state.latest = some cpuid → state.lastOn kernel ≠ some cpuid) ∧
      state.base.getTid ≠ kernel ∧ ¬ state.Effective kernel := by
  have unbound := reachable_unbound reached
  have positive := unbound.positive kernel inside
  have unknown : state.base.getTid ≠ kernel := by
    rw [ThreadBase.getTid, unbound.tid]
    omega
  refine ⟨?_, unknown, fun effective => unknown effective.2⟩
  intro cpuid _requested
  rw [State.lastOn, unbound.pinned]
  intro bound
  cases bound

instance (state : State) (action : Action) : Decidable (Requests state action) :=
  match action with
  | .setCpuAffinity caller _ =>
      inferInstanceAs (Decidable (state.phase = .absent ∨ state.phase = .entry caller))
  | .start kernel => inferInstanceAs (Decidable (0 < kernel))
  | .create _ _ _ | .finish | .join => inferInstanceAs (Decidable True)

/-- One request before `create` and one from inside `entry`. -/
theorem affinity_never_effective_twice :
    ∃ state, Runs.Reachable threadBase Requests state ∧ state.phase = .entry 42 ∧
      state.latest = some 5 ∧ state.lastOn 42 ≠ some 5 ∧ state.base.getTid ≠ 42 := by
  obtain ⟨state, reached, passed⟩ := Runs.exists_of_replay Requests
    (show threadBase.initial State.initial from rfl)
    [.setCpuAffinity 7 3, .create "worker" 1 0, .start 42, .setCpuAffinity 42 5]
    (fun state => decide (state.phase = Phase.entry 42 ∧ state.latest = some 5))
    (by decide +kernel)
  obtain ⟨inside, requested⟩ := of_decide_eq_true passed
  obtain ⟨ignored, unknown, _ineffective⟩ := affinity_never_effective reached inside
  exact ⟨state, reached, inside, requested, ignored 5 requested, unknown⟩

/-- A request for the fourth processor before `create`: `entry` starts on a thread that
was never bound. -/
theorem affinity_request_ignored :
    ∃ state, Runs.Reachable threadBase Requests state ∧ state.phase = .entry 42 ∧
      state.latest = some 3 ∧ state.pinned = [] ∧ state.base.getTid = 0 ∧
      ¬ state.Effective 42 := by
  obtain ⟨state, reached, passed⟩ := Runs.exists_of_replay Requests
    (show threadBase.initial State.initial from rfl)
    [.setCpuAffinity 7 3, .create "worker" 1 0, .start 42]
    (fun state => decide (state.phase = Phase.entry 42 ∧ state.latest = some 3 ∧
      state.pinned = [] ∧ state.base.getTid = 0))
    (by decide +kernel)
  obtain ⟨inside, requested, unbound, unknown⟩ := of_decide_eq_true passed
  refine ⟨state, reached, inside, requested, unbound, unknown, ?_⟩
  intro effective
  have known := effective.2
  omega

end BlueThread.Thread
