/-
Thread objects in a process with signals: `try_create`, `create`, `join`, `detach` and
`kill` of `thread.cc`, and the signal masks of `utils.cc`.

Every pthread call is one step, and so is every access of `thread_id`. A new thread
starts with the mask of its creator. A signal for a thread waits until the thread does
not block it. The system hands out the identities of threads and may use those again
that were joined, or that ended detached. What cannot be blocked is a parameter.
-/

import BlueThread.Foundation.Population
import BlueThread.Foundation.Runs
import BlueThread.Thread.Affinity

namespace BlueThread.Thread.Process

/-- What a thread blocks. -/
abbrev Mask := Nat → Bool

section Masks

variable (blockable : Mask)

/-- `block_all_signals`: the mask after it. -/
def blockAllSignals (mask : Mask) : Mask := fun signal => mask signal || blockable signal

/-- `restore_signals`: the mask after it. What cannot be blocked is left out silently. -/
def restoreSignals (oldSigmask : Mask) : Mask := fun signal => oldSigmask signal && blockable signal

end Masks

/-- Where a thread is in the members of a thread object: after `block_all_signals` in
`try_create`, after `pthread_create`, in the assertion of `create` that failed, in `kill`
with what it read from `thread_id`, in `pthread_join`, or before `thread_id = 0`. -/
inductive Place
  | outside
  | blocked (object : Nat) (oldSigmask : Mask)
  | created (object : Nat) (oldSigmask : Mask) (result : Int)
  | failed (object : Nat)
  | killing (object threadId signal : Nat)
  | joining (object threadId : Nat)
  | joined (object : Nat)

/-- A thread with its `pthread_t`, which may be handed out again once it is reaped, and the
object that created it. `asked` is the mask that it was born with or that its own code
set last, which makes it `adjusted`. -/
structure PThread where
  self : Nat
  mask : Mask
  pending : List Nat
  place : Place
  ended : Bool
  detached : Bool
  reaped : Bool
  origin : Option Nat
  asked : Mask
  adjusted : Bool

/-- A thread at the start of its code. -/
def PThread.new (self : Nat) (mask : Mask) (origin : Option Nat) : PThread :=
  { self := self
    mask := mask
    pending := []
    place := .outside
    ended := false
    detached := false
    reaped := false
    origin := origin
    asked := mask
    adjusted := false }

/-- `latest` is the thread that an object created last. The signals that were handled are
kept with the threads as they were then, those that `kill` sent with the object and the
thread that got them. -/
structure State where
  threads : List PThread
  objects : List ThreadBase
  latest : Nat → Option Nat
  handled : List (PThread × Nat)
  sent : List (Nat × Option Nat)
  aborted : Bool

/-- `create` goes up to the end of `block_all_signals`, and `restore` includes the assertion
behind it; `pthreadCreate` has what the call stores and returns. A thread's own code may
set its mask, and a signal may come from anywhere. -/
inductive Action
  | sigmask (tid : Nat) (mask : Mask)
  | create (tid object : Nat) (name : String)
  | pthreadCreate (tid threadId : Nat) (result : Int)
  | restore (tid : Nat)
  | kill (tid object signal : Nat)
  | pthreadKill (tid : Nat)
  | join (tid object : Nat)
  | pthreadJoin (tid : Nat)
  | clearThreadId (tid : Nat)
  | detach (tid object : Nat)
  | signal (tid signal : Nat)
  | handle (tid signal : Nat)
  | finish (tid : Nat)

namespace State

variable (state : State)

def setThread (tid : Nat) (thread : PThread) : State :=
  { state with threads := state.threads.set tid thread }

def setThreadId (object threadId : Nat) : State :=
  { state with objects := state.objects.modify object fun base =>
      { base with threadId := threadId } }

/-- The thread that an identity names. -/
def find? (threadId : Nat) : Option Nat :=
  state.threads.findIdx? fun thread => thread.self == threadId && !thread.reaped

def caller? (tid : Nat) : Option PThread :=
  match state.threads[tid]? with
  | some thread =>
      match thread.ended, thread.place with
      | false, .outside => some thread
      | _, _ => none
  | none => none

/-- `pthread_create`, which stores the identity before it returns. -/
def pthreadCreate (tid threadId : Nat) (result : Int) (thread : PThread) (object : Nat)
    (oldSigmask : Mask) : State :=
  let after := (state.setThread tid { thread with place := .created object oldSigmask result })
    |>.setThreadId object threadId
  if result = 0 then
    { after with
      threads := after.threads ++ [.new threadId thread.mask (some object)]
      latest := Function.update after.latest object (some after.threads.length) }
  else after

/-- `pthread_kill`; an identity that names no thread is a stray one. -/
def pthreadKill (tid : Nat) (thread : PThread) (object threadId signal : Nat) : State :=
  let after := state.setThread tid { thread with place := .outside }
  match state.find? threadId with
  | some other =>
      { after with
        threads := after.threads.modify other fun one =>
          { one with pending := one.pending ++ [signal] }
        sent := (object, some other) :: after.sent }
  | none => { after with sent := (object, none) :: after.sent }

/-- `pthread_join` once the thread has ended. It fails for an identity that names no
thread, for a detached thread and for the caller, and `join` asserts that it does not. -/
def pthreadJoin (tid : Nat) (thread : PThread) (object threadId : Nat) : Option State :=
  match state.find? threadId with
  | some other =>
      match state.threads[other]? with
      | some target =>
          if target.detached = true ∨ other = tid then some { state with aborted := true }
          else if target.ended then
            let after := state.setThread tid { thread with place := .joined object }
            some { after with threads := after.threads.modify other fun one =>
              { one with reaped := true } }
          else none
      | none => none
  | none => some { state with aborted := true }

end State

theorem caller?_eq_some {state : State} {tid : Nat} {thread : PThread}
    (called : state.caller? tid = some thread) :
    state.threads[tid]? = some thread ∧ thread.ended = false ∧ thread.place = .outside := by
  unfold State.caller? at called
  split at called
  · rename_i one found
    split at called
    · rename_i living outside
      cases called
      exact ⟨found, living, outside⟩
    · cases called
  · cases called

variable (blockable : Mask)

def stepLive (state : State) : Action → Option State
  | .sigmask tid mask =>
      (state.caller? tid).map fun thread =>
        state.setThread tid
          { thread with
            mask := restoreSignals blockable mask
            asked := restoreSignals blockable mask
            adjusted := true }
  | .create tid object name =>
      (state.caller? tid).bind fun thread =>
        (state.objects[object]?).map fun base =>
          -- `ASSERT(strlen(thread_name) < 16)`
          if name.utf8ByteSize < 16 then
            { state.setThread tid
                { thread with
                  mask := blockAllSignals blockable thread.mask
                  place := .blocked object thread.mask } with
              objects := state.objects.set object { base with threadName := name } }
          else { state with aborted := true }
  | .pthreadCreate tid threadId result =>
      (state.threads[tid]?).bind fun thread =>
        match thread.place with
        | .blocked object oldSigmask =>
            some (state.pthreadCreate tid threadId result thread object oldSigmask)
        | _ => none
  | .restore tid =>
      (state.threads[tid]?).bind fun thread =>
        match thread.place with
        | .created object oldSigmask result =>
            some
              { state.setThread tid
                  { thread with
                    mask := restoreSignals blockable oldSigmask
                    place := if result = 0 then .outside else .failed object } with
                -- `ASSERT(r == 0)`
                aborted := decide (result ≠ 0) }
        | _ => none
  | .kill tid object signal =>
      (state.caller? tid).bind fun thread =>
        (state.objects[object]?).map fun base =>
          if base.threadId ≠ 0 then
            state.setThread tid { thread with place := .killing object base.threadId signal }
          -- `-EINVAL`
          else state
  | .pthreadKill tid =>
      (state.threads[tid]?).bind fun thread =>
        match thread.place with
        | .killing object threadId signal =>
            some (state.pthreadKill tid thread object threadId signal)
        | _ => none
  | .join tid object =>
      (state.caller? tid).bind fun thread =>
        (state.objects[object]?).map fun base =>
          -- `ASSERT(thread_id != 0)`
          if base.threadId ≠ 0 then
            state.setThread tid { thread with place := .joining object base.threadId }
          else { state with aborted := true }
  | .pthreadJoin tid =>
      (state.threads[tid]?).bind fun thread =>
        match thread.place with
        | .joining object threadId => state.pthreadJoin tid thread object threadId
        | _ => none
  | .clearThreadId tid =>
      (state.threads[tid]?).bind fun thread =>
        match thread.place with
        | .joined object =>
            some ((state.setThread tid { thread with place := .outside }).setThreadId object 0)
        | _ => none
  | .detach tid object =>
      (state.caller? tid).bind fun _ =>
        (state.objects[object]?).map fun base =>
          match state.find? base.threadId with
          | some other =>
              { state with threads := state.threads.modify other fun one =>
                  { one with detached := true, reaped := one.reaped || one.ended } }
          | none => state
  | .signal tid signal =>
      (state.threads[tid]?).map fun thread =>
        state.setThread tid { thread with pending := thread.pending ++ [signal] }
  | .handle tid signal =>
      (state.threads[tid]?).bind fun thread =>
        if thread.ended = false ∧ signal ∈ thread.pending ∧ thread.mask signal = false then
          some
            { state.setThread tid { thread with pending := thread.pending.erase signal } with
              handled := (thread, signal) :: state.handled }
        else none
  | .finish tid =>
      (state.caller? tid).map fun thread =>
        state.setThread tid { thread with ended := true, reaped := thread.reaped || thread.detached }

def step (state : State) (action : Action) : Option State :=
  if state.aborted then none else stepLive blockable state action

/-- A process with threads that no object created, and with objects that have created
nothing. -/
def processes : Runs.System State Action where
  initial state :=
    (∀ thread ∈ state.threads, ∃ self mask, thread = PThread.new self mask none ∧ self ≠ 0 ∧
      ∀ signal, mask signal = true → blockable signal = true) ∧
      (state.threads.map PThread.self).Nodup ∧
      (∀ base ∈ state.objects, base = ThreadBase.new) ∧ (∀ object, state.latest object = none) ∧
      state.handled = [] ∧ state.sent = [] ∧ state.aborted = false
  step := step blockable

end BlueThread.Thread.Process
