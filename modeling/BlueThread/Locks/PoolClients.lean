/-
Clients of the lock of a thread pool: `threadpool.h` and `threadpool.cc`.

An operation of the pool is a script of statements on `_lock` and on conditions,
over the lock objects of the other modules; the pool's mutex is the object 0 and
is not checked. Which way a test of the pool's own fields goes is left open, and
so is how long a join takes. The lock inside a queue is another object and is left
out. A thread keeps the operation that it is in, and what its calls so far mean for
the alternation of `lock` and `unlock`.
-/

import BlueThread.Locks.Model

namespace BlueThread.Locks

open Lockdep

def workCond : Nat := 0

def waitCond : Nat := 1

/-- What is done with `_lock` and the conditions. The constructor and the destructor of a
guard count as `lock` and `unlock`. `mayNotify` stands for
`if (_pause || _draining) _wait_cond.notify_all()`, `waitLoop` for the loop around
`_wait_cond.wait(ul)`, and `workerLoop` for `while (!_stop)` with the scan in its body. -/
inductive Statement
  | lock
  | unlock
  | assertLocked
  | notify (cond : Nat)
  | mayNotify
  | wait (cond : Nat)
  | waitLoop
  | workerLoop
  | workerScan
deriving DecidableEq

/-- The operations, where `waitLocked` is `_wait` and `wakeLocked` is `_wake`. A worker
is outside `_lock` while an item is processed, and may use the pool then; `worker`
is what it does from one such time to the next, or from its start. -/
inductive Operation
  | lock
  | unlock
  | wait (cond : Nat)
  | wake
  | waitLocked
  | wakeLocked
  | start
  | stop
  | pause
  | unpause
  | drain
  | addWorkQueue
  | removeWorkQueue
  | queue
  | queueFront
  | worker (processed : Bool)
deriving DecidableEq

namespace Operation

def body : Operation → List Statement
  | .lock => [.lock]
  | .unlock => [.unlock]
  -- the guard adopts the lock, and its destructor gives it back
  | .wait cond => [.wait cond, .unlock]
  | .wake => [.lock, .notify workCond, .unlock]
  | .waitLocked => [.wait workCond, .unlock]
  | .wakeLocked => [.notify workCond]
  | .start => [.lock, .assertLocked, .unlock]
  | .stop => [.lock, .notify workCond, .assertLocked, .unlock, .lock, .unlock]
  | .pause => [.lock, .waitLoop, .unlock]
  | .unpause => [.lock, .notify workCond, .unlock]
  | .drain => [.lock, .waitLoop, .unlock]
  | .addWorkQueue => [.lock, .unlock]
  | .removeWorkQueue => [.lock, .unlock]
  | .queue => [.lock, .notify workCond, .unlock]
  | .queueFront => [.lock, .notify workCond, .unlock]
  | .worker false => [.lock, .workerLoop, .unlock]
  | .worker true => [.lock, .mayNotify, .workerLoop, .unlock]

/-- Called between `lock` and `unlock`. -/
def inside : Operation → Bool
  | .unlock | .wait _ | .waitLocked | .wakeLocked => true
  | _ => false

def waits : Operation → Bool
  | .wait _ | .waitLocked => true
  | _ => false

end Operation

/-! ### Programs -/

/-- A thread: the operation it is in, the rest of it, and whether it owned `_lock` at
entry; whether it is between a `lock` and the next `unlock`; whether it has called
`wait` or `_wait`. -/
structure Caller where
  operation : Option Operation
  script : List Statement
  entered : Bool
  between : Bool
  waited : Bool
deriving DecidableEq

structure Program where
  locks : State
  callers : Tid → Caller

inductive ProgramAction
  | call (tid : Tid) (operation : Operation)
  | execute (tid : Tid) (holds : Bool) (trace : BackTrace)
  | return (tid : Tid)
  | advance (tid : Tid) (trace : BackTrace)
  | wake (tid : Tid)
  | deadlockError (tid : Tid)

def Caller.initial : Caller :=
  { operation := none
    script := []
    entered := false
    between := false
    waited := false }

/-- A pool, with its mutex, and a number of threads. -/
def Program.initial (lockName : Name) (threads : Nat) : Program :=
  { locks :=
      { State.initial threads with objects := [newObject .mutex lockName none false] }
    callers := fun _ => .initial }

namespace Caller

/-- The call of an operation. -/
def call (caller : Caller) (operation : Operation) (owns : Bool) : Caller :=
  { operation := some operation
    script := operation.body
    entered := owns
    between :=
      match operation with
      | .lock => true
      | .unlock => false
      | _ => caller.between
    waited := caller.waited || operation.waits }

def goTo (caller : Caller) (script : List Statement) : Caller := { caller with script := script }

end Caller

def State.isLocked (state : State) (lock : Nat) : Bool :=
  (state.object? lock).any fun object => 0 < object.lockedCount

/-- Whether the thread owns the pool's mutex. -/
def State.ownsPool (state : State) (tid : Tid) : Bool :=
  (state.object? 0).any fun object => object.owner = some tid

namespace Program

def setCaller (program : Program) (tid : Tid) (caller : Caller) : Program :=
  { program with callers := Function.update program.callers tid caller }

def enter (program : Program) (tid : Tid) (rest : List Statement) (action : Action) :
    Option Program :=
  (Locks.step program.locks action).map fun locks =>
    { locks := locks
      callers := Function.update program.callers tid ((program.callers tid).goTo rest) }

def goTo (program : Program) (tid : Tid) (script : List Statement) : Program :=
  program.setCaller tid ((program.callers tid).goTo script)

def require (program : Program) (tid : Tid) (rest : List Statement) (holds : Bool) : Program :=
  if holds then program.goTo tid rest else { program with locks := program.locks.abort }

/-- `notify_one` and `notify_all`, which assert that a mutex the condition knows is
locked. -/
def notify (program : Program) (tid : Tid) (rest : List Statement) (cond : Nat) : Program :=
  program.require tid rest <|
    match program.locks.waiterMutex cond with
    | none => true
    | some lock => program.locks.isLocked lock

def execute (program : Program) (tid : Tid) (holds : Bool) (trace : BackTrace)
    (rest : List Statement) : Statement → Option Program
  | .lock => program.enter tid rest (.lock tid 0 trace)
  | .unlock => program.enter tid rest (.unlock tid 0)
  | .wait cond => program.enter tid rest (.wait tid cond 0)
  | .assertLocked => some (program.require tid rest (program.locks.isLocked 0))
  | .notify cond => some (program.notify tid rest cond)
  | .mayNotify => some (program.goTo tid (if holds then .notify waitCond :: rest else rest))
  | .waitLoop =>
      some (program.goTo tid (if holds then .wait waitCond :: .waitLoop :: rest else rest))
  | .workerLoop =>
      some (program.goTo tid (if holds then .assertLocked :: .workerScan :: rest else rest))
  -- with an item, the worker unlocks and processes it
  | .workerScan =>
      some (program.goTo tid (if holds then rest else .wait workCond :: .workerLoop :: rest))

def progress (program : Program) (action : Action) : Option Program :=
  (Locks.step program.locks action).map fun locks => { program with locks := locks }

def step (program : Program) : ProgramAction → Option Program
  | .call tid operation =>
      if program.locks.aborted = false ∧ program.locks.threads[tid]? = some .idle ∧
          (program.callers tid).operation = none then
        some (program.setCaller tid
          ((program.callers tid).call operation (program.locks.ownsPool tid)))
      else none
  | .execute tid holds trace =>
      if program.locks.aborted = false ∧ program.locks.threads[tid]? = some .idle then
        match (program.callers tid).script with
        | [] => none
        | statement :: rest => program.execute tid holds trace rest statement
      else none
  | .return tid =>
      if program.locks.aborted = false ∧ program.locks.threads[tid]? = some .idle ∧
          (program.callers tid).script = [] then
        some (program.setCaller tid { program.callers tid with operation := none })
      else none
  | .advance tid trace => program.progress (.advance tid trace)
  | .wake tid => program.progress (.wake tid)
  | .deadlockError tid => program.progress (.deadlockError tid)

end Program

def programs : Runs.System Program ProgramAction where
  initial program := ∃ lockName threads, program = Program.initial lockName threads
  step := Program.step

/-- Threads alternate `lock` and `unlock`, call `wait`, `_wait` and `_wake` between
them, and everything else outside. -/
def Alternates (program : Program) : ProgramAction → Prop
  | .call tid operation => (program.callers tid).between = operation.inside
  | _ => True

/-- Nobody calls `wait` or `_wait`. -/
def NeverWaits : ProgramAction → Prop
  | .call _ operation => operation.waits = false
  | _ => True

/-- A thread that has called `wait` or `_wait` makes no call after it. -/
def EndsInWait (program : Program) : ProgramAction → Prop
  | .call tid _ => (program.callers tid).waited = false
  | _ => True

instance (program : Program) (action : ProgramAction) : Decidable (Alternates program action) :=
  match action with
  | .call tid operation =>
      inferInstanceAs (Decidable ((program.callers tid).between = operation.inside))
  | .execute _ _ _ | .return _ | .advance _ _ | .wake _ | .deadlockError _ =>
      inferInstanceAs (Decidable True)

instance (action : ProgramAction) : Decidable (NeverWaits action) :=
  match action with
  | .call _ operation => inferInstanceAs (Decidable (operation.waits = false))
  | .execute _ _ _ | .return _ | .advance _ _ | .wake _ | .deadlockError _ =>
      inferInstanceAs (Decidable True)

instance (program : Program) (action : ProgramAction) : Decidable (EndsInWait program action) :=
  match action with
  | .call tid _ => inferInstanceAs (Decidable ((program.callers tid).waited = false))
  | .execute _ _ _ | .return _ | .advance _ _ | .wake _ | .deadlockError _ =>
      inferInstanceAs (Decidable True)

/-- The operation is over, and what is left is to return. -/
def Program.Returns (program : Program) (tid : Tid) (operation : Operation) : Prop :=
  program.locks.threads[tid]? = some .idle ∧
    (program.callers tid).operation = some operation ∧ (program.callers tid).script = []

end BlueThread.Locks
