/-
The checker as the guard of a lock hierarchy.

A hierarchy numbers the names of the locks, and a thread obeys it if it blocks only
for locks with a greater number than all it owns. The checker knows no numbers. A
record is kept beside the program of every order that a blocking request asked for,
until the last lock with one of the two names is gone. A request is then refused
exactly when no hierarchy is left that the recorded requests obey, this one
included.
-/

import BlueThread.Locks.HeldLocks
import BlueThread.Locks.Names

namespace BlueThread.Locks

open Lockdep Relation BlueThread.Digraph

/-! ### Requests on record -/

def State.ownedNames (state : State) (tid : Tid) : List Name :=
  (state.objects.filter fun object => decide (object.Checked ∧ object.OwnedBy tid)).map
    LockObject.lockName

/-- A blocking request asks for the lock after everything that the thread owns. -/
def State.asked (state : State) (tid : Tid) (lock : Nat) : List (Name × Name) :=
  match state.object? lock with
  | some object =>
      if object.lockdep then (state.ownedNames tid).map fun held => (held, object.lockName)
      else []
  | none => []

def State.LastNamed (state : State) (lock : Nat) (object : LockObject) : Prop :=
  object.lockdep = true ∧ ∀ other < state.objects.length, other ≠ lock →
    ∀ one ∈ state.objects[other]?, one.Checked → one.lockName ≠ object.lockName

instance (state : State) (lock : Nat) (object : LockObject) :
    Decidable (state.LastNamed lock object) :=
  inferInstanceAs (Decidable (_ ∧ ∀ other < state.objects.length, other ≠ lock →
    ∀ one ∈ state.objects[other]?, one.Checked → one.lockName ≠ object.lockName))

/-- A request is the name that was owned and the name that was asked for. -/
structure Watch where
  locks : State
  requests : List (Name × Name)

namespace Watch

def requestsAfter (watch : Watch) : Action → List (Name × Name)
  | .lock tid lock _ => watch.locks.asked tid lock ++ watch.requests
  | .lockShared tid lock _ => watch.locks.asked tid lock ++ watch.requests
  | .destroy lock =>
      match watch.locks.object? lock with
      | some object =>
          if watch.locks.LastNamed lock object then
            watch.requests.filter fun request =>
              decide (request.1 ≠ object.lockName ∧ request.2 ≠ object.lockName)
          else watch.requests
      | none => watch.requests
  | _ => watch.requests

def step (watch : Watch) (action : Action) : Option Watch :=
  (Locks.step watch.locks action).map fun next =>
    { locks := next
      requests := watch.requestsAfter action }

/-- The numbers of a hierarchy grow along every request on record. -/
def Obeys (watch : Watch) (level : Name → Nat) : Prop :=
  ∀ request ∈ watch.requests, level request.1 < level request.2

end Watch

def watches : Runs.System Watch Action where
  initial watch := ∃ threads, watch = ⟨State.initial threads, []⟩
  step := Watch.step

/-- Locks are used as `Contract` says, no thread gives back one of two owned
namesakes, and names have no NUL. -/
def ClassUse (watch : Watch) (action : Action) : Prop :=
  (Contract watch.locks action ∧ NoTwinUnlock watch.locks action) ∧ CleanNames action

instance (watch : Watch) (action : Action) : Decidable (ClassUse watch action) :=
  inferInstanceAs (Decidable (_ ∧ _))

/-- `lock` or `lock_shared`. -/
def Action.Requests : Action → Prop
  | .lock _ _ _ => True
  | .lockShared _ _ _ => True
  | _ => False

/-! ### The record is the order of the checker -/

section Names

variable {state next : State} {action : Action} {tid : Tid} {lock : Nat} {object : LockObject}

theorem mem_ownedNames {name : Name} :
    name ∈ state.ownedNames tid ↔
      ∃ (lock : Nat) (object : LockObject), state.objects[lock]? = some object ∧
        object.Checked ∧ object.OwnedBy tid ∧ object.lockName = name := by
  simp only [State.ownedNames, List.mem_map, List.mem_filter, decide_eq_true_eq]
  constructor
  · rintro ⟨object, ⟨member, checked, owned⟩, same⟩
    obtain ⟨lock, found⟩ := List.mem_iff_getElem?.mp member
    exact ⟨lock, object, found, checked, owned, same⟩
  · rintro ⟨lock, object, found, checked, owned, same⟩
    exact ⟨object, ⟨List.mem_of_getElem? found, checked, owned⟩, same⟩

theorem Named.held_iff (named : Named state) (precise : Precise state)
    (idle : state.threads[tid]? = some .idle) (name : Name) :
    (∃ trace, state.tables.names.held tid name trace) ↔ name ∈ state.ownedNames tid := by
  have accurate := precise.heldAccurate named.consistent idle
  rw [mem_ownedNames]
  constructor
  · rintro ⟨trace, id, stored, entry⟩
    have held := (OrderedMap.mem_keys_iff _ id).mpr ⟨trace, entry⟩
    obtain ⟨lock, object, found, checked, owned, atId⟩ := (accurate id).mp held
    have label := named.named lock id object found checked atId
    exact ⟨lock, object, found, checked, owned, Option.some.inj (label.symm.trans stored)⟩
  · rintro ⟨lock, object, found, checked, owned, rfl⟩
    obtain ⟨id, atId, stored⟩ := named.label found checked
    have held := (accurate id).mpr ⟨lock, object, found, checked, owned, atId⟩
    obtain ⟨trace, entry⟩ := (OrderedMap.mem_keys_iff _ id).mp held
    exact ⟨trace, id, stored, entry⟩

theorem Named.acyclic_names (named : Named state) : Acyclic state.tables.names.follows := by
  intro name cycle
  obtain ⟨other, ⟨id, second, stored, _, _⟩, _⟩ := TransGen.head'_iff.mp cycle
  exact named.consistent.order.acyclic id
    ((named.labelled.names_path named.consistent.order stored stored).mp cycle)

theorem follows_kept (named : Named state) (unused : DestroysUnused state action)
    (clean : CleanNames action) (other : ¬action.Requests)
    (stays : ∀ lock, action ≠ .destroy lock) (taken : step state action = some next) :
    next.tables.names.follows = state.tables.names.follows := by
  have reading := step_byName named unused clean
  rw [taken, NamedState.step, Option.map_some, eq_comm, Option.ite_none_left_eq_some] at reading
  have order : ∀ {result : NamedState}, state.byName.stepLive action = some result →
      result.order.follows = state.tables.names.follows := by
    intro result done
    have shell (shells : Option State)
        (mapped : shells.map state.byName.withShell = some result) :
        result.order.follows = state.tables.names.follows := by
      obtain ⟨one, _, rfl⟩ := Option.map_eq_some_iff.mp mapped
      rfl
    cases action with
    | lock tid lock trace => exact absurd trivial other
    | lockShared tid lock trace => exact absurd trivial other
    | destroy lock => exact absurd rfl (stays lock)
    | create kind name lockdep =>
        cases lockdep with
        | true =>
            rw [NamedState.stepLive, Option.some.injEq] at done
            subst done
            rw [NamedState.create]
            split <;> rfl
        | false => exact shell (Locks.stepLive state.shell (.create kind name false)) done
    | advance tid trace =>
        rw [NamedState.stepLive] at done
        obtain ⟨pc, _, targeted⟩ := Option.bind_eq_some_iff.mp done
        obtain ⟨object, _, advanced⟩ := Option.bind_eq_some_iff.mp targeted
        cases pc with
        | locked lock mode =>
            cases advanced
            rfl
        | willUnlock lock =>
            cases advanced
            change NameOrder.follows (if object.lockdep = true then _ else _) = _
            split <;> rfl
        | _ =>
            simp only [NamedState.advance] at advanced
            exact shell _ advanced
    | tryLock tid lock => exact shell _ done
    | unlock tid lock => exact shell _ done
    | unlockShared tid lock => exact shell _ done
    | wait tid cond lock => exact shell _ done
    | wake tid => exact shell _ done
    | deadlockError tid => exact shell _ done
  exact order reading.2

theorem willLock_outcome {trace : BackTrace} {pc : Pc} (named : Named state)
    (running : state.aborted = false) (found : state.objects[lock]? = some object)
    (live : object.live = true) (taken : willLock state tid lock object trace pc = some next) :
    (object.lockdep = false ∧ next.aborted = false ∧
        next.tables.names.follows = state.tables.names.follows) ∨
      (object.lockdep = true ∧ state.tables.names.Conflict tid object.lockName ∧
        next.aborted = true) ∨
      (object.lockdep = true ∧ ¬state.tables.names.Conflict tid object.lockName ∧
        next.aborted = false ∧
        next.tables.names.follows =
          (state.tables.names.extend tid object.lockName).follows) := by
  have reading : (willLock state tid lock object trace pc).map State.byName =
      some (state.byName.willLock tid object.unnumbered pc) :=
    willLock_byName named found live trace
  rw [taken, Option.map_some, Option.some.injEq] at reading
  have aborted : next.aborted = (state.byName.willLock tid object.unnumbered pc).shell.aborted :=
    congrArg (fun one => one.shell.aborted) reading
  have follows : next.tables.names.follows =
      (state.byName.willLock tid object.unnumbered pc).order.follows :=
    congrArg (fun one => one.order.follows) reading
  cases lockdep : object.lockdep with
  | false =>
      rw [NamedState.willLock, if_neg (by
        change ¬object.lockdep = true
        rw [lockdep]
        exact Bool.false_ne_true)] at aborted follows
      exact Or.inl ⟨rfl, aborted.trans running, follows⟩
  | true =>
      by_cases conflict : state.tables.names.Conflict tid object.lockName
      · rw [state.byName.willLock_conflict object.unnumbered pc lockdep conflict] at aborted
        exact Or.inr (Or.inl ⟨rfl, conflict, aborted⟩)
      · rw [state.byName.willLock_clear object.unnumbered pc lockdep conflict] at aborted follows
        exact Or.inr (Or.inr ⟨rfl, conflict, aborted.trans running, follows⟩)

theorem request_willLock (requests : action.Requests) (taken : step state action = some next) :
    ∃ tid lock object trace pc, state.aborted = false ∧
      state.callee? tid lock = some object ∧
      willLock state tid lock object trace pc = some next ∧
      ∀ past, Watch.requestsAfter ⟨state, past⟩ action = state.asked tid lock ++ past := by
  rw [step, Option.ite_none_left_eq_some, Bool.not_eq_true] at taken
  obtain ⟨running, done⟩ := taken
  cases action with
  | lock tid lock trace =>
      obtain ⟨object, called, requested⟩ := Option.bind_eq_some_iff.mp done
      exact ⟨tid, lock, object, trace, _, running, called, requested, fun _ => rfl⟩
  | lockShared tid lock trace =>
      obtain ⟨object, called, requested⟩ := Option.bind_eq_some_iff.mp done
      rw [Option.ite_none_right_eq_some] at requested
      exact ⟨tid, lock, object, trace, _, running, called, requested.2, fun _ => rfl⟩
  | _ => cases requests

theorem mem_asked (called : state.callee? tid lock = some object)
    (lockdep : object.lockdep = true) {left right : Name} :
    (left, right) ∈ state.asked tid lock ↔
      left ∈ state.ownedNames tid ∧ right = object.lockName := by
  have present : state.object? lock = some object := by
    rw [State.callee?, Option.ite_none_right_eq_some] at called
    exact called.2
  rw [State.asked, present]
  dsimp only
  rw [if_pos lockdep, List.mem_map]
  constructor
  · rintro ⟨held, member, same⟩
    cases same
    exact ⟨member, rfl⟩
  · rintro ⟨member, rfl⟩
    exact ⟨left, member, rfl⟩

theorem asked_unchecked (called : state.callee? tid lock = some object)
    (lockdep : object.lockdep = false) : state.asked tid lock = [] := by
  have present : state.object? lock = some object := by
    rw [State.callee?, Option.ite_none_right_eq_some] at called
    exact called.2
  rw [State.asked, present]
  dsimp only
  rw [lockdep]
  rfl

theorem destroy_follows (named : Named state) (unused : DestroysUnused state (.destroy lock))
    (taken : step state (.destroy lock) = some next) (running : next.aborted = false) :
    ∃ object, state.object? lock = some object ∧
      next.tables.names.follows = if state.LastNamed lock object then
        (state.tables.names.forget object.lockName).follows else state.tables.names.follows := by
  have reading := step_byName named unused trivial
  rw [taken, NamedState.step, Option.map_some, eq_comm, Option.ite_none_left_eq_some] at reading
  obtain ⟨shell, present, done⟩ := Option.map_eq_some_iff.mp reading.2
  rw [State.byName_shell, shell_object?] at present
  obtain ⟨object, found, rfl⟩ := Option.map_eq_some_iff.mp present
  refine ⟨object, found, ?_⟩
  have follows : next.tables.names.follows =
      (state.byName.destroy lock object.unnumbered).order.follows :=
    congrArg (fun one => one.order.follows) done.symm
  have flag : (Locks.destroy state.shell lock object.unnumbered).aborted = false := by
    have same := congrArg (fun one => one.shell.aborted) done
    change _ = next.aborted at same
    rw [running, NamedState.destroy] at same
    split at same
    · exact same
    · exact same
  have last : state.LastNamed lock object ↔
      ((Locks.destroy state.byName.shell lock object.unnumbered).aborted = false ∧
        object.unnumbered.lockdep = true ∧
        ∀ other, other ≠ lock → ∀ one, state.byName.shell.objects[other]? = some one →
          one.Checked → one.lockName ≠ object.unnumbered.lockName) := by
    constructor
    · rintro ⟨lockdep, alone⟩
      refine ⟨flag, lockdep, ?_⟩
      intro other apart one atOther checked
      rw [State.byName_shell, shell_getElem?] at atOther
      obtain ⟨present, atPresent, rfl⟩ := Option.map_eq_some_iff.mp atOther
      exact alone other (List.getElem?_eq_some_iff.mp atPresent).1 apart present atPresent checked
    · rintro ⟨_, lockdep, alone⟩
      refine ⟨lockdep, ?_⟩
      intro other _ apart one atOther checked
      refine alone other apart one.unnumbered ?_ checked
      rw [State.byName_shell, shell_getElem?, atOther]
      rfl
  rw [follows, NamedState.destroy]
  by_cases final : state.LastNamed lock object
  · rw [if_pos final, if_pos (last.mp final)]
    rfl
  · rw [if_neg final, if_neg fun conditions => final (last.mpr conditions)]
    rfl

end Names

/-! ### Runs -/

theorem watches_locks {watch : Watch} (reached : Runs.Reachable watches ClassUse watch) :
    Runs.Reachable system
      (fun state action => (Contract state action ∧ NoTwinUnlock state action) ∧
        CleanNames action) watch.locks := by
  induction reached with
  | start initial =>
      obtain ⟨threads, rfl⟩ := initial
      exact .start ⟨threads, rfl⟩
  | next action before permitted taken ih =>
      obtain ⟨locks, stepped, rfl⟩ := Option.map_eq_some_iff.mp taken
      exact .next action ih permitted stepped

theorem reachable_named {discipline : State → Action → Prop}
    (unused : ∀ state action, discipline state action → DestroysUnused state action)
    (clean : ∀ state action, discipline state action → CleanNames action) {state : State}
    (reached : Runs.Reachable system discipline state) : Named state := by
  apply reached.invariant
  · rintro current ⟨threads, rfl⟩
    exact Named.initial threads
  · intro current action following before named permitted taken
    exact named.step (step_effect named.consistent (unused current action permitted) taken)
      (clean current action permitted)

theorem watches_named {watch : Watch} (reached : Runs.Reachable watches ClassUse watch) :
    Named watch.locks :=
  reachable_named (fun _ _ permitted => permitted.1.1.destroysUnused)
    (fun _ _ permitted => permitted.2) (watches_locks reached)

theorem watches_precise {watch : Watch} (reached : Runs.Reachable watches ClassUse watch) :
    Precise watch.locks :=
  reachable_precise (fun _ _ permitted => permitted.1.1.destroysUnused)
    (fun _ _ _ permitted => permitted.1.2) (watches_locks reached)

def Watch.Agrees (watch : Watch) : Prop :=
  watch.locks.aborted = false → ∀ left right,
    watch.locks.tables.names.follows left right ↔ (left, right) ∈ watch.requests

section Runs

variable {watch : Watch} {action : Action} {next : State}

theorem Watch.Agrees.request (agrees : watch.Agrees) (named : Named watch.locks)
    (precise : Precise watch.locks) (requests : action.Requests)
    (taken : Locks.step watch.locks action = some next) :
    Watch.Agrees ⟨next, watch.requestsAfter action⟩ := by
  obtain ⟨tid, lock, object, trace, pc, running, called, requested, recorded⟩ :=
    request_willLock requests taken
  obtain ⟨idle, found, live⟩ := callee?_eq_some called
  intro alive left right
  change next.tables.names.follows left right ↔ (left, right) ∈ watch.requestsAfter action
  rw [show watch.requestsAfter action = watch.locks.asked tid lock ++ watch.requests from
    recorded watch.requests, List.mem_append]
  rcases willLock_outcome named running found live requested with
    ⟨unchecked, _, same⟩ | ⟨_, _, aborted⟩ | ⟨lockdep, _, _, same⟩
  · rw [same, asked_unchecked called unchecked, agrees running]
    simp
  · cases alive.symm.trans aborted
  · rw [same, mem_asked called lockdep, ← named.held_iff precise idle, ← agrees running, or_comm]
    rfl

theorem Watch.Agrees.destroy {lock : Nat} (agrees : watch.Agrees) (named : Named watch.locks)
    (unused : DestroysUnused watch.locks (.destroy lock))
    (running : watch.locks.aborted = false)
    (taken : Locks.step watch.locks (.destroy lock) = some next) :
    Watch.Agrees ⟨next, watch.requestsAfter (.destroy lock)⟩ := by
  intro alive left right
  obtain ⟨object, present, same⟩ := destroy_follows named unused taken alive
  change next.tables.names.follows left right ↔
    (left, right) ∈ watch.requestsAfter (.destroy lock)
  rw [same, Watch.requestsAfter, present]
  dsimp only
  by_cases last : watch.locks.LastNamed lock object
  · rw [if_pos last, if_pos last, List.mem_filter, decide_eq_true_eq, ← agrees running]
    rfl
  · rw [if_neg last, if_neg last]
    exact agrees running left right

theorem watches_agrees (reached : Runs.Reachable watches ClassUse watch) : watch.Agrees := by
  apply reached.invariant
  · rintro current ⟨threads, rfl⟩ _ left right
    constructor
    · rintro ⟨first, second, impossible, _⟩
      cases impossible
    · intro impossible
      cases impossible
  · intro current action following before agrees permitted taken
    have named := watches_named before
    obtain ⟨locks, stepped, rfl⟩ := Option.map_eq_some_iff.mp taken
    have running : current.locks.aborted = false := by
      rw [step, Option.ite_none_left_eq_some, Bool.not_eq_true] at stepped
      exact stepped.1
    have unused := permitted.1.1.destroysUnused
    have kept (other : ¬action.Requests) (stays : ∀ lock, action ≠ .destroy lock)
        (same : current.requestsAfter action = current.requests) :
        Watch.Agrees ⟨locks, current.requestsAfter action⟩ := by
      intro _ left right
      change locks.tables.names.follows left right ↔ (left, right) ∈ current.requestsAfter action
      rw [same, follows_kept named unused permitted.2 other stays stepped]
      exact agrees running left right
    cases action with
    | lock tid lock trace => exact agrees.request named (watches_precise before) trivial stepped
    | lockShared tid lock trace =>
        exact agrees.request named (watches_precise before) trivial stepped
    | destroy lock => exact agrees.destroy named unused running stepped
    | _ =>
        refine kept ?_ ?_ rfl
        · intro impossible
          cases impossible
        · intro lock impossible
          cases impossible

theorem Watch.Agrees.exists_level (agrees : watch.Agrees) (named : Named watch.locks)
    (running : watch.locks.aborted = false) : ∃ level, watch.Obeys level := by
  refine (exists_numbering_iff watch.requests).mpr ?_
  exact named.acyclic_names.mono fun left right => (agrees running left right).mpr

end Runs

/-- The checker refuses a blocking request exactly when no hierarchy is left that the
requests so far obey together with it. -/
theorem lock_hierarchy_exact {watch : Watch} (reached : Runs.Reachable watches ClassUse watch)
    (running : watch.locks.aborted = false) :
    (∃ level, watch.Obeys level) ∧
      ∀ action next, action.Requests → watch.step action = some next →
        (next.locks.aborted = true ↔ ¬∃ level, next.Obeys level) := by
  have named := watches_named reached
  have precise := watches_precise reached
  have agrees := watches_agrees reached
  refine ⟨agrees.exists_level named running, ?_⟩
  intro action next requests taken
  obtain ⟨locks, stepped, rfl⟩ := Option.map_eq_some_iff.mp taken
  obtain ⟨tid, lock, object, trace, pc, _, called, requested, recorded⟩ :=
    request_willLock requests stepped
  obtain ⟨idle, found, live⟩ := callee?_eq_some called
  have unused : DestroysUnused watch.locks action := by
    cases action with
    | destroy _ => cases requests
    | _ => trivial
  have clean : CleanNames action := by
    cases action with
    | create _ _ _ => cases requests
    | _ => trivial
  have granted : locks.aborted = false →
      ∃ level, Watch.Obeys ⟨locks, watch.requestsAfter action⟩ level := by
    intro alive
    have after : Named locks := named.step (step_effect named.consistent unused stepped) clean
    exact (agrees.request named precise requests stepped).exists_level after alive
  constructor
  · rintro aborted ⟨level, obeys⟩
    rcases willLock_outcome named running found live requested with
      ⟨_, alive, _⟩ | ⟨lockdep, ⟨other, since, held, conflict⟩, _⟩ | ⟨_, _, alive, _⟩
    · cases aborted.symm.trans alive
    · -- the lock is asked for after one that comes after it, or after itself
      have owned := (named.held_iff precise idle other).mp ⟨since, held⟩
      have acyclic := (exists_numbering_iff (watch.requestsAfter action)).mp ⟨level, obeys⟩
      have whole : watch.requestsAfter action = watch.locks.asked tid lock ++ watch.requests :=
        recorded watch.requests
      have closing : (other, object.lockName) ∈ watch.requestsAfter action := by
        rw [whole, List.mem_append]
        exact Or.inl ((mem_asked called lockdep).mpr ⟨owned, rfl⟩)
      rcases conflict with rfl | path
      · exact acyclic _ (.single closing)
      · refine acyclic other (TransGen.head closing ?_)
        refine TransGen.mono ?_ _ _ path
        intro left right edge
        rw [whole, List.mem_append]
        exact Or.inr ((agrees running left right).mp edge)
    · cases aborted.symm.trans alive
  · intro none
    by_contra alive
    exact none (granted (Bool.eq_false_iff.mpr alive))

/-- One thread took the second mutex while it owned the first, and gave both back. A
thread that owns the second then asks for the first. -/
theorem lock_hierarchy_exact_reversed :
    ∃ watch next, Runs.Reachable watches ClassUse watch ∧ watch.requests = [([120], [121])] ∧
      watch.step (.lock 1 0 ⟨0, []⟩) = some next ∧ (∃ level, watch.Obeys level) ∧
      next.locks.aborted = true ∧ ¬∃ level, next.Obeys level := by
  obtain ⟨watch, reached, passed⟩ := Runs.exists_of_replay ClassUse
    (show watches.initial ⟨State.initial 2, []⟩ from ⟨2, rfl⟩)
    ([.create .mutex [120] true, .create .mutex [121] true] ++ lockRun 0 0 ++ lockRun 0 1 ++
      unlockRun 0 1 ++ unlockRun 0 0 ++ lockRun 1 1)
    (fun watch : Watch => decide (watch.locks.aborted = false ∧
        watch.requests = [([120], [121])]) &&
      (watch.step (.lock 1 0 ⟨0, []⟩)).any fun next : Watch => next.locks.aborted)
    (by decide +kernel)
  rw [Bool.and_eq_true, decide_eq_true_eq] at passed
  obtain ⟨⟨running, requests⟩, refuses⟩ := passed
  obtain ⟨next, taken, refused⟩ := (Option.any_eq_true _ _).mp refuses
  obtain ⟨obeyed, decided⟩ := lock_hierarchy_exact reached running
  exact ⟨watch, next, reached, requests, taken, obeyed, refused,
    (decided (.lock 1 0 ⟨0, []⟩) next trivial taken).mp refused⟩

end BlueThread.Locks
