/-
The program with names in the place of identifiers.

A state is read by name: the objects lose their identifiers and the tables become
the relations of `Lockdep.Names`. On that reading the program is a transition
function of its own, which never asks what identifier a lock has, and every step
of the program is a step of that function.
-/

import BlueThread.Lockdep.Names
import BlueThread.Locks.Simulation

namespace BlueThread.Locks

open Lockdep LockProtocol

/-! ### Names as labels of objects -/

def CleanNames : Action → Prop
  | .create _ name true => 0 ∉ name
  | _ => True

instance (action : Action) : Decidable (CleanNames action) :=
  match action with
  | .create _ _ true => inferInstanceAs (Decidable (¬_))
  | .create _ _ false | .destroy _ | .lock _ _ _ | .tryLock _ _ | .lockShared _ _ _
  | .unlock _ _ | .unlockShared _ _ | .wait _ _ _ | .wake _ | .deadlockError _
  | .advance _ _ => inferInstanceAs (Decidable True)

structure Named (state : State) : Prop where
  consistent : Consistent state
  labelled : Labelled state.tables
  named : ∀ (lock id : Nat) (object : LockObject), state.objects[lock]? = some object →
    object.Checked → object.id = some id → state.tables.idToName id = some object.lockName

section Invariant

variable {state next : State} {action : Action}

theorem Named.initial (threads : Nat) : Named (State.initial threads) where
  consistent := Consistent.initial threads
  labelled :=
    { indexed := by
        intro id name atId
        cases atId
      held := by
        intro tid id held
        cases held }
  named lock id object found := by cases found

theorem Consistent.unheld_of_last (consistent : Consistent state) {lock id : Nat}
    {object : LockObject} (found : state.objects[lock]? = some object)
    (checked : object.Checked) (atId : object.id = some id)
    (unowned : ∀ other, ¬object.OwnedBy other)
    (untouched : ∀ (other : Tid) (pc : Pc), state.threads[other]? = some pc →
      pc.target ≠ some lock)
    (last : state.carriers id = 1) (tid : Tid) :
    id ∉ (state.tables.heldLocks tid).keys := by
  intro held
  have present := carriers_positive ⟨object, found, checked, atId⟩
  have effect : Effect state (.destroy lock) _ := .destroy found checked atId unowned untouched
  have gone := lockdepUnregister_idToName consistent.registry present id
  rw [if_pos ⟨last, rfl⟩] at gone
  have kept : id ∈ ((lockdepUnregister state.tables (some id)).heldLocks tid).keys := by
    rw [lockdepUnregister_held consistent.registry present]
    exact held
  have known : (lockdepUnregister state.tables (some id)).Registered id :=
    (effect.consistent consistent).held_registered kept
  rw [Tables.Registered, gone] at known
  cases known

theorem Effect.indexed (named : Named state) (effect : Effect state action next)
    (clean : CleanNames action) (id : Nat) (name : Name)
    (atId : next.tables.idToName id = some name) : next.tables.nameToId name = some id := by
  have indexed := named.labelled.indexed
  have registry := named.consistent.registry
  cases effect with
  | control waiters flag => exact indexed id name atId
  | update waiters found thread update =>
      obtain ⟨tree, traces, held, rfl⟩ := update.frame
      exact indexed id name atId
  | createUnchecked kind other => exact indexed id name atId
  | @create kind other tables fresh same registered =>
      subst same
      have labelled := lockdepRegisterHeld_labelled registry named.labelled
        (cStr_of_noNul clean) registered
      exact labelled.indexed id name atId
  | @createFailed other tables failed =>
      rcases lockdepRegisterHeld_maps registry failed with
        ⟨names, ids, _⟩ | ⟨fresh, impossible, _⟩
      · change tables.idToName id = some name at atId
        change tables.nameToId name = some id
        rw [names] at atId
        rw [ids]
        exact indexed id name atId
      · cases impossible
  | destroyUnchecked found unchecked unowned untouched => exact indexed id name atId
  | @destroy lock gone object found checked goneId unowned untouched =>
      have present := carriers_positive ⟨object, found, checked, goneId⟩
      have labelled := lockdepUnregister_labelled registry present named.labelled
        (named.consistent.unheld_of_last found checked goneId unowned untouched)
      exact labelled.indexed id name atId

theorem Named.step (named : Named state) (effect : Effect state action next)
    (clean : CleanNames action) : Named next := by
  have consistent := effect.consistent named.consistent
  refine ⟨consistent, ⟨effect.indexed named clean, ?_⟩,
    effect.labels named.consistent named.named ?_⟩
  · intro tid id held
    exact consistent.held_registered held
  · rintro kind name id rfl registered
    exact lockdepRegisterHeld_idToName named.consistent.registry (cStr_of_noNul clean) registered

theorem Named.label (named : Named state) {lock : Nat} {object : LockObject}
    (found : state.objects[lock]? = some object) (checked : object.Checked) :
    ∃ id, object.id = some id ∧ state.tables.idToName id = some object.lockName := by
  obtain ⟨id, atId⟩ := named.consistent.identified lock object found checked
  exact ⟨id, atId, named.named lock id object found checked atId⟩

theorem Named.carries_iff (named : Named state) {lock id : Nat} {name : Name}
    (atId : state.tables.idToName id = some name) :
    state.view.carries lock id ↔ ∃ object, state.objects[lock]? = some object ∧
      object.Checked ∧ object.lockName = name := by
  constructor
  · rintro ⟨object, found, checked, carried⟩
    have stored := named.named lock id object found checked carried
    exact ⟨object, found, checked, Option.some.inj (stored.symm.trans atId)⟩
  · rintro ⟨object, found, checked, rfl⟩
    obtain ⟨other, carried, stored⟩ := named.label found checked
    rw [named.labelled.unique atId stored]
    exact ⟨object, found, checked, carried⟩

end Invariant

/-! ### States without identifiers -/

def LockObject.unnumbered (object : LockObject) : LockObject := { object with id := none }

def State.shell (state : State) : State :=
  { state with
    tables := Tables.initial
    objects := state.objects.map LockObject.unnumbered }

structure NamedState where
  shell : State
  order : NameOrder

def State.byName (state : State) : NamedState := ⟨state.shell, state.tables.names⟩

@[simp] theorem State.byName_shell (state : State) : state.byName.shell = state.shell := rfl

namespace NamedState

variable (named : NamedState)

def withShell (shell : State) : NamedState := { named with shell := shell }

def liveNames : Finset Name :=
  ((named.shell.objects.filter fun object => object.Checked).map LockObject.lockName).toFinset

open Classical in
/-- The constructor throws when the name is new and as many names as there are
identifiers are in use. -/
noncomputable def create (kind : Kind) (name : Name) : NamedState :=
  if name ∉ named.liveNames ∧ named.liveNames.card = maxLocks then named
  else
    named.withShell
      { named.shell with objects := named.shell.objects ++ [newObject kind name none true] }

open Classical in
/-- The last live object with a name takes the name's history along. -/
noncomputable def destroy (lock : Nat) (object : LockObject) : NamedState :=
  let shell := Locks.destroy named.shell lock object
  if shell.aborted = false ∧ object.lockdep = true ∧
      ∀ other, other ≠ lock → ∀ one, named.shell.objects[other]? = some one → one.Checked →
        one.lockName ≠ object.lockName then
    { shell := shell
      order := named.order.forget object.lockName }
  else named.withShell shell

open Classical in
noncomputable def willLock (tid : Tid) (object : LockObject) (pc : Pc) : NamedState :=
  if object.lockdep = true then
    if named.order.Conflict tid object.lockName then named.withShell named.shell.abort
    else
      { shell := named.shell.setPc tid pc
        order := named.order.extend tid object.lockName }
  else named.withShell (named.shell.setPc tid pc)

theorem willLock_conflict {tid : Tid} (object : LockObject) (pc : Pc)
    (lockdep : object.lockdep = true) (conflict : named.order.Conflict tid object.lockName) :
    named.willLock tid object pc = named.withShell named.shell.abort := by
  rw [willLock, if_pos lockdep, if_pos conflict]

theorem willLock_clear {tid : Tid} (object : LockObject) (pc : Pc)
    (lockdep : object.lockdep = true) (clear : ¬named.order.Conflict tid object.lockName) :
    named.willLock tid object pc =
      { shell := named.shell.setPc tid pc
        order := named.order.extend tid object.lockName } := by
  rw [willLock, if_pos lockdep, if_neg clear]

noncomputable def advance (tid : Tid) (trace : BackTrace) (object : LockObject) :
    Pc → Option NamedState
  | .locked lock mode =>
      some
        { shell := named.shell.setPc tid
            (.ofBooks lock .finish (postLock object.kind mode object.lockdep))
          order := named.order.note tid object.lockName trace }
  | .willUnlock lock =>
      some
        { shell := named.shell.setPc tid (.unlocking lock)
          order :=
            if object.lockdep then named.order.drop tid object.lockName else named.order }
  | pc => (Locks.advance named.shell tid trace object pc).map named.withShell

noncomputable def stepLive : Action → Option NamedState
  | .create kind name true => some (named.create kind name)
  | .destroy lock => (named.shell.object? lock).map (named.destroy lock)
  | .lock tid lock _ =>
      (named.shell.callee? tid lock).bind fun object =>
        some <| named.willLock tid object <|
          match object.kind with
          | .mutex => .tryLock lock
          | .sharedMutex => .acquiring lock .exclusive
  | .lockShared tid lock _ =>
      (named.shell.callee? tid lock).bind fun object =>
        if object.kind = .sharedMutex then
          some (named.willLock tid object (.acquiring lock .shared))
        else none
  | .advance tid trace =>
      (named.shell.threads[tid]?).bind fun pc =>
        (pc.target.bind named.shell.object?).bind fun object => named.advance tid trace object pc
  | action => (Locks.stepLive named.shell action).map named.withShell

noncomputable def step (action : Action) : Option NamedState :=
  if named.shell.aborted then none else named.stepLive action

end NamedState

/-! ### Steps that only touch the shell -/

section Shell

variable (state : State) (tid lock : Nat) (object : LockObject)

theorem shell_threads : state.shell.threads = state.threads := rfl

theorem shell_setObject :
    (state.setObject lock object).shell = state.shell.setObject lock object.unnumbered := by
  unfold State.shell State.setObject
  rw [List.map_set]

theorem shell_replace (pc : Pc) :
    ((state.setObject lock object).setPc tid pc).shell =
      (state.shell.setObject lock object.unnumbered).setPc tid pc :=
  congrArg (fun shell => State.setPc shell tid pc) (shell_setObject state lock object)

theorem shell_getElem? :
    state.shell.objects[lock]? = (state.objects[lock]?).map LockObject.unnumbered :=
  List.getElem?_map

theorem shell_object? :
    state.shell.object? lock = (state.object? lock).map LockObject.unnumbered := by
  unfold State.object?
  rw [shell_getElem?]
  cases state.objects[lock]? with
  | none => rfl
  | some object =>
      change (if object.live = true then some object.unnumbered else none) = _
      simp only
      split <;> rfl

theorem shell_callee? :
    state.shell.callee? tid lock = (state.callee? tid lock).map LockObject.unnumbered := by
  unfold State.callee?
  rw [shell_object?]
  change (if state.threads[tid]? = some .idle then _ else _) = _
  split <;> rfl

theorem grantTo_unnumbered (mode : Mode) :
    grantTo object.unnumbered tid mode =
      (grantTo object tid mode).map LockObject.unnumbered := by
  cases mode with
  | exclusive =>
      change (if object.owner = none ∧ object.readers = [] then _ else _) = _
      rw [grantTo]
      split <;> rfl
  | shared =>
      change (if object.owner = none then _ else _) = _
      rw [grantTo]
      split <;> rfl

theorem releaseBy_unnumbered :
    releaseBy object.unnumbered tid = (releaseBy object tid).map LockObject.unnumbered := by
  change (if object.owner = some tid then _ else if tid ∈ object.readers then _ else _) = _
  rw [releaseBy]
  split
  · rfl
  · split <;> rfl

theorem Book.run_unnumbered (next : Book) (rest : List Book) :
    next.run tid object.unnumbered rest =
      (next.run tid object rest).map fun ran => (ran.1.unnumbered, ran.2) := by
  cases next with
  | assertCount expected =>
      change (if object.lockedCount = expected then _ else _) = _
      rw [Book.run]
      split <;> rfl
  | assertLocked =>
      change (if 0 < object.lockedCount then _ else _) = _
      rw [Book.run]
      split <;> rfl
  | assertLockedBy =>
      change (if object.lockedBy = some tid then _ else _) = _
      rw [Book.run]
      split <;> rfl
  | assertReadLocked =>
      change (if 0 < object.readLockedCount then _ else _) = _
      rw [Book.run]
      split <;> rfl
  | _ => rfl

theorem advanceBook_shell (next : Book) (rest : List Book) (after : After) :
    (advanceBook state tid lock object next rest after).shell =
      advanceBook state.shell tid lock object.unnumbered next rest after := by
  unfold advanceBook
  rw [Book.run_unnumbered]
  cases next.run tid object rest with
  | none => rfl
  | some ran => exact shell_replace state tid lock ran.1 _

theorem advanceUnlocking_shell :
    (advanceUnlocking state tid lock object).shell =
      advanceUnlocking state.shell tid lock object.unnumbered := by
  unfold advanceUnlocking
  rw [releaseBy_unnumbered]
  cases releaseBy object tid with
  | none =>
      change (match object.kind with | .mutex => _ | .sharedMutex => _ : State).shell =
        match object.kind with | .mutex => _ | .sharedMutex => _
      cases object.kind <;> rfl
  | some freed => exact shell_replace state tid lock freed _

theorem tryLock_shell :
    (tryLock state tid lock object).shell = tryLock state.shell tid lock object.unnumbered := by
  unfold tryLock
  rw [grantTo_unnumbered]
  cases grantTo object tid .exclusive with
  | none => rfl
  | some owned => exact shell_replace state tid lock owned _

theorem wait_shell (cond : Nat) :
    (wait state tid cond lock object).shell = wait state.shell tid cond lock object.unnumbered := by
  unfold wait
  change State.shell (if state.waiterMutex cond = none ∨ state.waiterMutex cond = some lock then
      (if 0 < object.lockedCount then _ else _) else _) =
    if state.waiterMutex cond = none ∨ state.waiterMutex cond = some lock then
      (if 0 < object.lockedCount then _ else _) else _
  split
  · split <;> rfl
  · rfl

theorem destroy_shell :
    (destroy state lock object).shell = destroy state.shell lock object.unnumbered := by
  unfold destroy
  change State.shell (if object.kind = .mutex ∧ object.owner ≠ none then _
      else if object.lockedCount ≠ 0 then _ else _) =
    if object.kind = .mutex ∧ object.owner ≠ none then _
      else if object.lockedCount ≠ 0 then _ else _
  split
  · rfl
  · split
    · rfl
    · have unregistered : (if object.unnumbered.lockdep = true then
          lockdepUnregister state.shell.tables object.unnumbered.id else state.shell.tables) =
          state.shell.tables := by
        split <;> rfl
      simp only [unregistered]
      exact shell_setObject (state.setTables _) lock { object with live := false }

end Shell

/-! ### Steps that also touch the tables -/

section Steps

variable {state next : State} {action : Action} {tid lock : Nat} {object : LockObject} {pc : Pc}

theorem mem_liveNames {name : Name} :
    name ∈ state.byName.liveNames ↔
      ∃ object ∈ state.objects, object.Checked ∧ object.lockName = name := by
  simp only [NamedState.liveNames, List.mem_toFinset, List.mem_map, List.mem_filter,
    decide_eq_true_eq]
  constructor
  · rintro ⟨_, ⟨member, checked⟩, rfl⟩
    obtain ⟨object, inState, rfl⟩ := List.mem_map.mp member
    exact ⟨object, inState, checked, rfl⟩
  · rintro ⟨object, inState, checked, rfl⟩
    exact ⟨object.unnumbered, ⟨List.mem_map_of_mem inState, checked⟩, rfl⟩

theorem Named.mem_liveNames_iff (named : Named state) {name : Name} :
    name ∈ state.byName.liveNames ↔ ∃ id, state.tables.idToName id = some name := by
  rw [mem_liveNames]
  constructor
  · rintro ⟨object, member, checked, rfl⟩
    obtain ⟨lock, found⟩ := List.mem_iff_getElem?.mp member
    obtain ⟨id, _, stored⟩ := named.label found checked
    exact ⟨id, stored⟩
  · rintro ⟨id, stored⟩
    have known : state.tables.Registered id := by
      rw [Tables.Registered, stored]
      rfl
    have counted := (named.consistent.registry.named id).mp known
    obtain ⟨object, member, share⟩ : ∃ object ∈ state.objects, object.share id ≠ 0 := by
      by_contra none
      apply counted
      apply Population.total_eq_zero
      intro object member
      by_contra share
      exact none ⟨object, member, share⟩
    obtain ⟨lock, found⟩ := List.mem_iff_getElem?.mp member
    have carried : object.Checked ∧ object.id = some id := by
      by_contra other
      exact share (if_neg other)
    obtain ⟨present, atLock, checked, same⟩ :=
      (named.carries_iff stored).mp ⟨object, found, carried⟩
    exact ⟨present, List.mem_of_getElem? atLock, checked, same⟩

theorem Named.liveNames_card (named : Named state) :
    state.byName.liveNames.card = maxLocks ↔
      ∀ id, id < maxLocks → state.tables.Registered id := by
  classical
  have registry := named.consistent.registry
  let taken : Finset Nat := (Finset.range maxLocks).filter state.tables.Registered
  have image : state.byName.liveNames =
      taken.image (fun id => (state.tables.idToName id).getD []) := by
    ext name
    rw [named.mem_liveNames_iff, Finset.mem_image]
    constructor
    · rintro ⟨id, stored⟩
      have known : state.tables.Registered id := by
        rw [Tables.Registered, stored]
        rfl
      have small := Nat.lt_of_lt_of_le (registry.below id known) registry.bounded
      refine ⟨id, Finset.mem_filter.mpr ⟨Finset.mem_range.mpr small, known⟩, ?_⟩
      rw [stored]
      rfl
    · rintro ⟨id, member, rfl⟩
      obtain ⟨name, stored⟩ := Option.isSome_iff_exists.mp (Finset.mem_filter.mp member).2
      refine ⟨id, ?_⟩
      rw [stored]
      rfl
  have injective : Set.InjOn (fun id => (state.tables.idToName id).getD []) taken := by
    intro first atFirst second atSecond same
    obtain ⟨one, storedFirst⟩ := Option.isSome_iff_exists.mp (Finset.mem_filter.mp atFirst).2
    obtain ⟨two, storedSecond⟩ := Option.isSome_iff_exists.mp (Finset.mem_filter.mp atSecond).2
    simp only [storedFirst, storedSecond, Option.getD_some] at same
    subst same
    exact named.labelled.unique storedFirst storedSecond
  have sizes : state.byName.liveNames.card = taken.card := by
    rw [image, Finset.card_image_of_injOn injective]
  have whole : taken.card = maxLocks ↔ taken.card = (Finset.range maxLocks).card := by
    rw [Finset.card_range]
  rw [sizes, whole, Finset.card_filter_eq_iff]
  simp only [Finset.mem_range]

theorem Named.crowded_iff (named : Named state) {name : Name} (clean : cStr name = name) :
    (name ∉ state.byName.liveNames ∧ state.byName.liveNames.card = maxLocks) ↔
      (lockdepRegisterHeld state.tables name).2 = none := by
  have registry := named.consistent.registry
  rw [lockdepRegisterHeld_none_iff registry, named.liveNames_card, clean]
  refine and_congr_left fun _ => ?_
  rw [named.mem_liveNames_iff]
  constructor
  · intro unused
    rw [Option.eq_none_iff_forall_not_mem]
    intro id known
    exact unused ⟨id, registry.inverse name id known⟩
  · rintro unknown ⟨id, stored⟩
    rw [named.labelled.indexed id name stored] at unknown
    cases unknown

theorem create_byName (named : Named state) {kind : Kind} {name : Name} (clean : 0 ∉ name) :
    (create state kind name true).map State.byName = some (state.byName.create kind name) := by
  have whole := cStr_of_noNul clean
  have crowded := named.crowded_iff whole
  cases registered : lockdepRegisterHeld state.tables name with
  | mk tables found =>
      have names : tables.names = state.tables.names :=
        lockdepRegisterHeld_names named.consistent.registry named.consistent.order named.labelled
          registered
      rw [registered] at crowded
      cases found with
      | none =>
          rw [NamedState.create, if_pos (crowded.mpr rfl)]
          simp only [create, lockdepRegister, registered]
          exact congrArg some (congrArg (NamedState.mk state.shell) names)
      | some id =>
          have room : ¬(name ∉ state.byName.liveNames ∧
              state.byName.liveNames.card = maxLocks) := by
            intro impossible
            cases crowded.mp impossible
          rw [NamedState.create, if_neg room]
          simp only [create, lockdepRegister, registered, Option.map_some, State.byName, names,
            State.shell, List.map_append, List.map_cons, List.map_nil]
          rfl

theorem Named.alone_iff (named : Named state) {id : Nat}
    (found : state.objects[lock]? = some object) (checked : object.Checked)
    (atId : object.id = some id) :
    (∀ other, other ≠ lock → ∀ one, state.shell.objects[other]? = some one → one.Checked →
      one.lockName ≠ object.lockName) ↔ state.carriers id = 1 := by
  have stored := named.named lock id object found checked atId
  have positive := carriers_positive ⟨object, found, checked, atId⟩
  have shared := carriers_shared found checked atId
  have single : state.carriers id = 1 ↔ ¬∃ other, other ≠ lock ∧ state.view.carries other id := by
    rw [← shared]
    omega
  rw [single]
  constructor
  · rintro alone ⟨other, apart, carries⟩
    obtain ⟨one, atOther, isChecked, same⟩ := (named.carries_iff stored).mp carries
    refine alone other apart one.unnumbered ?_ isChecked same
    rw [shell_getElem?, atOther]
    rfl
  · intro alone other apart one atOther isChecked same
    rw [shell_getElem?] at atOther
    obtain ⟨present, atPresent, rfl⟩ := Option.map_eq_some_iff.mp atOther
    exact alone ⟨other, apart, (named.carries_iff stored).mpr ⟨present, atPresent, isChecked, same⟩⟩

theorem setObject_self (found : state.objects[lock]? = some object) (tables : Tables) :
    (state.setTables tables).setObject lock object = state.setTables tables := by
  unfold State.setObject State.setTables
  simp only [Population.set_same found]

theorem destroy_cases (state : State) (lock : Nat) (object : LockObject) :
    destroy state lock object = state.abort ∨
      destroy state lock object = (state.setTables (if object.lockdep then
        lockdepUnregister state.tables object.id else state.tables)).setObject lock
          { object with live := false } := by
  unfold destroy
  split
  · exact Or.inl rfl
  · split
    · exact Or.inl rfl
    · exact Or.inr rfl

theorem destroy_byName (named : Named state) (running : state.aborted = false)
    (found : state.objects[lock]? = some object) (live : object.live = true)
    (unowned : ∀ other, ¬object.OwnedBy other)
    (untouched : ∀ (other : Tid) (pc : Pc), state.threads[other]? = some pc →
      pc.target ≠ some lock) :
    (destroy state lock object).byName = state.byName.destroy lock object.unnumbered := by
  have shell : Locks.destroy state.byName.shell lock object.unnumbered =
      (destroy state lock object).shell := (destroy_shell state lock object).symm
  unfold NamedState.destroy
  rw [shell]
  rcases destroy_cases state lock object with aborted | retired
  · have flag : (destroy state lock object).shell.aborted = true := by
      rw [aborted]
      rfl
    rw [if_neg (fun kept => by rw [flag] at kept; cases kept.1), aborted]
    rfl
  · have flag : (destroy state lock object).shell.aborted = false := by
      rw [retired]
      exact running
    by_cases lockdep : object.lockdep = true
    · have checked : object.Checked := ⟨live, lockdep⟩
      obtain ⟨id, atId, stored⟩ := named.label found checked
      have present := carriers_positive ⟨object, found, checked, atId⟩
      have names := lockdepUnregister_names named.consistent.registry named.consistent.order
        present named.labelled
        (named.consistent.unheld_of_last found checked atId unowned untouched) stored
      have alone := named.alone_iff found checked atId
      have after : (destroy state lock object).tables.names =
          if state.carriers id = 1 then state.tables.names.forget object.lockName
          else state.tables.names := by
        rw [retired, if_pos lockdep, atId]
        exact names
      by_cases last : state.carriers id = 1
      · rw [if_pos ⟨flag, lockdep, alone.mpr last⟩]
        rw [if_pos last] at after
        exact congrArg (NamedState.mk _) after
      · rw [if_neg (fun conditions => last (alone.mp conditions.2.2))]
        rw [if_neg last] at after
        exact congrArg (NamedState.mk _) after
    · rw [if_neg (fun conditions => lockdep conditions.2.1), retired, if_neg lockdep]
      rfl

theorem willLock_byName (named : Named state) (found : state.objects[lock]? = some object)
    (live : object.live = true) (trace : BackTrace) :
    (willLock state tid lock object trace pc).map State.byName =
      some (state.byName.willLock tid object.unnumbered pc) := by
  unfold willLock
  by_cases lockdep : object.lockdep = true
  · obtain ⟨id, atId, stored⟩ := named.label found ⟨live, lockdep⟩
    have same : { object with id := some id } = object := by
      rw [← atId]
    rw [if_pos lockdep, atId]
    rcases lockdepWillLock_names named.labelled named.consistent.order
        named.consistent.registry stored tid trace with
      ⟨conflict, aborted⟩ | ⟨clear, result, returned, names⟩
    · rw [state.byName.willLock_conflict object.unnumbered pc lockdep conflict, aborted]
      rfl
    · rw [state.byName.willLock_clear object.unnumbered pc lockdep clear, returned]
      simp only [same, setObject_self found, Option.map_some]
      exact congrArg some (congrArg (NamedState.mk (state.shell.setPc tid pc)) names)
  · rw [if_neg lockdep, NamedState.willLock, if_neg (show ¬object.unnumbered.lockdep = true from
      lockdep)]
    rfl

theorem advanceLocked_byName (named : Named state) {mode : Mode} (trace : BackTrace)
    (found : state.objects[lock]? = some object)
    (thread : state.threads[tid]? = some (.locked lock mode)) :
    (advanceLocked state tid lock object mode trace).map State.byName =
      state.byName.advance tid trace object.unnumbered (.locked lock mode) := by
  obtain ⟨id, atId, stored⟩ :=
    named.label found (named.consistent.settled_checked found thread)
  have same : { object with id := some id } = object := by
    rw [← atId]
  obtain ⟨result, returned, names⟩ := lockdepLocked_names named.labelled stored tid trace
  unfold advanceLocked
  rw [atId, returned]
  simp only [same, setObject_self found, Option.map_some]
  exact congrArg some (congrArg (NamedState.mk _) names)

theorem willUnlock_byName (named : Named state) (found : state.objects[lock]? = some object)
    (live : object.live = true) (trace : BackTrace) :
    (advance state tid trace object (.willUnlock lock)).map State.byName =
      state.byName.advance tid trace object.unnumbered (.willUnlock lock) := by
  change some (NamedState.mk (state.shell.setPc tid (.unlocking lock)) (Tables.names
      (if object.lockdep then lockdepWillUnlock state.tables tid object.id else state.tables))) =
    some (NamedState.mk (state.shell.setPc tid (.unlocking lock))
      (if object.lockdep then state.tables.names.drop tid object.lockName
        else state.tables.names))
  by_cases lockdep : object.lockdep = true
  · obtain ⟨id, atId, stored⟩ := named.label found ⟨live, lockdep⟩
    rw [if_pos lockdep, if_pos lockdep, atId, lockdepWillUnlock_names named.labelled stored]
  · rw [if_neg lockdep, if_neg lockdep]

theorem byName_of_shell {result shell : Option State} (same : result.map State.shell = shell)
    (kept : ∀ next ∈ result, next.tables = state.tables) :
    result.map State.byName = shell.map state.byName.withShell := by
  subst same
  cases result with
  | none => rfl
  | some next =>
      have names : next.tables.names = state.tables.names := by
        rw [kept next rfl]
      exact congrArg some (congrArg (NamedState.mk next.shell) names)

theorem advance_byName (named : Named state) (found : state.objects[lock]? = some object)
    (live : object.live = true) (trace : BackTrace) (thread : state.threads[tid]? = some pc)
    (target : pc.target = some lock) :
    (advance state tid trace object pc).map State.byName =
      state.byName.advance tid trace object.unnumbered pc := by
  cases pc with
  | idle => cases target
  | tryLock other =>
      cases target
      apply byName_of_shell
      · simp only [advance, grantTo_unnumbered]
        cases grantTo object tid .exclusive with
        | none => rfl
        | some owned => exact congrArg some (shell_replace state tid lock owned _)
      · intro next advanced
        rw [advance] at advanced
        split at advanced <;> cases advanced <;> rfl
  | acquiring other mode =>
      cases target
      apply byName_of_shell
      · simp only [advance, grantTo_unnumbered]
        cases grantTo object tid mode with
        | none => rfl
        | some owned => exact congrArg some (shell_replace state tid lock owned _)
      · intro next advanced
        rw [advance] at advanced
        split at advanced <;> cases advanced
        rfl
  | locked other mode =>
      cases target
      exact advanceLocked_byName named trace found thread
  | book other book rest after =>
      cases target
      change _ = (advance state.shell tid trace object.unnumbered
        (.book lock book rest after)).map state.byName.withShell
      apply byName_of_shell
      · exact congrArg some (advanceBook_shell state tid lock object book rest after)
      · rintro next ⟨⟩
        unfold advanceBook
        split <;> rfl
  | willUnlock other =>
      cases target
      exact willUnlock_byName named found live trace
  | unlocking other =>
      cases target
      change _ = (advance state.shell tid trace object.unnumbered
        (.unlocking lock)).map state.byName.withShell
      apply byName_of_shell
      · exact congrArg some (advanceUnlocking_shell state tid lock object)
      · rintro next ⟨⟩
        unfold advanceUnlocking
        split
        · rfl
        · split <;> rfl
  | condWait cond other =>
      cases target
      apply byName_of_shell
      · simp only [advance, releaseBy_unnumbered]
        cases releaseBy object tid with
        | none => rfl
        | some freed => exact congrArg some (shell_replace state tid lock freed _)
      · intro next advanced
        rw [advance] at advanced
        split at advanced <;> cases advanced <;> rfl
  | condBlocked cond other => rfl
  | condAcquiring cond other =>
      cases target
      apply byName_of_shell
      · simp only [advance, grantTo_unnumbered]
        cases grantTo object tid .exclusive with
        | none => rfl
        | some owned => exact congrArg some (shell_replace state tid lock owned _)
      · intro next advanced
        rw [advance] at advanced
        split at advanced <;> cases advanced
        rfl

theorem callee_byName {first : LockObject → Option State}
    {second : LockObject → Option NamedState}
    (same : ∀ object, state.callee? tid lock = some object →
      (first object).map State.byName = second object.unnumbered) :
    ((state.callee? tid lock).bind first).map State.byName =
      (state.shell.callee? tid lock).bind second := by
  rw [shell_callee?]
  cases called : state.callee? tid lock with
  | none => rfl
  | some object => exact same object called

theorem guarded_byName {kind : Kind} {first second : LockObject → State}
    (same : ∀ object, (first object).shell = second object.unnumbered)
    (kept : ∀ object, (first object).tables = state.tables) :
    ((state.callee? tid lock).bind fun object =>
        if object.kind = kind then some (first object) else none).map State.byName =
      ((state.shell.callee? tid lock).bind fun object =>
        if object.kind = kind then some (second object) else none).map
          state.byName.withShell := by
  apply byName_of_shell
  · rw [shell_callee?]
    cases state.callee? tid lock with
    | none => rfl
    | some object =>
        change Option.map _ (if object.kind = kind then _ else _) =
          if object.kind = kind then _ else _
        split
        · exact congrArg some (same object)
        · rfl
  · intro next done
    obtain ⟨object, _, called⟩ := Option.bind_eq_some_iff.mp done
    split_ifs at called
    cases called
    exact kept object

theorem next_byName (named : Named state) (trace : BackTrace) :
    (stepLive state (.advance tid trace)).map State.byName =
      state.byName.stepLive (.advance tid trace) := by
  simp only [stepLive, NamedState.stepLive, State.byName_shell]
  change _ = (state.threads[tid]?).bind _
  cases thread : state.threads[tid]? with
  | none => rfl
  | some pc =>
      cases target : pc.target with
      | none => simp [target]
      | some lock =>
          simp only [Option.bind_some, target, shell_object?]
          cases present : state.object? lock with
          | none => rfl
          | some object =>
              obtain ⟨found, live⟩ := object?_eq_some.mp present
              exact advance_byName named found live trace thread target

theorem wake_byName :
    (stepLive state (.wake tid)).map State.byName = state.byName.stepLive (.wake tid) := by
  change _ = (stepLive state.shell (.wake tid)).map state.byName.withShell
  apply byName_of_shell
  · simp only [stepLive, shell_threads]
    cases state.threads[tid]? with
    | none => rfl
    | some pc => cases pc <;> rfl
  · intro next done
    rw [stepLive] at done
    split at done <;> cases done
    rfl

theorem deadlockError_byName :
    (stepLive state (.deadlockError tid)).map State.byName =
      state.byName.stepLive (.deadlockError tid) := by
  change _ = (stepLive state.shell (.deadlockError tid)).map state.byName.withShell
  apply byName_of_shell
  · simp only [stepLive, shell_threads, shell_object?]
    cases state.threads[tid]? with
    | none => rfl
    | some pc =>
        cases pc with
        | acquiring lock mode =>
            cases present : state.object? lock with
            | none => simp [present]
            | some object =>
                simp only [present]
                change Option.map _ (if object.owner = some tid then _ else _) =
                  if object.owner = some tid then _ else _
                split <;> rfl
        | _ => rfl
  · intro next done
    rw [stepLive] at done
    split at done
    · obtain ⟨object, _, refused⟩ := Option.bind_eq_some_iff.mp done
      split_ifs at refused
      cases refused
      rfl
    · cases done

theorem stepLive_byName (named : Named state) (running : state.aborted = false)
    (unused : DestroysUnused state action) (clean : CleanNames action) :
    (stepLive state action).map State.byName = state.byName.stepLive action := by
  cases action with
  | create kind name lockdep =>
      cases lockdep with
      | true => exact create_byName named clean
      | false =>
          change _ = (create state.shell kind name false).map state.byName.withShell
          apply byName_of_shell
          · simp only [stepLive, create, Option.map_some, State.shell, List.map_append,
              List.map_cons, List.map_nil]
            rfl
          · rintro next ⟨⟩
            rfl
  | destroy lock =>
      simp only [stepLive, NamedState.stepLive, State.byName_shell, shell_object?]
      cases present : state.object? lock with
      | none => rfl
      | some object =>
          obtain ⟨found, live⟩ := object?_eq_some.mp present
          obtain ⟨unowned, untouched⟩ := unused.apart present
          exact congrArg some (destroy_byName named running found live unowned untouched)
  | lock tid lock trace =>
      simp only [stepLive, NamedState.stepLive, State.byName_shell]
      apply callee_byName
      intro object called
      obtain ⟨_, found, live⟩ := callee?_eq_some called
      exact willLock_byName named found live trace
  | lockShared tid lock trace =>
      simp only [stepLive, NamedState.stepLive, State.byName_shell]
      apply callee_byName
      intro object called
      obtain ⟨_, found, live⟩ := callee?_eq_some called
      change Option.map _ (if object.kind = .sharedMutex then _ else _) =
        if object.kind = .sharedMutex then _ else _
      split
      · exact willLock_byName named found live trace
      · rfl
  | advance tid trace => exact next_byName named trace
  | tryLock tid lock =>
      apply guarded_byName (tryLock_shell state tid lock)
      intro object
      unfold tryLock
      split <;> rfl
  | unlock tid lock =>
      change _ = (stepLive state.shell (.unlock tid lock)).map state.byName.withShell
      apply byName_of_shell
      · simp only [stepLive, shell_callee?]
        cases state.callee? tid lock <;> rfl
      · intro next done
        obtain ⟨object, _, rfl⟩ := Option.map_eq_some_iff.mp done
        rfl
  | unlockShared tid lock =>
      apply guarded_byName
      · intro object
        rfl
      · intro object
        rfl
  | wait tid cond lock =>
      apply guarded_byName
      · intro object
        exact wait_shell state tid lock object cond
      · intro object
        unfold wait
        split_ifs <;> rfl
  | wake tid => exact wake_byName
  | deadlockError tid => exact deadlockError_byName

theorem step_byName (named : Named state) (unused : DestroysUnused state action)
    (clean : CleanNames action) :
    (step state action).map State.byName = state.byName.step action := by
  unfold step NamedState.step
  change _ = if state.aborted = true then none else _
  split
  · rfl
  · rename_i running
    exact stepLive_byName named (Bool.eq_false_iff.mpr running) unused clean

end Steps

end BlueThread.Locks
