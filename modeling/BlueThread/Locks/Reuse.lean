/-
Which identifier a lock gets does not matter.

The real allocator runs next to one that hands out any free identifier it likes.
Both runs are runs of the program of `Locks.Names`, so after the same actions they
are the same state when read by name: the checker has aborted in both or in none,
and the tables differ by the renaming that the live names give.
-/

import BlueThread.Locks.HeldLocks
import BlueThread.Locks.Names

namespace BlueThread.Locks

open Lockdep PackedBits

/-! ### An allocator of one's own choice -/

/-- Takes the chosen identifier if it is free, and searches as
`lockdep_get_free_id` does if it is not. -/
def getFreeIdChoosing (chosen : Nat) (tables : Tables) : Tables × Option Nat :=
  let prepared := initLockIdsBitmap tables
  if chosen < maxLocks ∧ testBit prepared.lockIdsBitmap chosen = true then
    (takeId { prepared with lastFreeLockId := none } chosen, some chosen)
  else lockdepGetFreeId tables

/-- `_lockdep_register` on that allocator. -/
def registerChoosing (chosen : Nat) (tables : Tables) (name : Name) : Tables × Option Nat :=
  match tables.nameToId (cStr name) with
  | some id => (addReference tables id, some id)
  | none =>
      match getFreeIdChoosing chosen tables with
      | (tables, none) => (tables, none)
      | (tables, some id) => (addReference (recordName tables name id) id, some id)

def State.created (state : State) (kind : Kind) (name : Name) : Tables × Option Nat → State
  | (tables, some id) =>
      { state with
        tables := tables
        objects := state.objects ++ [newObject kind name (some id) true] }
  | (tables, none) => state.setTables tables

/-- A step of the program on that allocator. -/
def stepChoosing (chosen : Nat) (state : State) : Action → Option State
  | .create kind name true =>
      if state.aborted then none
      else some (state.created kind name (registerChoosing chosen state.tables name))
  | action => step state action

def State.hinting (state : State) (chosen : Nat) : State :=
  state.setTables { state.tables with lastFreeLockId := some chosen }

section Choosing

variable {state next : State} {action : Action} {chosen : Nat}

theorem getFreeIdChoosing_eq {tables : Tables} (small : chosen < maxLocks)
    (free : testBit (initLockIdsBitmap tables).lockIdsBitmap chosen = true) :
    getFreeIdChoosing chosen tables =
      lockdepGetFreeId { tables with lastFreeLockId := some chosen } := by
  have same : initLockIdsBitmap { tables with lastFreeLockId := some chosen } =
      { initLockIdsBitmap tables with lastFreeLockId := some chosen } := by
    unfold initLockIdsBitmap
    simp only
    split <;> rfl
  unfold getFreeIdChoosing lockdepGetFreeId
  rw [same]
  simp only [small, free, and_self, if_true]

/-- With a chosen identifier that is free, registration goes as if the hint had
named it; otherwise it goes as it is. -/
theorem registerChoosing_eq (chosen : Nat) (tables : Tables) (name : Name) :
    registerChoosing chosen tables name = lockdepRegisterHeld tables name ∨
      (chosen < maxLocks ∧ registerChoosing chosen tables name =
        lockdepRegisterHeld { tables with lastFreeLockId := some chosen } name) := by
  unfold registerChoosing lockdepRegisterHeld
  cases known : tables.nameToId (cStr name) with
  | some id => exact Or.inl rfl
  | none =>
      let enter : Tables × Option Nat → Tables × Option Nat
        | (tables, none) => (tables, none)
        | (tables, some id) => (addReference (recordName tables name id) id, some id)
      by_cases free : chosen < maxLocks ∧
          testBit (initLockIdsBitmap tables).lockIdsBitmap chosen = true
      · right
        exact ⟨free.1, congrArg enter (getFreeIdChoosing_eq free.1 free.2)⟩
      · left
        have same : getFreeIdChoosing chosen tables = lockdepGetFreeId tables := by
          unfold getFreeIdChoosing
          simp only [if_neg free]
        exact congrArg enter same

theorem create_eq_created (state : State) (kind : Kind) (name : Name) :
    create state kind name true =
      some (state.created kind name (lockdepRegisterHeld state.tables name)) := by
  unfold create lockdepRegister
  cases lockdepRegisterHeld state.tables name with
  | mk tables found => cases found <;> rfl

/-- Every step on a chosen identifier is a step of the real program, perhaps from
a state with another hint. -/
theorem stepChoosing_eq (chosen : Nat) (state : State) (action : Action) :
    stepChoosing chosen state action = step state action ∨
      (chosen < maxLocks ∧ (∃ kind name, action = .create kind name true) ∧
        stepChoosing chosen state action = step (state.hinting chosen) action) := by
  cases action with
  | create kind name lockdep =>
      cases lockdep with
      | false => exact Or.inl rfl
      | true =>
          rcases registerChoosing_eq chosen state.tables name with real | ⟨small, hinted⟩
          · left
            simp only [stepChoosing, step, stepLive, create_eq_created, real]
          · right
            refine ⟨small, ⟨kind, name, rfl⟩, ?_⟩
            simp only [stepChoosing, step, stepLive, create_eq_created, hinted]
            rfl
  | _ => exact Or.inl rfl

theorem Named.hinting (named : Named state) (small : chosen < maxLocks) :
    Named (state.hinting chosen) where
  consistent :=
    { sound := named.consistent.sound
      registry :=
        { counted := named.consistent.registry.counted
          named := named.consistent.registry.named
          below := named.consistent.registry.below
          bounded := named.consistent.registry.bounded
          free := named.consistent.registry.free
          untouched := named.consistent.registry.untouched
          inverse := named.consistent.registry.inverse
          hinted := by
            rintro id ⟨⟩
            exact small }
      order := named.consistent.order.transfer rfl rfl (fun _ known => known)
      identified := named.consistent.identified
      placed := named.consistent.placed
      settled := named.consistent.settled }
  labelled := ⟨named.labelled.indexed, named.labelled.held⟩
  named := named.named

theorem step_named (named : Named state) (unused : DestroysUnused state action)
    (clean : CleanNames action) (taken : step state action = some next) : Named next :=
  named.step (step_effect named.consistent unused taken) clean

theorem stepChoosing_named (named : Named state) (unused : DestroysUnused state action)
    (clean : CleanNames action) (taken : stepChoosing chosen state action = some next) :
    Named next := by
  rcases stepChoosing_eq chosen state action with real | ⟨small, ⟨kind, name, rfl⟩, hinted⟩
  · rw [real] at taken
    exact step_named named unused clean taken
  · rw [hinted] at taken
    have free : DestroysUnused (state.hinting chosen) (.create kind name true) := trivial
    exact step_named (named.hinting small) free clean taken

theorem stepChoosing_byName (named : Named state) (unused : DestroysUnused state action)
    (clean : CleanNames action) :
    (stepChoosing chosen state action).map State.byName = state.byName.step action := by
  rcases stepChoosing_eq chosen state action with real | ⟨small, ⟨kind, name, rfl⟩, hinted⟩
  · rw [real]
    exact step_byName named unused clean
  · rw [hinted]
    exact step_byName (named.hinting small) trivial clean

end Choosing

/-! ### Two runs side by side -/

/-- The real program and the program on an allocator of one's own choice, taking
the same actions. -/
def lockstep : Runs.System (State × State) (Action × Nat) where
  initial pair := ∃ threads, pair = (State.initial threads, State.initial threads)
  step pair label :=
    (step pair.1 label.1).bind fun real =>
      (stepChoosing label.2 pair.2 label.1).map fun other => (real, other)

/-- Unused locks are destroyed, and names have no NUL. -/
def LockUse (pair : State × State) (label : Action × Nat) : Prop :=
  DestroysUnused pair.1 label.1 ∧ CleanNames label.1

instance (pair : State × State) (label : Action × Nat) : Decidable (LockUse pair label) :=
  inferInstanceAs (Decidable (_ ∧ _))

section Lockstep

variable {real other : State} {action : Action}

theorem destroysUnused_shell :
    DestroysUnused real.shell action ↔ DestroysUnused real action := by
  cases action with
  | destroy lock =>
      change ((∀ object ∈ real.shell.object? lock, _) ∧ _) ↔ (∀ object ∈ real.object? lock, _) ∧ _
      rw [shell_object?]
      refine and_congr_left fun _ => ?_
      cases real.object? lock with
      | none => simp
      | some object =>
          simp only [Option.map_some, Option.mem_def, Option.some.injEq, forall_eq']
          rfl
  | _ => exact Iff.rfl

structure Alike (real other : State) : Prop where
  left : Named real
  right : Named other
  same : real.byName = other.byName

theorem Alike.destroysUnused (alike : Alike real other)
    (unused : DestroysUnused real action) : DestroysUnused other action := by
  have shells : real.shell = other.shell := congrArg NamedState.shell alike.same
  rw [← destroysUnused_shell, ← shells, destroysUnused_shell]
  exact unused

theorem Alike.results (alike : Alike real other) (unused : DestroysUnused real action)
    (clean : CleanNames action) (chosen : Nat) :
    (step real action).map State.byName =
      (stepChoosing chosen other action).map State.byName := by
  rw [step_byName alike.left unused clean, alike.same,
    stepChoosing_byName alike.right (alike.destroysUnused unused) clean]

theorem reachable_alike {pair : State × State}
    (reached : Runs.Reachable lockstep LockUse pair) : Alike pair.1 pair.2 := by
  apply reached.invariant
  · rintro current ⟨threads, rfl⟩
    exact ⟨Named.initial threads, Named.initial threads, rfl⟩
  · rintro ⟨real, other⟩ ⟨action, chosen⟩ following _ alike ⟨unused, clean⟩ taken
    obtain ⟨realNext, realTaken, rest⟩ := Option.bind_eq_some_iff.mp taken
    obtain ⟨otherNext, otherTaken, rfl⟩ := Option.map_eq_some_iff.mp rest
    refine ⟨step_named alike.left unused clean realTaken,
      stepChoosing_named alike.right (alike.destroysUnused unused) clean otherTaken, ?_⟩
    have results := alike.results unused clean chosen
    rw [realTaken, otherTaken] at results
    exact Option.some.inj results

end Lockstep

/-! ### The renaming between two runs -/

/-- The identifiers that one name has in the two runs. -/
def Counterparts (real other : State) (id counterpart : Nat) : Prop :=
  ∃ name, real.tables.idToName id = some name ∧ other.tables.idToName counterpart = some name

/-- The live names match the identifiers of the two runs one to one, and under
that matching the runs have the same `lock_tree` and the same `held_locks`, and
`lockdep_will_lock` aborts in both or in none. Nothing unregistered has an edge
or is held, so the matching covers all of both tables. -/
structure SameUpToIds (real other : State) : Prop where
  aborted : real.aborted = other.aborted
  forward : ∀ id, real.tables.Registered id → ∃! counterpart, Counterparts real other id counterpart
  backward : ∀ counterpart, other.tables.Registered counterpart →
    ∃! id, Counterparts real other id counterpart
  edges : (∀ left right, real.tables.Follows left right →
      real.tables.Registered left ∧ real.tables.Registered right) ∧
    ∀ left right, other.tables.Follows left right →
      other.tables.Registered left ∧ other.tables.Registered right
  lockTree : ∀ left right otherLeft otherRight, Counterparts real other left otherLeft →
    Counterparts real other right otherRight →
    (real.tables.Follows left right ↔ other.tables.Follows otherLeft otherRight)
  holders : (∀ tid, ∀ id ∈ (real.tables.heldLocks tid).keys, real.tables.Registered id) ∧
    ∀ tid, ∀ id ∈ (other.tables.heldLocks tid).keys, other.tables.Registered id
  heldLocks : ∀ tid id counterpart trace, Counterparts real other id counterpart →
    ((id, trace) ∈ (real.tables.heldLocks tid).entries ↔
      (counterpart, trace) ∈ (other.tables.heldLocks tid).entries)
  willLock : ∀ (tid : Tid) (lock : Nat) (object counterpart : LockObject) (trace : BackTrace),
    real.objects[lock]? = some object →
    other.objects[lock]? = some counterpart → object.Checked →
    (lockdepWillLock real.tables tid object.lockName object.id trace = .aborted ↔
      lockdepWillLock other.tables tid counterpart.lockName counterpart.id trace = .aborted)

/-- A new object whose identifier was free has no ordering constraints. -/
def StartsUnordered (before after : State) : Prop :=
  ∀ (object : LockObject) (id : Nat), after.objects[before.objects.length]? = some object →
    object.id = some id → before.tables.idToName id = none →
    ∀ one, ¬after.tables.Follows id one ∧ ¬after.tables.Follows one id

/-- The edges between the objects other than the one at the given place. -/
def KeepsOtherEdges (before after : State) (lock : Nat) : Prop :=
  ∀ (left right : Nat) (one two : LockObject) (first second : Nat), left ≠ lock → right ≠ lock →
    before.objects[left]? = some one → one.Checked → one.id = some first →
    before.objects[right]? = some two → two.Checked → two.id = some second →
    (after.tables.Follows first second ↔ before.tables.Follows first second)

section Renaming

variable {real other : State}

theorem Alike.liveName (alike : Alike real other) {id : Nat} {name : Name}
    (stored : real.tables.idToName id = some name) :
    ∃ counterpart, other.tables.idToName counterpart = some name := by
  have live := alike.left.mem_liveNames_iff.mpr ⟨id, stored⟩
  rw [alike.same] at live
  exact alike.right.mem_liveNames_iff.mp live

theorem Alike.symm (alike : Alike real other) : Alike other real :=
  ⟨alike.right, alike.left, alike.same.symm⟩

theorem Alike.counterpart (alike : Alike real other) {id : Nat}
    (known : real.tables.Registered id) :
    ∃! counterpart, Counterparts real other id counterpart := by
  obtain ⟨name, stored⟩ := Option.isSome_iff_exists.mp known
  obtain ⟨counterpart, atCounterpart⟩ := alike.liveName stored
  refine ⟨counterpart, ⟨name, stored, atCounterpart⟩, ?_⟩
  rintro one ⟨same, atId, atOne⟩
  have equal : same = name := Option.some.inj (atId.symm.trans stored)
  exact alike.right.labelled.unique (equal ▸ atOne) atCounterpart

theorem counterparts_comm {id counterpart : Nat} :
    Counterparts real other id counterpart ↔ Counterparts other real counterpart id :=
  exists_congr fun _ => and_comm

theorem Named.willLock_aborted_iff (named : Named real) {lock : Nat} {object : LockObject}
    (found : real.objects[lock]? = some object) (checked : object.Checked) (tid : Tid)
    (trace : BackTrace) :
    lockdepWillLock real.tables tid object.lockName object.id trace = .aborted ↔
      real.byName.order.Conflict tid object.lockName := by
  obtain ⟨id, atId, stored⟩ := named.label found checked
  rw [atId]
  rcases lockdepWillLock_names named.labelled named.consistent.order named.consistent.registry
      stored tid trace with ⟨conflict, aborted⟩ | ⟨clear, result, returned, _⟩
  · exact ⟨fun _ => conflict, fun _ => aborted⟩
  · rw [returned]
    exact ⟨nofun, fun conflict => absurd conflict clear⟩

theorem Alike.sameUpToIds (alike : Alike real other) : SameUpToIds real other where
  aborted := congrArg (fun named => named.shell.aborted) alike.same
  forward id known := alike.counterpart known
  backward counterpart known :=
    (existsUnique_congr fun _ => counterparts_comm).mpr (alike.symm.counterpart known)
  edges := ⟨alike.left.consistent.order.registered, alike.right.consistent.order.registered⟩
  lockTree := by
    rintro left right otherLeft otherRight ⟨one, atLeft, atOtherLeft⟩ ⟨two, atRight, atOtherRight⟩
    rw [← alike.left.labelled.names_follows atLeft atRight,
      ← alike.right.labelled.names_follows atOtherLeft atOtherRight]
    exact iff_of_eq (congrArg (fun named => named.order.follows one two) alike.same)
  holders := ⟨alike.left.labelled.held, alike.right.labelled.held⟩
  heldLocks := by
    rintro tid id counterpart trace ⟨name, atId, atCounterpart⟩
    rw [← alike.left.labelled.names_held atId, ← alike.right.labelled.names_held atCounterpart]
    exact iff_of_eq (congrArg (fun named => named.order.held tid name trace) alike.same)
  willLock := by
    intro tid lock object counterpart trace found atOther checked
    have shells : real.shell.objects[lock]? = other.shell.objects[lock]? :=
      congrArg (fun named => named.shell.objects[lock]?) alike.same
    rw [shell_getElem?, shell_getElem?, found, atOther] at shells
    have same : object.unnumbered = counterpart.unnumbered := Option.some.inj shells
    have names : object.unnumbered.lockName = counterpart.unnumbered.lockName := by rw [same]
    have live : counterpart.unnumbered.Checked := by
      rw [← same]
      exact checked
    change object.lockName = counterpart.lockName at names
    rw [alike.left.willLock_aborted_iff found checked, alike.same, names,
      ← alike.right.willLock_aborted_iff atOther live]

theorem Named.startsUnordered {state next : State} {kind : Kind} {name : Name}
    (named : Named state) (created : create state kind name true = some next) :
    StartsUnordered state next := by
  intro object id atLast atId vacant one
  cases registered : lockdepRegisterHeld state.tables name with
  | mk tables found =>
      have frame := lockdepRegisterHeld_frame named.consistent.registry name
      rw [registered] at frame
      have edges (left right : Nat) (edge : tables.Follows left right) :
          state.tables.Follows left right := by
        unfold Tables.Follows follows at edge ⊢
        rwa [frame.tree] at edge
      have same : next.tables = tables := by
        rw [create_eq_created, registered, Option.some.injEq] at created
        subst created
        cases found <;> rfl
      rw [same]
      have unknown : ¬state.tables.Registered id := by
        rw [Tables.Registered, vacant]
        intro impossible
        cases impossible
      have joined := named.consistent.order.registered
      exact ⟨fun edge => unknown (joined id one (edges id one edge)).1,
        fun edge => unknown (joined one id (edges one id edge)).2⟩

theorem Named.keepsOtherEdges {state next : State} {lock : Nat} (named : Named state)
    (taken : Locks.step state (.destroy lock) = some next) : KeepsOtherEdges state next lock := by
  have live : stepLive state (.destroy lock) = some next := by
    unfold Locks.step at taken
    split at taken
    · cases taken
    · exact taken
  obtain ⟨object, present, rfl⟩ := Option.map_eq_some_iff.mp live
  obtain ⟨found, isLive⟩ := object?_eq_some.mp present
  intro left right one two first second leftApart rightApart atLeft oneChecked oneId atRight
    twoChecked twoId
  rcases destroy_cases state lock object with aborted | retired
  · rw [aborted]
    rfl
  · rw [retired]
    by_cases lockdep : object.lockdep = true
    · obtain ⟨id, atId, _⟩ := named.label found ⟨isLive, lockdep⟩
      have checked : object.Checked := ⟨isLive, lockdep⟩
      have counted := carriers_positive ⟨object, found, checked, atId⟩
      -- Another object with the same identifier keeps it alive.
      have survives {place : Nat} {present : LockObject} {carried : Nat} (apart : place ≠ lock)
          (atPlace : state.objects[place]? = some present) (isChecked : present.Checked)
          (atCarried : present.id = some carried) (last : state.carriers id = 1) :
          carried ≠ id := by
        rintro rfl
        have several := (carriers_shared found checked atId).mpr
          ⟨place, apart, present, atPlace, isChecked, atCarried⟩
        omega
      have edges := lockdepUnregister_follows named.consistent.registry named.consistent.order
        counted first second
      rw [if_pos lockdep, atId]
      refine edges.trans ⟨And.left, fun edge => ⟨edge, fun last => ⟨?_, ?_⟩⟩⟩
      · exact survives leftApart atLeft oneChecked oneId last
      · exact survives rightApart atRight twoChecked twoId last
    · rw [if_neg lockdep]
      rfl

end Renaming

/-! ### Every pair of runs -/

theorem id_reuse_invisible {real other : State}
    (reached : Runs.Reachable lockstep LockUse (real, other)) :
    SameUpToIds real other ∧
      (∀ action chosen, LockUse (real, other) (action, chosen) →
        (step real action).isSome = (stepChoosing chosen other action).isSome) ∧
      (∀ kind name next, step real (.create kind name true) = some next →
        StartsUnordered real next) ∧
      ∀ lock next, step real (.destroy lock) = some next → KeepsOtherEdges real next lock := by
  have alike := reachable_alike reached
  refine ⟨alike.sameUpToIds, ?_, ?_, ?_⟩
  · rintro action chosen ⟨unused, clean⟩
    have results := congrArg Option.isSome (alike.results unused clean chosen)
    rw [Option.isSome_map, Option.isSome_map] at results
    exact results
  · intro kind name next taken
    unfold step at taken
    split at taken
    · cases taken
    · exact alike.left.startsUnordered taken
  · intro lock next taken
    exact alike.left.keepsOtherEdges taken

/-- Two nested locks, a third one that took the place of a destroyed lock: the
real allocator numbers them 0, 1 and 2, the other one 5, 3 and 9. -/
theorem id_reuse_invisible_after_reuse :
    ∃ real other, Runs.Reachable lockstep LockUse (real, other) ∧
      real.tables.Follows 0 1 ∧ other.tables.Follows 5 3 ∧
      Counterparts real other 2 9 ∧ SameUpToIds real other := by
  obtain ⟨⟨real, other⟩, reached, passed⟩ := Runs.exists_of_replay LockUse
    (show lockstep.initial (State.initial 1, State.initial 1) from ⟨1, rfl⟩)
    ([(.create .mutex [120] true, 5), (.create .mutex [121] true, 3),
      (.create .mutex [122] true, 7), (.destroy 2, 0), (.create .mutex [123] true, 9)] ++
      (lockRun 0 0 ++ lockRun 0 1).map fun action => (action, 0))
    (fun pair : State × State => decide (pair.1.tables.Follows 0 1 ∧
      pair.2.tables.Follows 5 3 ∧ pair.1.tables.idToName 2 = some [123] ∧
      pair.2.tables.idToName 9 = some [123])) (by decide +kernel)
  obtain ⟨realEdge, otherEdge, atReal, atOther⟩ := of_decide_eq_true passed
  exact ⟨real, other, reached, realEdge, otherEdge, ⟨[123], atReal, atOther⟩,
    (id_reuse_invisible reached).1⟩

end BlueThread.Locks
