/-
The backtrace objects behind the tables.

`held_locks` and `lock_tree_backtrace` hold pointers to `BackTrace` objects that are
allocated when a pointer is written and deleted when it is cleared. Here the pointers
and the heap run beside the tables, with `new` and `delete` where the source has them.
Whatever the callers do, no pointer dangles and the pointers stand for the values in
the tables.
-/

import BlueThread.Foundation.Runs
import BlueThread.Foundation.Slots
import BlueThread.Lockdep.Order

namespace BlueThread.Lockdep

open Slots

/-- The places of `BackTrace*` in the static tables. -/
inductive Slot
  /-- `held_locks[tid][id]` -/
  | held (tid : Tid) (id : Nat)
  /-- `lock_tree_backtrace[left][right]` -/
  | edge (left right : Nat)
deriving DecidableEq

structure Storage where
  tables : Tables
  backtraces : Memory Slot BackTrace

def Storage.initial : Storage := ⟨Tables.initial, Memory.initial⟩

/-- How a call on the storage ends: as one on the tables, or by deleting what is not
allocated. -/
inductive Ending
  | returned (storage : Storage) (id : Option Nat)
  | threw (storage : Storage)
  | aborted
  | diverged
  | undefined

/-- The entry points, with the identifier that is `-1` as `none`. -/
inductive Call
  | register (name : Name)
  | willLock (tid : Tid) (name : Name) (id : Option Nat) (trace : BackTrace)
  | locked (tid : Tid) (name : Name) (id : Option Nat) (trace : BackTrace)
  | willUnlock (tid : Tid) (id : Option Nat)
  | unregister (id : Option Nat)
deriving DecidableEq

/-! ### The calls on pointers -/

/-- The identifiers that are passed have a place in the tables, or are `-1`. -/
def Call.InTables : Call → Prop
  | .register _ => True
  | .willLock _ _ given _ | .locked _ _ given _ | .willUnlock _ given | .unregister given =>
      ∀ id ∈ given, id < maxLocks

instance (request : Call) : Decidable request.InTables :=
  match request with
  | .register _ => inferInstanceAs (Decidable True)
  | .willLock _ _ given _ | .locked _ _ given _ | .willUnlock _ given | .unregister given =>
      Option.decidableForallMem given

namespace Storage

variable (allocator : Allocator)

/-- The loop of `lockdep_will_lock`: a new dependency gets a new backtrace. -/
def willLockLoop (id : Nat) (trace : BackTrace) : List Nat → Storage → Ending
  | [], storage => .returned storage (some id)
  | held :: rest, storage =>
      if held = id then .aborted
      else if follows storage.tables held id then willLockLoop id trace rest storage
      else
        match doesFollow followDepth storage.tables id held with
        | none => .diverged
        | some (_, true) => .aborted
        | some (tables, false) =>
            willLockLoop id trace rest
              { tables := addDependency tables held id trace
                backtraces := storage.backtraces.store allocator (.edge held id) trace }

def hold (storage : Storage) (tid : Tid) (id : Nat) (trace : BackTrace) : Storage :=
  { tables :=
      { storage.tables with
        heldLocks := Function.update storage.tables.heldLocks tid
          ((storage.tables.heldLocks tid).assign id trace) }
    backtraces := storage.backtraces.store allocator (.held tid id) trace }

def withId (storage : Storage) (name : Name) (id : Option Nat)
    (body : Storage → Nat → Ending) : Ending :=
  match ensureId storage.tables name id with
  | .returned tables id => body { storage with tables := tables } id
  | .threw tables => .threw { storage with tables := tables }
  | .aborted => .aborted
  | .diverged => .diverged

/-- The two `delete`s of every round of the clearing loop of `lockdep_unregister`. -/
def clearPointers (id : Nat) : Nat → Memory Slot BackTrace → Option (Memory Slot BackTrace)
  | 0, backtraces => some backtraces
  | bound + 1, backtraces =>
      ((clearPointers id bound backtraces).bind (·.release (.edge id bound))).bind
        (·.release (.edge bound id))

def unregister (storage : Storage) (id : Nat) : Ending :=
  let tables := lockdepUnregister storage.tables (some id)
  if (storage.tables.lockRef id).getD 0 - 1 = 0 ∧ (storage.tables.idToName id).isSome then
    match clearPointers id storage.tables.currentMaxId storage.backtraces with
    | some backtraces => .returned ⟨tables, backtraces⟩ none
    | none => .undefined
  else .returned { storage with tables := tables } none

/-- `delete held_locks[tid][id]`, before the entry is erased. -/
def willUnlock (storage : Storage) (tid : Tid) (id : Nat) : Ending :=
  match storage.backtraces.release (.held tid id) with
  | some backtraces => .returned ⟨lockdepWillUnlock storage.tables tid (some id), backtraces⟩ id
  | none => .undefined

def call (storage : Storage) : Call → Ending
  | .register name => withId storage name none fun storage id => .returned storage id
  | .willLock tid name id trace =>
      withId storage name id fun storage id =>
        willLockLoop allocator id trace (storage.tables.heldLocks tid).keys storage
  | .locked tid name id trace =>
      withId storage name id fun storage id =>
        .returned (storage.hold allocator tid id trace) id
  | .willUnlock tid (some id) => storage.willUnlock tid id
  | .unregister (some id) => storage.unregister id
  | .willUnlock _ none | .unregister none => .returned storage none

end Storage

/-! ### The same calls on values -/

def Outcome.map {α β : Type} (convert : α → β) : Outcome α → Outcome β
  | .returned tables value => .returned tables (convert value)
  | .threw tables => .threw tables
  | .aborted => .aborted
  | .diverged => .diverged

def Tables.call (tables : Tables) : Call → Outcome (Option Nat)
  | .register name => (lockdepRegister tables name).map some
  | .willLock tid name id trace => (lockdepWillLock tables tid name id trace).map some
  | .locked tid name id trace => (lockdepLocked tables tid name id trace).map some
  | .willUnlock tid id => .returned (lockdepWillUnlock tables tid id) id
  | .unregister id => .returned (lockdepUnregister tables id) none

/-- What an ending is on the tables; nothing at all if it is undefined. -/
def Ending.values : Ending → Option (Outcome (Option Nat))
  | .returned storage id => some (.returned storage.tables id)
  | .threw storage => some (.threw storage.tables)
  | .aborted => some .aborted
  | .diverged => some .diverged
  | .undefined => none

/-! ### Pointers stand for values -/

/-- The pointers own what they point to, and that is what the tables say. -/
structure Storage.Sound (storage : Storage) : Prop where
  owned : storage.backtraces.Owned
  held : ∀ tid id trace, storage.backtraces.contents (.held tid id) = some trace ↔
    (id, trace) ∈ (storage.tables.heldLocks tid).entries
  edge : ∀ left right, storage.backtraces.contents (.edge left right) =
    storage.tables.lockTreeBacktrace left right

def Ending.Sound : Ending → Prop
  | .returned storage _ => storage.Sound
  | .threw storage => storage.Sound
  | .aborted | .diverged => True
  | .undefined => False

theorem Storage.Sound.initial : Storage.initial.Sound where
  owned := .initial
  held _ _ _ := ⟨nofun, nofun⟩
  edge _ _ := rfl

section Frames

variable {storage : Storage} {tables result : Tables}

theorem Storage.Sound.transfer (sound : storage.Sound)
    (held : tables.heldLocks = storage.tables.heldLocks)
    (edge : tables.lockTreeBacktrace = storage.tables.lockTreeBacktrace) :
    Storage.Sound { storage with tables := tables } where
  owned := sound.owned
  held tid id trace := by
    change _ ↔ (id, trace) ∈ (tables.heldLocks tid).entries
    rw [held]
    exact sound.held tid id trace
  edge left right := by
    change _ = tables.lockTreeBacktrace left right
    rw [edge]
    exact sound.edge left right

def Renamed (tables result : Tables) : Prop :=
  ∃ names, result = { tables with idToName := names }

theorem Renamed.refl (tables : Tables) : Renamed tables tables := ⟨tables.idToName, rfl⟩

theorem Renamed.trans {middle : Tables} (first : Renamed tables middle)
    (second : Renamed middle result) : Renamed tables result := by
  obtain ⟨names, rfl⟩ := first
  obtain ⟨later, rfl⟩ := second
  exact ⟨later, rfl⟩

theorem Renamed.touch (renamed : Renamed tables result) (id : Nat) :
    Renamed tables (touchName result id) :=
  renamed.trans (touchName_only result id)

theorem followLoop_renamed {recurse : Tables → Nat → Option (Tables × Bool)}
    (inner : ∀ current middle following answer,
      recurse current middle = some (following, answer) → Renamed current following)
    {left right : Nat} {candidates : List Nat} {answer : Bool}
    (run : followLoop recurse left right candidates tables = some (result, answer)) :
    Renamed tables result := by
  induction candidates generalizing tables with
  | nil =>
      rw [followLoop, Option.some.injEq] at run
      cases run
      exact .refl result
  | cons middle rest ih =>
      rw [followLoop] at run
      split_ifs at run with edge
      · cases called : recurse tables middle with
        | none =>
            rw [called] at run
            cases run
        | some outcome =>
            obtain ⟨following, found⟩ := outcome
            have first := inner tables middle following found called
            rw [called] at run
            cases found with
            | true =>
                cases run
                exact ((first.touch left).touch middle).touch right
            | false => exact first.trans (ih run)
      · exact ih run

theorem doesFollow_renamed {depth left right : Nat} {answer : Bool}
    (run : doesFollow depth tables left right = some (result, answer)) :
    Renamed tables result := by
  induction depth generalizing tables result left answer with
  | zero => cases run
  | succ depth ih =>
      rw [doesFollow] at run
      split_ifs at run with edge
      · cases run
        exact ((Renamed.refl tables).touch left).touch right
      · exact followLoop_renamed (fun _ _ _ _ called => ih called) run

def SamePointers (tables result : Tables) : Prop :=
  result.heldLocks = tables.heldLocks ∧ result.lockTreeBacktrace = tables.lockTreeBacktrace

theorem SamePointers.trans {middle : Tables} (first : SamePointers tables middle)
    (second : SamePointers middle result) : SamePointers tables result :=
  ⟨second.1.trans first.1, second.2.trans first.2⟩

theorem initLockIdsBitmap_pointers (tables : Tables) :
    SamePointers tables (initLockIdsBitmap tables) := by
  unfold initLockIdsBitmap
  split_ifs <;> exact ⟨rfl, rfl⟩

theorem scanFreeId_pointers (tables : Tables) : SamePointers tables (scanFreeId tables).1 := by
  unfold scanFreeId
  cases firstFreeId tables.lockIdsBitmap with
  | some id => exact ⟨rfl, rfl⟩
  | none => exact ⟨rfl, rfl⟩

theorem lockdepGetFreeId_pointers (tables : Tables) :
    SamePointers tables (lockdepGetFreeId tables).1 := by
  have prepared := initLockIdsBitmap_pointers tables
  have scanned := prepared.trans (scanFreeId_pointers (initLockIdsBitmap tables))
  unfold lockdepGetFreeId
  generalize initLockIdsBitmap tables = ready at prepared scanned ⊢
  cases hint : ready.lastFreeLockId with
  | none =>
      simp only [hint]
      exact scanned
  | some last =>
      simp only [hint]
      split_ifs
      · exact prepared
      · exact scanned

theorem lockdepRegisterHeld_pointers (tables : Tables) (name : Name) :
    SamePointers tables (lockdepRegisterHeld tables name).1 := by
  have taken := lockdepGetFreeId_pointers tables
  rw [lockdepRegisterHeld]
  cases tables.nameToId (cStr name) with
  | some id => exact ⟨rfl, rfl⟩
  | none =>
      generalize lockdepGetFreeId tables = outcome at taken ⊢
      obtain ⟨found, id⟩ := outcome
      cases id with
      | none => exact taken
      | some id => exact taken

end Frames

/-! ### Every call keeps them so -/

section Calls

variable {storage : Storage} {allocator : Allocator}

structure Implements (ending : Ending) (outcome : Outcome (Option Nat)) : Prop where
  sound : ending.Sound
  values : ending.values = some outcome

theorem Implements.withId {name : Name} {id : Option Nat} {body : Storage → Nat → Ending}
    {outcome : Outcome (Option Nat)} (sound : storage.Sound)
    (inner : ∀ tables found, ensureId storage.tables name id = .returned tables found →
      Storage.Sound { storage with tables := tables } →
      Implements (body { storage with tables := tables } found) outcome)
    (failed : ∀ tables, ensureId storage.tables name id = .threw tables →
      outcome = .threw tables) :
    Implements (storage.withId name id body) outcome := by
  cases id with
  | some id => exact inner storage.tables id rfl sound
  | none =>
      have same := lockdepRegisterHeld_pointers storage.tables name
      simp only [Storage.withId, ensureId, lockdepRegister] at inner failed ⊢
      generalize lockdepRegisterHeld storage.tables name = registered at same inner failed ⊢
      obtain ⟨tables, found⟩ := registered
      have still := sound.transfer same.1 same.2
      cases found with
      | none =>
          rw [failed tables rfl]
          exact ⟨still, rfl⟩
      | some found => exact inner tables found rfl still

theorem addDependency_pointers (tables : Tables) (held id : Nat) (trace : BackTrace) :
    (addDependency tables held id trace).heldLocks = tables.heldLocks ∧
      ∀ left right, (addDependency tables held id trace).lockTreeBacktrace left right =
        if left = held ∧ right = id then some trace
        else tables.lockTreeBacktrace left right := by
  simp only [addDependency]
  generalize recorded : ({ tables with
      lockTree := _
      lockTreeBacktrace := _ } : Tables) = grown
  obtain ⟨names, renamed⟩ := ((Renamed.refl grown).touch held).touch id
  rw [renamed, ← recorded]
  exact ⟨rfl, fun _ _ => rfl⟩

theorem Storage.Sound.addDependency {tables : Tables} (sound : storage.Sound)
    (renamed : Renamed storage.tables tables) (held id : Nat) (trace : BackTrace) :
    Storage.Sound
      { tables := Lockdep.addDependency tables held id trace
        backtraces := storage.backtraces.store allocator (.edge held id) trace } := by
  obtain ⟨names, rfl⟩ := renamed
  obtain ⟨sameHeld, traces⟩ :=
    addDependency_pointers { storage.tables with idToName := names } held id trace
  refine ⟨sound.owned.store allocator _ trace, ?_, ?_⟩
  · intro tid other found
    dsimp only
    rw [sound.owned.store_contents, if_neg (by simp), sameHeld]
    exact sound.held tid other found
  · intro left right
    dsimp only
    rw [sound.owned.store_contents, traces]
    simp only [Slot.edge.injEq]
    split_ifs
    · rfl
    · exact sound.edge left right

theorem willLockLoop_implements (id : Nat) (trace : BackTrace) (entries : List (Nat × BackTrace))
    (sound : storage.Sound) :
    Implements (storage.willLockLoop allocator id trace (entries.map Prod.fst))
      ((willLockLoop id trace entries storage.tables).map some) := by
  induction entries generalizing storage with
  | nil => exact ⟨sound, rfl⟩
  | cons entry rest ih =>
      obtain ⟨held, since⟩ := entry
      rw [List.map_cons, Storage.willLockLoop, willLockLoop]
      split_ifs with same edge
      · exact ⟨trivial, rfl⟩
      · exact ih sound
      · cases followed : doesFollow followDepth storage.tables id held with
        | none => exact ⟨trivial, rfl⟩
        | some outcome =>
            obtain ⟨tables, answer⟩ := outcome
            cases answer with
            | true => exact ⟨trivial, rfl⟩
            | false =>
                exact ih (sound.addDependency (doesFollow_renamed followed) held id trace)

theorem Storage.Sound.hold (sound : storage.Sound) (tid : Tid) (id : Nat) (trace : BackTrace) :
    (storage.hold allocator tid id trace).Sound := by
  refine ⟨sound.owned.store allocator _ trace, ?_, ?_⟩
  · intro other target found
    simp only [Storage.hold]
    rw [sound.owned.store_contents, Function.update_apply]
    by_cases mine : other = tid
    · subst mine
      rw [if_pos rfl, OrderedMap.mem_entries_assign, Prod.mk.injEq]
      by_cases here : target = id
      · rw [if_pos (by rw [here]), Option.some.injEq]
        simp [here, eq_comm]
      · rw [if_neg (by simp [here]), sound.held]
        simp [here]
    · rw [if_neg (by simp [mine]), if_neg mine]
      exact sound.held other target found
  · intro left right
    simp only [Storage.hold]
    rw [sound.owned.store_contents, if_neg (by simp)]
    exact sound.edge left right

theorem willUnlock_implements (sound : storage.Sound) (tid : Tid) (id : Nat) :
    Implements (storage.willUnlock tid id)
      (.returned (lockdepWillUnlock storage.tables tid (some id)) (some id)) := by
  obtain ⟨backtraces, freed, owned, emptied⟩ := sound.owned.release (.held tid id)
  rw [Storage.willUnlock, freed]
  refine ⟨⟨owned, ?_, ?_⟩, rfl⟩
  · intro other target found
    simp only [lockdepWillUnlock]
    rw [emptied.contents, Function.update_apply]
    by_cases mine : other = tid
    · subst mine
      rw [if_pos rfl, OrderedMap.mem_entries_erase]
      by_cases here : target = id
      · simp [here]
      · rw [if_neg (by simp [here]), sound.held]
        simp [here]
    · rw [if_neg (by simp [mine]), if_neg mine]
      exact sound.held other target found
  · intro left right
    simp only [lockdepWillUnlock]
    rw [emptied.contents, if_neg (by simp)]
    exact sound.edge left right

def Slot.Passed (id bound : Nat) : Slot → Prop
  | .held _ _ => False
  | .edge left right => (left = id ∧ right < bound) ∨ (right = id ∧ left < bound)

instance (id bound : Nat) (place : Slot) : Decidable (place.Passed id bound) := by
  cases place <;> unfold Slot.Passed <;> infer_instance

theorem Slot.passed_succ (id bound : Nat) (place : Slot) :
    place.Passed id (bound + 1) ↔
      place = .edge bound id ∨ place = .edge id bound ∨ place.Passed id bound := by
  cases place with
  | held tid other => simp [Slot.Passed]
  | edge left right =>
      simp only [Slot.Passed, Slot.edge.injEq]
      omega

theorem clearPointers_clears {backtraces : Memory Slot BackTrace} (owned : backtraces.Owned)
    (id bound : Nat) :
    ∃ after, Storage.clearPointers id bound backtraces = some after ∧ after.Owned ∧
      after.lost = backtraces.lost ∧ ∀ place, after.contents place =
        if place.Passed id bound then none else backtraces.contents place := by
  induction bound with
  | zero =>
      refine ⟨backtraces, rfl, owned, rfl, ?_⟩
      intro place
      rw [if_neg]
      cases place <;> simp [Slot.Passed]
  | succ bound ih =>
      obtain ⟨passed, cleared, passedOwned, passedLost, passedContents⟩ := ih
      obtain ⟨middle, first, middleOwned, rowEmptied⟩ := passedOwned.release (.edge id bound)
      obtain ⟨after, second, afterOwned, columnEmptied⟩ := middleOwned.release (.edge bound id)
      refine ⟨after, ?_, afterOwned, ?_, ?_⟩
      · rw [Storage.clearPointers, cleared, Option.bind_some, first, Option.bind_some, second]
      · rw [columnEmptied.lost, rowEmptied.lost, passedLost]
      · intro place
        rw [columnEmptied.contents, rowEmptied.contents, passedContents]
        simp only [Slot.passed_succ]
        split_ifs <;> simp_all

theorem lockdepUnregister_pointers (tables : Tables) (id : Nat) :
    (lockdepUnregister tables (some id)).heldLocks = tables.heldLocks ∧
      ∀ left right, (lockdepUnregister tables (some id)).lockTreeBacktrace left right =
        if ((tables.lockRef id).getD 0 - 1 = 0 ∧ (tables.idToName id).isSome) ∧
            (Slot.edge left right).Passed id tables.currentMaxId then none
        else tables.lockTreeBacktrace left right := by
  rw [lockdepUnregister]
  by_cases last : (tables.lockRef id).getD 0 - 1 = 0
  · simp only [if_pos last]
    cases named : tables.idToName id with
    | none => exact ⟨rfl, fun _ _ => by simp [releaseId]⟩
    | some name =>
        obtain ⟨tree, traces, cleared, same⟩ := forgetLock_cleared tables id name
        dsimp only
        rw [same]
        refine ⟨rfl, ?_⟩
        intro left right
        change traces left right = _
        rw [cleared.pointers]
        simp [Slot.Passed, last]
  · rw [if_neg last]
    exact ⟨rfl, fun _ _ => by simp [last]⟩

theorem unregister_implements (sound : storage.Sound) (id : Nat) :
    Implements (storage.unregister id)
      (.returned (lockdepUnregister storage.tables (some id)) none) := by
  obtain ⟨sameHeld, traces⟩ := lockdepUnregister_pointers storage.tables id
  simp only [Storage.unregister]
  by_cases last : (storage.tables.lockRef id).getD 0 - 1 = 0 ∧
      (storage.tables.idToName id).isSome
  · obtain ⟨after, cleared, owned, _lost, contents⟩ :=
      clearPointers_clears sound.owned id storage.tables.currentMaxId
    rw [if_pos last, cleared]
    refine ⟨⟨owned, ?_, ?_⟩, rfl⟩
    · intro tid other found
      dsimp only
      rw [contents, if_neg (by simp [Slot.Passed]), sameHeld]
      exact sound.held tid other found
    · intro left right
      dsimp only
      rw [contents, traces, sound.edge]
      simp [last]
  · rw [if_neg last]
    refine ⟨sound.transfer sameHeld ?_, rfl⟩
    funext left right
    rw [traces, if_neg (fun both => last both.1)]

theorem call_implements (sound : storage.Sound) (request : Call) :
    Implements (storage.call allocator request) (storage.tables.call request) := by
  cases request with
  | register name =>
      have same : lockdepRegister storage.tables name = ensureId storage.tables name none := rfl
      rw [Storage.call]
      apply Implements.withId sound
      · intro tables id found still
        rw [Tables.call, same, found]
        exact ⟨still, rfl⟩
      · intro tables failed
        rw [Tables.call, same, failed]
        rfl
  | willLock tid name id trace =>
      rw [Storage.call]
      apply Implements.withId sound
      · intro tables id found still
        rw [Tables.call, lockdepWillLock, found]
        exact willLockLoop_implements id trace _ still
      · intro tables failed
        rw [Tables.call, lockdepWillLock, failed]
        rfl
  | locked tid name id trace =>
      rw [Storage.call]
      apply Implements.withId sound
      · intro tables id found still
        rw [Tables.call, lockdepLocked, found]
        exact ⟨still.hold tid id trace, rfl⟩
      · intro tables failed
        rw [Tables.call, lockdepLocked, failed]
        rfl
  | willUnlock tid id =>
      cases id with
      | none => exact ⟨sound, rfl⟩
      | some id => exact willUnlock_implements sound tid id
  | unregister id =>
      cases id with
      | none => exact ⟨sound, rfl⟩
      | some id => exact unregister_implements sound id

end Calls

/-! ### Runs of calls -/

/-- The storage, with what the callers have done: how many registrations of every
identifier are not undone, which threads have reported a lock as taken and not yet as
given up, and how often a thread has reported one that it had reported before. -/
structure Usage where
  storage : Storage
  live : Nat → Nat
  holders : List (Tid × Nat)
  relocked : Nat

namespace Usage

def initial : Usage := ⟨Storage.initial, fun _ => 0, [], 0⟩

def enroll (usage : Usage) (given : Option Nat) (id : Nat) : Usage :=
  { usage with live := if given = none then gain usage.live id else usage.live }

def note (usage : Usage) : Call → Option Nat → Usage
  | .register _, some id => usage.enroll none id
  | .willLock _ _ given _, some id => usage.enroll given id
  | .locked tid _ given _, some id =>
      { usage.enroll given id with
        holders := (tid, id) :: usage.holders
        relocked := usage.relocked + if (tid, id) ∈ usage.holders then 1 else 0 }
  | .willUnlock tid (some id), _ =>
      { usage with holders := usage.holders.filter (· ≠ (tid, id)) }
  | .unregister (some id), _ => { usage with live := lose usage.live id }
  | _, _ => usage

def step (allocator : Allocator) (usage : Usage) (request : Call) : Option Usage :=
  match usage.storage.call allocator request with
  | .returned storage id => some { usage.note request id with storage := storage }
  | .threw storage => some { usage with storage := storage }
  | .aborted | .diverged | .undefined => none

/-- The contract of the lock classes: an identifier that is passed is a registered one,
and the last registration is not undone while a thread holds the lock. -/
def Orderly (usage : Usage) : Call → Prop
  | .register _ => True
  | .willLock _ _ given _ => ∀ id ∈ given, usage.live id ≠ 0
  | .locked _ _ given _ => ∀ id ∈ given, usage.live id ≠ 0
  | .willUnlock _ _ => True
  | .unregister given => ∀ id ∈ given, usage.live id ≠ 0 ∧
      (usage.live id = 1 → ∀ holder ∈ usage.holders, holder.2 ≠ id)

instance (usage : Usage) (request : Call) : Decidable (usage.Orderly request) := by
  cases request <;> unfold Orderly <;> infer_instance

end Usage

def usages (allocator : Allocator) : Runs.System Usage Call where
  initial usage := usage = Usage.initial
  step := Usage.step allocator

section Runs

variable {allocator : Allocator} {usage : Usage}

theorem Usage.step_sound {following : Usage} {request : Call} (sound : usage.storage.Sound)
    (taken : usage.step allocator request = some following) : following.storage.Sound := by
  have implements : (usage.storage.call allocator request).Sound :=
    (call_implements sound request).sound
  rw [Usage.step] at taken
  generalize usage.storage.call allocator request = ending at implements taken
  cases ending with
  | returned storage id =>
      cases taken
      exact implements
  | threw storage =>
      cases taken
      exact implements
  | aborted => cases taken
  | diverged => cases taken
  | undefined => cases taken

theorem reachable_sound {discipline : Usage → Call → Prop}
    (reached : Runs.Reachable (usages allocator) discipline usage) : usage.storage.Sound := by
  induction reached with
  | start initial =>
      rw [initial]
      exact .initial
  | next request _before _permitted taken sound => exact Usage.step_sound sound taken

/-- Whatever the callers do inside the tables, every pointer to a backtrace is good, none
is shared, and the pointers stand for the values of the tables; so no entry point ever
deletes what is not allocated, and each does what it does on the tables. -/
theorem backtraces_owned
    (reached : Runs.Reachable (usages allocator) (fun _ request => request.InTables) usage) :
    usage.storage.Sound ∧ ∀ request : Call, request.InTables →
      (usage.storage.call allocator request).values = some (usage.storage.tables.call request) :=
  have sound := reachable_sound reached
  ⟨sound, fun request _inside => (call_implements sound request).values⟩

/-- A lock that is unregistered while it is held, and then given up twice. -/
theorem backtraces_owned_after_misuse :
    ∃ usage, Runs.Reachable (usages .above) (fun _ request => request.InTables) usage ∧
      usage.storage.tables.idToName 0 = none ∧
      (usage.storage.tables.heldLocks 1).keys = [] ∧ usage.storage.Sound ∧
      (usage.storage.call .above (.willUnlock 1 (some 0))).values =
        some (.returned (lockdepWillUnlock usage.storage.tables 1 (some 0)) (some 0)) := by
  let trace : BackTrace := ⟨0, []⟩
  let calls : List Call :=
    [.register [97], .locked 1 [97] (some 0) trace, .unregister (some 0), .willUnlock 1 (some 0)]
  obtain ⟨usage, reached, passed⟩ := Runs.exists_of_replay
    (fun _ request => request.InTables)
    (show (usages .above).initial Usage.initial from rfl) calls
    (fun usage => decide (usage.storage.tables.idToName 0 = none ∧
      (usage.storage.tables.heldLocks 1).keys = [])) (by decide +kernel)
  obtain ⟨unnamed, given⟩ := of_decide_eq_true passed
  obtain ⟨sound, values⟩ := backtraces_owned reached
  exact ⟨usage, reached, unnamed, given, sound, values _ (by decide)⟩

end Runs

end BlueThread.Lockdep
