/-
Backtraces that nobody frees.

A pointer to a backtrace is lost when its place is overwritten. The matrix never loses
one, because a dependency with a backtrace is one whose bit is set, and its bit is
tested first. The map of a thread loses one when the thread is recorded as the holder
of a lock that it is already recorded to hold, which `try_lock` does on a second lock
of the same name: it asks for no permission before.
-/

import BlueThread.Lockdep.Memory

namespace BlueThread.Lockdep

open Slots

structure Usage.Kept (usage : Usage) : Prop where
  sound : usage.storage.Sound
  registry : Registry usage.storage.tables usage.live
  order : LockOrder usage.storage.tables
  holders : ∀ tid id, (tid, id) ∈ usage.holders ↔
    id ∈ (usage.storage.tables.heldLocks tid).keys
  known : ∀ tid, ∀ id ∈ (usage.storage.tables.heldLocks tid).keys,
    usage.storage.tables.Registered id
  lost : usage.storage.backtraces.lost.length = usage.relocked

section Kept

variable {allocator : Allocator} {usage : Usage} {tables : Tables} {name : Name}
  {given : Option Nat} {id : Nat}

theorem Usage.Kept.initial : Usage.initial.Kept where
  sound := .initial
  registry := .initial
  order := .initial
  holders _ _ := ⟨nofun, nofun⟩
  known _ _ member := nomatch member
  lost := rfl

theorem Usage.Kept.register (kept : usage.Kept) {live : Nat → Nat}
    (registered : (lockdepRegisterHeld usage.storage.tables name).1 = tables)
    (registry : Registry tables live) :
    Usage.Kept { usage with storage := { usage.storage with tables := tables }, live := live } := by
  have frame := lockdepRegisterHeld_frame kept.registry name
  have order := kept.order.register kept.registry name
  rw [registered] at frame order
  refine ⟨kept.sound.transfer frame.held frame.traces, registry, order, ?_, ?_, kept.lost⟩
  · intro tid other
    change _ ↔ other ∈ (tables.heldLocks tid).keys
    rw [frame.held]
    exact kept.holders tid other
  · intro tid other member
    change other ∈ (tables.heldLocks tid).keys at member
    rw [frame.held] at member
    obtain ⟨found, named⟩ := Option.isSome_iff_exists.mp (kept.known tid other member)
    exact Option.isSome_iff_exists.mpr ⟨found, frame.kept other found named⟩

theorem Usage.Kept.ensureId (kept : usage.Kept) (orderly : ∀ known ∈ given, usage.live known ≠ 0)
    (found : Lockdep.ensureId usage.storage.tables name given = .returned tables id) :
    Usage.Kept
        { usage.enroll given id with storage := { usage.storage with tables := tables } } ∧
      tables.Registered id := by
  cases given with
  | some known =>
      cases found
      exact ⟨kept, (kept.registry.named id).mpr (orderly id rfl)⟩
  | none =>
      have held : lockdepRegisterHeld usage.storage.tables name = (tables, some id) := by
        simp only [Lockdep.ensureId, lockdepRegister] at found
        generalize lockdepRegisterHeld usage.storage.tables name = outcome at found ⊢
        obtain ⟨result, known⟩ := outcome
        cases known with
        | none => cases found
        | some known =>
            cases found
            rfl
      have registry := lockdepRegisterHeld_registry kept.registry held
      refine ⟨kept.register (by rw [held]) registry, ?_⟩
      rw [registry.named, gain, Function.update_self]
      exact Nat.succ_ne_zero _

theorem Usage.Kept.ensureId_threw (kept : usage.Kept)
    (failed : Lockdep.ensureId usage.storage.tables name given = .threw tables) :
    Usage.Kept { usage with storage := { usage.storage with tables := tables } } := by
  cases given with
  | some known => cases failed
  | none =>
      have held : lockdepRegisterHeld usage.storage.tables name = (tables, none) := by
        simp only [Lockdep.ensureId, lockdepRegister] at failed
        generalize lockdepRegisterHeld usage.storage.tables name = outcome at failed ⊢
        obtain ⟨result, known⟩ := outcome
        cases known with
        | none =>
            cases failed
            rfl
        | some known => cases failed
      exact kept.register (by rw [held]) (lockdepRegisterHeld_failed kept.registry held)

def Tables.Traced (tables : Tables) : Prop :=
  ∀ left right, (tables.lockTreeBacktrace left right).isSome = follows tables left right

theorem Tables.Traced.addDependency {result : Tables} (traced : tables.Traced)
    (renamed : Renamed tables result) (held id : Nat) (trace : BackTrace) :
    (Lockdep.addDependency result held id trace).Traced := by
  obtain ⟨names, rfl⟩ := renamed
  intro left right
  rw [(addDependency_pointers _ held id trace).2]
  simp only [Lockdep.addDependency]
  generalize recorded : ({ tables with
      idToName := names
      lockTree := _
      lockTreeBacktrace := _ } : Tables) = grown
  obtain ⟨later, again⟩ := ((Renamed.refl grown).touch held).touch id
  rw [again, ← recorded]
  change _ = PackedBits.testBit (Function.update tables.lockTree held
    (PackedBits.setBit (tables.lockTree held) id) left) right
  have before := traced left right
  rw [Function.update_apply]
  by_cases mine : left = held
  · subst mine
    rw [if_pos rfl, PackedBits.testBit_setBit]
    by_cases here : right = id
    · simp [here]
    · simp only [here, and_false, if_false, decide_false, Bool.false_or]
      exact before
  · rw [if_neg mine, if_neg (fun both => mine both.1)]
    exact before

theorem willLockLoop_lost {storage result : Storage} {trace : BackTrace} {held : List Nat}
    {final : Option Nat} (sound : storage.Sound) (traced : storage.tables.Traced)
    (returned : storage.willLockLoop allocator id trace held = .returned result final) :
    result.backtraces.lost = storage.backtraces.lost := by
  induction held generalizing storage with
  | nil =>
      cases returned
      rfl
  | cons held rest ih =>
      rw [Storage.willLockLoop] at returned
      split_ifs at returned with same edge
      · exact ih sound traced returned
      · cases followed : doesFollow followDepth storage.tables id held with
        | none =>
            rw [followed] at returned
            cases returned
        | some outcome =>
            obtain ⟨tables, answer⟩ := outcome
            rw [followed] at returned
            cases answer with
            | true => cases returned
            | false =>
                have renamed := doesFollow_renamed followed
                have blank : storage.backtraces.contents (.edge held id) = none := by
                  rw [sound.edge, ← Option.isNone_iff_eq_none, ← Option.not_isSome, traced]
                  simp [edge]
                rw [ih (sound.addDependency renamed held id trace)
                  (traced.addDependency renamed held id trace) returned]
                simp only [Memory.store, sound.owned.pointer_eq_none blank]
                rfl

theorem Usage.Kept.willLock (kept : usage.Kept) (registered : usage.storage.tables.Registered id)
    {tid : Tid} {trace : BackTrace} {storage : Storage} {final : Option Nat}
    (returned : usage.storage.willLockLoop allocator id trace
      (usage.storage.tables.heldLocks tid).keys = .returned storage final) :
    Usage.Kept { usage with storage := storage } ∧ final = some id := by
  have implements : Implements (usage.storage.willLockLoop allocator id trace
      (usage.storage.tables.heldLocks tid).keys) _ :=
    willLockLoop_implements id trace (usage.storage.tables.heldLocks tid).entries kept.sound
  rw [returned] at implements
  have values := implements.values
  rcases willLockLoop_decides id trace usage.live (usage.storage.tables.heldLocks tid).entries
      usage.storage.tables kept.registry kept.order registered (kept.known tid) with
    ⟨aborted, _conflict⟩ | ⟨result, finished, extended, _clean⟩
  · rw [aborted] at values
    cases values
  · rw [finished] at values
    simp only [Ending.values, Outcome.map, Option.some.injEq, Outcome.returned.injEq] at values
    obtain ⟨same, rfl⟩ := values
    obtain ⟨tree, traces, only⟩ := extended.only
    refine ⟨⟨implements.sound, ?_, ?_, ?_, ?_, ?_⟩, rfl⟩
    · change Registry storage.tables usage.live
      rw [same, only]
      exact kept.registry.frame tree traces _
    · change LockOrder storage.tables
      rw [same]
      exact extended.order
    · intro other target
      change _ ↔ target ∈ (storage.tables.heldLocks other).keys
      rw [same, only]
      exact kept.holders other target
    · intro other target member
      change target ∈ (storage.tables.heldLocks other).keys at member
      change storage.tables.Registered target
      rw [same, only] at member ⊢
      exact kept.known other target member
    · change storage.backtraces.lost.length = usage.relocked
      rw [willLockLoop_lost kept.sound kept.order.traced returned]
      exact kept.lost

theorem Storage.Sound.pointer_held {storage : Storage} (sound : storage.Sound) (tid : Tid)
    (id : Nat) : (storage.backtraces.pointer (.held tid id)).isSome = true ↔
      id ∈ (storage.tables.heldLocks tid).keys := by
  rw [OrderedMap.mem_keys_iff]
  constructor
  · intro present
    cases stored : storage.backtraces.contents (.held tid id) with
    | none =>
        rw [sound.owned.pointer_eq_none stored] at present
        cases present
    | some trace => exact ⟨trace, (sound.held tid id trace).mp stored⟩
  · rintro ⟨trace, entry⟩
    have stored := (sound.held tid id trace).mpr entry
    rw [Memory.contents] at stored
    cases found : storage.backtraces.pointer (.held tid id) with
    | none =>
        rw [found] at stored
        cases stored
    | some address => rfl

theorem Usage.Kept.locked (kept : usage.Kept) (registered : usage.storage.tables.Registered id)
    (tid : Tid) (trace : BackTrace) :
    Usage.Kept
      { usage with
        storage := usage.storage.hold allocator tid id trace
        holders := (tid, id) :: usage.holders
        relocked := usage.relocked + if (tid, id) ∈ usage.holders then 1 else 0 } := by
  have keys (other : Tid) (target : Nat) :
      target ∈ ((usage.storage.hold allocator tid id trace).tables.heldLocks other).keys ↔
        (other = tid ∧ target = id) ∨
          target ∈ (usage.storage.tables.heldLocks other).keys := by
    simp only [Storage.hold]
    rw [Function.update_apply]
    by_cases mine : other = tid
    · subst mine
      simp
    · simp [mine]
  refine ⟨kept.sound.hold tid id trace, kept.registry.frame _ _ _,
    kept.order.transfer rfl rfl fun _ known => known, ?_, ?_, ?_⟩
  · intro other target
    rw [keys, ← kept.holders, List.mem_cons, Prod.mk.injEq]
  · intro other target member
    rcases (keys other target).mp member with ⟨_, rfl⟩ | before
    · exact registered
    · exact kept.known other target before
  · have present := kept.sound.pointer_held tid id
    rw [← kept.holders] at present
    simp only [Storage.hold, Memory.store, List.length_append, kept.lost]
    rw [Nat.add_comm]
    congr 1
    cases found : usage.storage.backtraces.pointer (.held tid id) with
    | none =>
        rw [found] at present
        have absent : (tid, id) ∉ usage.holders := by
          intro holds
          cases present.mpr holds
        rw [if_neg absent]
        rfl
    | some address =>
        rw [found] at present
        rw [if_pos (present.mp rfl)]
        rfl

theorem Usage.Kept.willUnlock (kept : usage.Kept) {tid : Tid} {storage : Storage}
    {final : Option Nat}
    (returned : usage.storage.willUnlock tid id = .returned storage final) :
    Usage.Kept
      { usage with storage := storage, holders := usage.holders.filter (· ≠ (tid, id)) } := by
  have sound := (willUnlock_implements kept.sound tid id).sound
  rw [returned] at sound
  obtain ⟨backtraces, freed, _owned, emptied⟩ := kept.sound.owned.release (.held tid id)
  rw [Storage.willUnlock, freed] at returned
  cases returned
  have keys (other : Tid) (target : Nat) :
      target ∈ ((lockdepWillUnlock usage.storage.tables tid (some id)).heldLocks other).keys ↔
        target ∈ (usage.storage.tables.heldLocks other).keys ∧ (other, target) ≠ (tid, id) := by
    simp only [lockdepWillUnlock]
    rw [Function.update_apply]
    by_cases mine : other = tid
    · subst mine
      simp [and_comm]
    · simp [mine]
  refine ⟨sound, kept.registry.frame _ _ _,
    kept.order.transfer rfl rfl fun _ known => known, ?_, ?_, ?_⟩
  · intro other target
    rw [keys, ← kept.holders, List.mem_filter, decide_eq_true_eq]
  · intro other target member
    exact kept.known other target ((keys other target).mp member).1
  · exact emptied.lost ▸ kept.lost

theorem Usage.Kept.unregister (kept : usage.Kept) (live : usage.live id ≠ 0)
    (unheld : usage.live id = 1 → ∀ holder ∈ usage.holders, holder.2 ≠ id)
    {storage : Storage} {final : Option Nat}
    (returned : usage.storage.unregister id = .returned storage final) :
    Usage.Kept { usage with storage := storage, live := lose usage.live id } := by
  have implements := unregister_implements kept.sound id
  rw [returned] at implements
  have same : storage.tables = lockdepUnregister usage.storage.tables (some id) := by
    have values := implements.values
    simp only [Ending.values, Option.some.injEq, Outcome.returned.injEq] at values
    exact values.1
  have held := lockdepUnregister_held kept.registry live
  have lost : storage.backtraces.lost = usage.storage.backtraces.lost := by
    obtain ⟨after, cleared, _owned, unlost, _contents⟩ :=
      clearPointers_clears kept.sound.owned id usage.storage.tables.currentMaxId
    simp only [Storage.unregister] at returned
    rw [cleared] at returned
    split_ifs at returned
    · cases returned
      exact unlost
    · cases returned
      rfl
  refine ⟨implements.sound, ?_, ?_, ?_, ?_, ?_⟩
  · change Registry storage.tables _
    rw [same]
    exact lockdepUnregister_registry kept.registry live
  · change LockOrder storage.tables
    rw [same]
    exact kept.order.unregister kept.registry live
  · intro tid other
    change _ ↔ other ∈ (storage.tables.heldLocks tid).keys
    rw [same, held]
    exact kept.holders tid other
  · intro tid other member
    change other ∈ (storage.tables.heldLocks tid).keys at member
    change storage.tables.Registered other
    rw [same] at member ⊢
    rw [held] at member
    apply lockdepUnregister_registered kept.registry live (kept.known tid other member)
    intro last
    exact unheld last (tid, other) ((kept.holders tid other).mpr member)
  · change storage.backtraces.lost.length = usage.relocked
    rw [lost]
    exact kept.lost

def Ending.Leaves (good : Storage → Option Nat → Prop) (failed : Storage → Prop) : Ending → Prop
  | .returned storage id => good storage id
  | .threw storage => failed storage
  | .aborted | .diverged | .undefined => True

theorem Usage.Kept.withId (kept : usage.Kept) (orderly : ∀ known ∈ given, usage.live known ≠ 0)
    {body : Storage → Nat → Ending} {good : Storage → Option Nat → Prop}
    (inner : ∀ tables id,
      Usage.Kept
        { usage.enroll given id with storage := { usage.storage with tables := tables } } →
      tables.Registered id →
      (body { usage.storage with tables := tables } id).Leaves good
        fun storage => Usage.Kept { usage with storage := storage }) :
    (usage.storage.withId name given body).Leaves good
      fun storage => Usage.Kept { usage with storage := storage } := by
  rw [Storage.withId]
  cases found : Lockdep.ensureId usage.storage.tables name given with
  | returned tables id =>
      obtain ⟨still, registered⟩ := kept.ensureId orderly found
      exact inner tables id still registered
  | threw tables => exact kept.ensureId_threw found
  | aborted => trivial
  | diverged => trivial

theorem willLockLoop_leaves {storage : Storage} {trace : BackTrace} {held : List Nat}
    {good : Storage → Option Nat → Prop} {failed : Storage → Prop}
    (returns : ∀ result final,
      storage.willLockLoop allocator id trace held = .returned result final → good result final) :
    (storage.willLockLoop allocator id trace held).Leaves good failed := by
  induction held generalizing storage with
  | nil => exact returns storage (some id) rfl
  | cons held rest ih =>
      rw [Storage.willLockLoop] at returns ⊢
      split_ifs at returns ⊢ with same edge
      · trivial
      · exact ih returns
      · cases followed : doesFollow followDepth storage.tables id held with
        | none => trivial
        | some outcome =>
            obtain ⟨tables, answer⟩ := outcome
            rw [followed] at returns
            cases answer with
            | true => trivial
            | false => exact ih returns

theorem Usage.Kept.call (kept : usage.Kept) {request : Call} (orderly : usage.Orderly request) :
    (usage.storage.call allocator request).Leaves
      (fun storage final => Usage.Kept { usage.note request final with storage := storage })
      fun storage => Usage.Kept { usage with storage := storage } := by
  cases request with
  | register name =>
      rw [Storage.call]
      refine kept.withId ?_ ?_
      · intro known member
        cases member
      · intro tables id still _registered
        exact still
  | willLock tid name given trace =>
      rw [Storage.call]
      apply kept.withId orderly
      intro tables id still registered
      apply willLockLoop_leaves
      intro storage final returned
      obtain ⟨after, rfl⟩ := still.willLock registered returned
      exact after
  | locked tid name given trace =>
      rw [Storage.call]
      apply kept.withId orderly
      intro tables id still registered
      exact still.locked registered tid trace
  | willUnlock tid given =>
      cases given with
      | none => exact kept
      | some id =>
          rw [Storage.call]
          have values := (willUnlock_implements kept.sound tid id).values
          cases ended : usage.storage.willUnlock tid id with
          | returned storage final => exact kept.willUnlock ended
          | threw storage =>
              rw [ended] at values
              cases values
          | aborted => trivial
          | diverged => trivial
          | undefined => trivial
  | unregister given =>
      cases given with
      | none => exact kept
      | some id =>
          rw [Storage.call]
          obtain ⟨live, unheld⟩ := orderly id rfl
          have values := (unregister_implements kept.sound id).values
          cases ended : usage.storage.unregister id with
          | returned storage final => exact kept.unregister live unheld ended
          | threw storage =>
              rw [ended] at values
              cases values
          | aborted => trivial
          | diverged => trivial
          | undefined => trivial

theorem Usage.step_kept {following : Usage} {request : Call} (kept : usage.Kept)
    (orderly : usage.Orderly request)
    (taken : usage.step allocator request = some following) : following.Kept := by
  have leaves : (usage.storage.call allocator request).Leaves _ _ := kept.call orderly
  rw [Usage.step] at taken
  generalize usage.storage.call allocator request = ending at leaves taken
  cases ending with
  | returned storage final =>
      cases taken
      exact leaves
  | threw storage =>
      cases taken
      exact leaves
  | aborted => cases taken
  | diverged => cases taken
  | undefined => cases taken

theorem reachable_kept (reached : Runs.Reachable (usages allocator) Usage.Orderly usage) :
    usage.Kept := by
  induction reached with
  | start initial =>
      rw [initial]
      exact .initial
  | next request _before orderly taken kept => exact Usage.step_kept kept orderly taken

theorem Usage.Kept.no_pointers (kept : usage.Kept) (gone : ∀ id, usage.live id = 0)
    (place : Slot) : usage.storage.backtraces.contents place = none := by
  have unnamed (id : Nat) : ¬usage.storage.tables.Registered id := by
    rw [kept.registry.named, not_not]
    exact gone id
  cases place with
  | held tid id =>
      rw [Option.eq_none_iff_forall_ne_some]
      intro trace stored
      have entry := (kept.sound.held tid id trace).mp stored
      exact unnamed id (kept.known tid id ((OrderedMap.mem_keys_iff _ _).mpr ⟨trace, entry⟩))
  | edge left right =>
      rw [kept.sound.edge, ← Option.not_isSome_iff_eq_none, kept.order.traced]
      intro edge
      exact unnamed left (kept.order.registered left right edge).1

/-- While the callers keep to the contract, a backtrace is lost exactly when a thread is
recorded as the holder of a lock that it is already recorded to hold. When every lock is
gone, one backtrace is left for each time, and nothing else. -/
theorem backtraces_lost_by_relocking
    (reached : Runs.Reachable (usages allocator) Usage.Orderly usage) :
    usage.storage.backtraces.lost.length = usage.relocked ∧
      ((∀ id, usage.live id = 0) →
        usage.storage.backtraces.heap.addresses.length = usage.relocked) := by
  have kept := reachable_kept reached
  refine ⟨kept.lost, ?_⟩
  intro gone
  rw [← kept.lost]
  exact (kept.sound.owned.lost_perm (kept.no_pointers gone)).length_eq.symm

/-- Two locks of one name, both taken by `try_lock`. -/
theorem backtraces_lost_by_relocking_namesakes :
    ∃ usage, Runs.Reachable (usages .above) Usage.Orderly usage ∧ (∀ id, usage.live id = 0) ∧
      usage.relocked = 1 ∧ usage.storage.backtraces.heap.addresses.length = 1 := by
  let trace : BackTrace := ⟨0, []⟩
  let calls : List Call :=
    [.register [97], .register [97], .register [98],
      .locked 1 [97] (some 0) trace, .locked 1 [97] (some 0) trace,
      .willLock 1 [98] (some 1) trace, .locked 1 [98] (some 1) trace,
      .willUnlock 1 (some 1), .willUnlock 1 (some 0), .willUnlock 1 (some 0),
      .unregister (some 0), .unregister (some 0), .unregister (some 1)]
  obtain ⟨usage, reached, passed⟩ := Runs.exists_of_replay Usage.Orderly
    (show (usages .above).initial Usage.initial from rfl) calls
    (fun usage => decide (usage.storage.tables.currentMaxId = 2 ∧ usage.live 0 = 0 ∧
      usage.live 1 = 0 ∧ usage.relocked = 1)) (by decide +kernel)
  obtain ⟨bound, first, second, once⟩ := of_decide_eq_true passed
  have gone (id : Nat) : usage.live id = 0 := by
    by_contra present
    have registry := (reachable_kept reached).registry
    have below := registry.below id ((registry.named id).mpr present)
    rw [bound] at below
    match id with
    | 0 => exact present first
    | 1 => exact present second
    | larger + 2 => omega
  have leaked := (backtraces_lost_by_relocking reached).2 gone
  exact ⟨usage, reached, gone, once, leaked.trans once⟩

end Kept

end BlueThread.Lockdep
