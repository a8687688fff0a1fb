/-
The checker as a function of names.

Identifiers are labels: while every registered name has one identifier, the
dependency matrix and the held maps can be read as relations between names. The
operations on those relations are stated first, without identifiers; every entry
point of the checker then acts on the tables as the operation acts on the
relations, whichever identifiers were handed out.
-/

import BlueThread.Lockdep.FreeIds
import BlueThread.Lockdep.Order

namespace BlueThread.Lockdep

open PackedBits Relation BlueThread.Digraph

/-! ### A checker without identifiers -/

@[ext]
structure NameOrder where
  held : Tid → Name → BackTrace → Prop
  follows : Name → Name → Prop

namespace NameOrder

variable (order : NameOrder)

def Conflict (tid : Tid) (name : Name) : Prop :=
  ∃ other trace, order.held tid other trace ∧
    (other = name ∨ TransGen order.follows name other)

def extend (tid : Tid) (name : Name) : NameOrder :=
  { order with
    follows := insertInto order.follows (fun left => ∃ trace, order.held tid left trace) name }

def note (tid : Tid) (name : Name) (trace : BackTrace) : NameOrder :=
  { order with
    held := fun other one since =>
      if other = tid then
        (one = name ∧ since = trace) ∨ (one ≠ name ∧ order.held other one since)
      else order.held other one since }

def drop (tid : Tid) (name : Name) : NameOrder :=
  { order with
    held := fun other one since => ¬(other = tid ∧ one = name) ∧ order.held other one since }

def forget (name : Name) : NameOrder :=
  { order with
    follows := fun left right => order.follows left right ∧ left ≠ name ∧ right ≠ name }

end NameOrder

/-! ### Reading the tables by name -/

/-- The relations that the tables encode. -/
def Tables.names (tables : Tables) : NameOrder where
  held tid name trace :=
    ∃ id, tables.idToName id = some name ∧ (id, trace) ∈ (tables.heldLocks tid).entries
  follows left right :=
    ∃ first second, tables.idToName first = some left ∧ tables.idToName second = some right ∧
      tables.Follows first second

structure Labelled (tables : Tables) : Prop where
  indexed : ∀ id name, tables.idToName id = some name → tables.nameToId name = some id
  held : ∀ tid id, id ∈ (tables.heldLocks tid).keys → tables.Registered id

section Labels

variable {tables result : Tables} {live : Nat → Nat} {id other : Nat} {name : Name}

theorem Labelled.unique (labelled : Labelled tables) (one : tables.idToName id = some name)
    (two : tables.idToName other = some name) : id = other := by
  have first := labelled.indexed id name one
  rw [labelled.indexed other name two, Option.some.injEq] at first
  exact first.symm

theorem Labelled.names_follows {left right : Name} (labelled : Labelled tables)
    (atId : tables.idToName id = some left) (atOther : tables.idToName other = some right) :
    tables.names.follows left right ↔ tables.Follows id other := by
  constructor
  · rintro ⟨first, second, atFirst, atSecond, edge⟩
    rw [labelled.unique atId atFirst, labelled.unique atOther atSecond]
    exact edge
  · intro edge
    exact ⟨id, other, atId, atOther, edge⟩

theorem Labelled.names_held {tid : Tid} {trace : BackTrace} (labelled : Labelled tables)
    (atId : tables.idToName id = some name) :
    tables.names.held tid name trace ↔ (id, trace) ∈ (tables.heldLocks tid).entries := by
  constructor
  · rintro ⟨one, atOne, member⟩
    rw [labelled.unique atId atOne]
    exact member
  · intro member
    exact ⟨id, atId, member⟩

theorem Labelled.exists_name {tid : Tid} (labelled : Labelled tables)
    (held : id ∈ (tables.heldLocks tid).keys) : ∃ name, tables.idToName id = some name :=
  Option.isSome_iff_exists.mp (labelled.held tid id held)

theorem Labelled.names_path {left right : Name} (labelled : Labelled tables)
    (order : LockOrder tables) (atId : tables.idToName id = some left)
    (atOther : tables.idToName other = some right) :
    TransGen tables.names.follows left right ↔ TransGen tables.Follows id other := by
  constructor
  · intro path
    have lifted : TransGen tables.Follows ((tables.nameToId left).getD 0)
        ((tables.nameToId right).getD 0) := by
      refine TransGen.lift (fun name => (tables.nameToId name).getD 0) ?_ _ _ path
      rintro one two ⟨first, second, atFirst, atSecond, edge⟩
      change tables.Follows ((tables.nameToId one).getD 0) ((tables.nameToId two).getD 0)
      rw [labelled.indexed first one atFirst, labelled.indexed second two atSecond]
      exact edge
    rw [labelled.indexed id left atId, labelled.indexed other right atOther] at lifted
    exact lifted
  · intro path
    have lifted : TransGen tables.names.follows ((tables.idToName id).getD [])
        ((tables.idToName other).getD []) := by
      refine TransGen.lift (fun id => (tables.idToName id).getD []) ?_ _ _ path
      intro first second edge
      obtain ⟨firstKnown, secondKnown⟩ := order.registered first second edge
      obtain ⟨one, atFirst⟩ := Option.isSome_iff_exists.mp firstKnown
      obtain ⟨two, atSecond⟩ := Option.isSome_iff_exists.mp secondKnown
      change tables.names.follows ((tables.idToName first).getD []) ((tables.idToName second).getD [])
      rw [atFirst, atSecond]
      exact ⟨first, second, atFirst, atSecond, edge⟩
    rw [atId, atOther] at lifted
    exact lifted

theorem names_eq_of_kept (labelled : Labelled tables) (order : LockOrder tables)
    (tree : result.lockTree = tables.lockTree) (held : result.heldLocks = tables.heldLocks)
    (kept : ∀ id, tables.Registered id → result.idToName id = tables.idToName id) :
    result.names = tables.names := by
  have edges (first second : Nat) : result.Follows first second ↔ tables.Follows first second := by
    rw [Tables.Follows, Tables.Follows, follows, follows, tree]
  ext
  · rename_i tid name trace
    change (∃ id, _ ∧ _ ∈ (result.heldLocks tid).entries) ↔ _
    rw [held]
    refine exists_congr fun id => and_congr_left fun member => ?_
    rw [kept id (labelled.held tid id ((OrderedMap.mem_keys_iff _ id).mpr ⟨trace, member⟩))]
  · rename_i left right
    change (∃ first second, _ ∧ _ ∧ result.Follows first second) ↔
      ∃ first second, _ ∧ _ ∧ tables.Follows first second
    refine exists_congr fun first => exists_congr fun second => ?_
    rw [edges first second]
    constructor
    · rintro ⟨atFirst, atSecond, edge⟩
      obtain ⟨firstKnown, secondKnown⟩ := order.registered first second edge
      exact ⟨kept first firstKnown ▸ atFirst, kept second secondKnown ▸ atSecond, edge⟩
    · rintro ⟨atFirst, atSecond, edge⟩
      obtain ⟨firstKnown, secondKnown⟩ := order.registered first second edge
      exact ⟨(kept first firstKnown).trans atFirst, (kept second secondKnown).trans atSecond, edge⟩

end Labels

/-! ### Taking and giving back locks -/

section Locking

variable {tables result : Tables} {live : Nat → Nat} {id : Nat} {name : Name} {tid : Tid}

theorem Labelled.conflict_iff (labelled : Labelled tables) (order : LockOrder tables)
    (atId : tables.idToName id = some name) :
    tables.names.Conflict tid name ↔
      ∃ held ∈ (tables.heldLocks tid).keys, Conflicts tables id held := by
  constructor
  · rintro ⟨other, since, ⟨held, atHeld, member⟩, conflict⟩
    refine ⟨held, (OrderedMap.mem_keys_iff _ held).mpr ⟨since, member⟩, ?_⟩
    rcases conflict with rfl | path
    · exact Or.inl (labelled.unique atHeld atId)
    · exact Or.inr ((labelled.names_path order atId atHeld).mp path)
  · rintro ⟨held, member, conflict⟩
    obtain ⟨other, atHeld⟩ := labelled.exists_name member
    obtain ⟨since, entry⟩ := (OrderedMap.mem_keys_iff _ held).mp member
    refine ⟨other, since, ⟨held, atHeld, entry⟩, ?_⟩
    rcases conflict with rfl | path
    · rw [atId, Option.some.injEq] at atHeld
      exact Or.inl atHeld.symm
    · exact Or.inr ((labelled.names_path order atId atHeld).mpr path)

theorem Extended.names (atId : tables.idToName id = some name)
    (extended : Extended tables result id (tables.heldLocks tid).keys) :
    result.names = tables.names.extend tid name := by
  have edges := extended.edges
  obtain ⟨tree, traces, rfl⟩ := extended.only
  ext
  · rfl
  · rename_i left right
    constructor
    · rintro ⟨first, second, atFirst, atSecond, edge⟩
      rcases (edges first second).mp edge with old | ⟨rfl, member⟩
      · exact Or.inl ⟨first, second, atFirst, atSecond, old⟩
      · obtain ⟨since, entry⟩ := (OrderedMap.mem_keys_iff _ first).mp member
        have same : right = name := Option.some.inj (atSecond.symm.trans atId)
        exact Or.inr ⟨⟨since, first, atFirst, entry⟩, same⟩
    · rintro (⟨first, second, atFirst, atSecond, old⟩ | ⟨⟨since, first, atFirst, entry⟩, rfl⟩)
      · exact ⟨first, second, atFirst, atSecond, (edges first second).mpr (Or.inl old)⟩
      · exact ⟨first, id, atFirst, atId,
          (edges first id).mpr (Or.inr ⟨rfl, (OrderedMap.mem_keys_iff _ first).mpr ⟨since, entry⟩⟩)⟩

/-- `lockdep_will_lock` for a registered lock: it aborts on a conflict, and
otherwise records that the name comes after what the thread holds. -/
theorem lockdepWillLock_names (labelled : Labelled tables) (order : LockOrder tables)
    (registry : Registry tables live) (atId : tables.idToName id = some name) (tid : Tid)
    (trace : BackTrace) :
    (tables.names.Conflict tid name ∧
        lockdepWillLock tables tid name (some id) trace = .aborted) ∨
      (¬tables.names.Conflict tid name ∧ ∃ result,
        lockdepWillLock tables tid name (some id) trace = .returned result id ∧
          result.names = tables.names.extend tid name) := by
  have known : tables.Registered id := by
    rw [Tables.Registered, atId]
    rfl
  rw [labelled.conflict_iff order atId]
  rcases willLockLoop_decides id trace live (tables.heldLocks tid).entries tables registry order
      known (labelled.held tid) with ⟨aborted, conflict⟩ | ⟨result, returned, extended, clean⟩
  · exact Or.inl ⟨conflict, aborted⟩
  · refine Or.inr ⟨?_, result, returned, extended.names atId⟩
    rintro ⟨held, member, conflict⟩
    exact clean held member conflict

theorem lockdepLocked_names (labelled : Labelled tables)
    (atId : tables.idToName id = some name) (tid : Tid) (trace : BackTrace) :
    ∃ result, lockdepLocked tables tid name (some id) trace = .returned result id ∧
      result.names = tables.names.note tid name trace := by
  refine ⟨_, rfl, ?_⟩
  ext
  · rename_i other one since
    change (∃ label, tables.idToName label = some one ∧ (label, since) ∈
      (Function.update tables.heldLocks tid ((tables.heldLocks tid).assign id trace) other).entries)
        ↔ if other = tid then _ else _
    by_cases same : other = tid
    · subst same
      rw [if_pos rfl, Function.update_self]
      simp only [OrderedMap.mem_entries_assign, Prod.mk.injEq]
      constructor
      · rintro ⟨label, atLabel, ⟨rfl, rfl⟩ | ⟨different, member⟩⟩
        · exact Or.inl ⟨Option.some.inj (atLabel.symm.trans atId), rfl⟩
        · refine Or.inr ⟨?_, label, atLabel, member⟩
          rintro rfl
          exact different (labelled.unique atLabel atId)
      · rintro (⟨rfl, rfl⟩ | ⟨different, label, atLabel, member⟩)
        · exact ⟨id, atId, Or.inl ⟨rfl, rfl⟩⟩
        · refine ⟨label, atLabel, Or.inr ⟨?_, member⟩⟩
          rintro rfl
          exact different (Option.some.inj (atLabel.symm.trans atId))
    · rw [if_neg same, Function.update_of_ne same]
      rfl
  · rfl

theorem lockdepWillUnlock_names (labelled : Labelled tables)
    (atId : tables.idToName id = some name) :
    (lockdepWillUnlock tables tid (some id)).names = tables.names.drop tid name := by
  ext
  · rename_i other one since
    change (∃ label, tables.idToName label = some one ∧ (label, since) ∈
      (Function.update tables.heldLocks tid ((tables.heldLocks tid).erase id) other).entries) ↔
        ¬(other = tid ∧ one = name) ∧ tables.names.held other one since
    by_cases same : other = tid
    · subst same
      rw [Function.update_self]
      simp only [OrderedMap.mem_entries_erase, true_and]
      constructor
      · rintro ⟨label, atLabel, different, member⟩
        refine ⟨?_, label, atLabel, member⟩
        rintro rfl
        exact different (labelled.unique atLabel atId)
      · rintro ⟨different, label, atLabel, member⟩
        refine ⟨label, atLabel, ?_, member⟩
        rintro rfl
        exact different (Option.some.inj (atLabel.symm.trans atId))
    · rw [Function.update_of_ne same]
      simp only [same, false_and, not_false_eq_true, true_and]
      rfl
  · rfl

end Locking

/-! ### Registering and unregistering -/

section Registering

variable {tables result : Tables} {live : Nat → Nat} {id : Nat} {found : Option Nat} {name : Name}

theorem lockdepRegisterHeld_maps (registry : Registry tables live)
    (done : lockdepRegisterHeld tables name = (result, found)) :
    (result.idToName = tables.idToName ∧ result.nameToId = tables.nameToId ∧
        ∀ id, found = some id → tables.nameToId (cStr name) = some id) ∨
      ∃ id, found = some id ∧ tables.nameToId (cStr name) = none ∧ tables.idToName id = none ∧
        result.idToName = Function.update tables.idToName id (some name) ∧
        result.nameToId = Function.update tables.nameToId name (some id) := by
  unfold lockdepRegisterHeld at done
  split at done
  · rename_i known atKnown
    simp only [Prod.mk.injEq] at done
    obtain ⟨rfl, rfl⟩ := done
    refine Or.inl ⟨rfl, rfl, ?_⟩
    rintro id ⟨⟩
    exact atKnown
  · rename_i unknown
    split at done
    · rename_i searched failed
      rw [(lockdepGetFreeId_none failed).1] at done
      simp only [Prod.mk.injEq] at done
      obtain ⟨rfl, rfl⟩ := done
      refine Or.inl ⟨initBitmap_idToName tables, ?_, nofun⟩
      unfold initLockIdsBitmap
      split <;> rfl
    · rename_i searched fresh taken
      obtain ⟨_, vacant, only, _, _⟩ := lockdepGetFreeId_fresh registry taken
      rw [only] at done
      simp only [Prod.mk.injEq] at done
      obtain ⟨rfl, rfl⟩ := done
      exact Or.inr ⟨fresh, rfl, unknown, vacant, rfl, rfl⟩

theorem lockdepRegisterHeld_labelled (registry : Registry tables live)
    (labelled : Labelled tables) (clean : cStr name = name)
    (done : lockdepRegisterHeld tables name = (result, found)) : Labelled result := by
  have frame := lockdepRegisterHeld_frame registry name
  rw [done] at frame
  refine ⟨?_, ?_⟩
  · rcases lockdepRegisterHeld_maps registry done with
      ⟨names, ids, _⟩ | ⟨fresh, _, unknown, vacant, names, ids⟩
    · rw [names, ids]
      exact labelled.indexed
    · intro id one atId
      rw [names] at atId
      rw [ids]
      by_cases same : id = fresh
      · subst same
        rw [Function.update_self, Option.some.injEq] at atId
        rw [atId, Function.update_self]
      · rw [Function.update_of_ne same] at atId
        have stored := labelled.indexed id one atId
        have different : one ≠ name := by
          rintro rfl
          rw [← clean, unknown] at stored
          cases stored
        rw [Function.update_of_ne different]
        exact stored
  · intro tid id held
    rw [frame.held] at held
    obtain ⟨one, atId⟩ := labelled.exists_name held
    rw [Tables.Registered, frame.kept id one atId]
    rfl

theorem lockdepRegisterHeld_names (registry : Registry tables live) (order : LockOrder tables)
    (labelled : Labelled tables) (done : lockdepRegisterHeld tables name = (result, found)) :
    result.names = tables.names := by
  have frame := lockdepRegisterHeld_frame registry name
  rw [done] at frame
  apply names_eq_of_kept labelled order frame.tree frame.held
  intro id known
  obtain ⟨one, atId⟩ := Option.isSome_iff_exists.mp known
  rw [frame.kept id one atId, atId]

theorem lockdepRegisterHeld_idToName (registry : Registry tables live)
    (clean : cStr name = name)
    (done : lockdepRegisterHeld tables name = (result, some id)) :
    result.idToName id = some name := by
  rcases lockdepRegisterHeld_source registry done with ⟨known, _⟩ | ⟨_, _, entered⟩
  · have frame := lockdepRegisterHeld_frame registry name
    rw [done] at frame
    rw [clean] at known
    exact frame.kept id name (registry.inverse name id known)
  · exact entered

theorem lockdepRegisterHeld_none_iff (registry : Registry tables live) :
    (lockdepRegisterHeld tables name).2 = none ↔
      tables.nameToId (cStr name) = none ∧ ∀ id, id < maxLocks → tables.Registered id := by
  rw [← lockdepGetFreeId_none_iff registry]
  unfold lockdepRegisterHeld
  cases known : tables.nameToId (cStr name) with
  | some id => simp
  | none =>
      cases searched : lockdepGetFreeId tables with
      | mk middle fresh => cases fresh <;> simp

theorem lockdepUnregister_labelled (registry : Registry tables live) (present : live id ≠ 0)
    (labelled : Labelled tables)
    (unheld : live id = 1 → ∀ tid, id ∉ (tables.heldLocks tid).keys) :
    Labelled (lockdepUnregister tables (some id)) := by
  refine ⟨?_, ?_⟩
  · intro other one atOther
    rw [lockdepUnregister_idToName registry present] at atOther
    split at atOther
    · cases atOther
    · rename_i stays
      have stored := labelled.indexed other one atOther
      by_cases last : live id = 1
      · obtain ⟨name, tree, traces, atId, _, same⟩ := lockdepUnregister_last registry last
        rw [same]
        change Function.update tables.nameToId name none one = some other
        have different : one ≠ name := by
          rintro rfl
          exact stays ⟨last, labelled.unique atOther atId⟩
        rw [Function.update_of_ne different]
        exact stored
      · have several : 1 < live id := by omega
        rw [lockdepUnregister_shared registry several]
        exact stored
  · intro tid other held
    rw [lockdepUnregister_held registry present] at held
    rw [Tables.Registered, lockdepUnregister_idToName registry present, if_neg]
    · exact labelled.held tid other held
    · rintro ⟨last, rfl⟩
      exact unheld last tid held

theorem lockdepUnregister_names (registry : Registry tables live) (order : LockOrder tables)
    (present : live id ≠ 0) (labelled : Labelled tables)
    (unheld : live id = 1 → ∀ tid, id ∉ (tables.heldLocks tid).keys)
    (atId : tables.idToName id = some name) :
    (lockdepUnregister tables (some id)).names =
      if live id = 1 then tables.names.forget name else tables.names := by
  have named := lockdepUnregister_idToName registry present
  split
  · rename_i last
    ext
    · rename_i tid one trace
      change (∃ label, (lockdepUnregister tables (some id)).idToName label = some one ∧
        (label, trace) ∈ ((lockdepUnregister tables (some id)).heldLocks tid).entries) ↔
          tables.names.held tid one trace
      rw [lockdepUnregister_held registry present]
      refine exists_congr fun label => and_congr_left fun member => ?_
      rw [named, if_neg]
      rintro ⟨_, rfl⟩
      exact unheld last tid ((OrderedMap.mem_keys_iff _ label).mpr ⟨trace, member⟩)
    · rename_i left right
      constructor
      · rintro ⟨first, second, atFirst, atSecond, edge⟩
        obtain ⟨old, apart⟩ := (lockdepUnregister_follows registry order present _ _).mp edge
        obtain ⟨firstApart, secondApart⟩ := apart last
        rw [named, if_neg (fun gone => firstApart gone.2)] at atFirst
        rw [named, if_neg (fun gone => secondApart gone.2)] at atSecond
        refine ⟨⟨first, second, atFirst, atSecond, old⟩, ?_, ?_⟩
        · rintro rfl
          exact firstApart (labelled.unique atFirst atId)
        · rintro rfl
          exact secondApart (labelled.unique atSecond atId)
      · rintro ⟨⟨first, second, atFirst, atSecond, old⟩, leftApart, rightApart⟩
        have firstApart : first ≠ id := by
          rintro rfl
          exact leftApart (Option.some.inj (atFirst.symm.trans atId))
        have secondApart : second ≠ id := by
          rintro rfl
          exact rightApart (Option.some.inj (atSecond.symm.trans atId))
        refine ⟨first, second, ?_, ?_, ?_⟩
        · rw [named, if_neg (fun gone => firstApart gone.2)]
          exact atFirst
        · rw [named, if_neg (fun gone => secondApart gone.2)]
          exact atSecond
        · exact (lockdepUnregister_follows registry order present _ _).mpr
            ⟨old, fun _ => ⟨firstApart, secondApart⟩⟩
  · rename_i several
    have more : 1 < live id := by omega
    rw [lockdepUnregister_shared registry more]
    rfl

end Registering

end BlueThread.Lockdep
