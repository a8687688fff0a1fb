/-
The identifier registry of the checker: bitmap, hint, name maps and reference
counts.

The invariant is stated against the number of live lock objects that carry each
identifier, which is what the reference counts are meant to count. It makes no
assumption on the names; several objects may share one.
-/

import Mathlib.Data.List.TakeWhile
import BlueThread.Lockdep.Model

namespace BlueThread.Lockdep

open PackedBits

/-- An identifier is registered while `id_to_name_map` has an entry for it. -/
def Tables.Registered (tables : Tables) (id : Nat) : Prop :=
  (tables.idToName id).isSome = true

structure Registry (tables : Tables) (live : Nat → Nat) : Prop where
  counted : ∀ id, tables.lockRef id = if live id = 0 then none else some (live id : Int)
  named : ∀ id, tables.Registered id ↔ live id ≠ 0
  below : ∀ id, tables.Registered id → id < tables.currentMaxId
  bounded : tables.currentMaxId ≤ maxLocks
  free : tables.lockIdsBitmapInitialized = true → ∀ id, id < maxLocks →
    testBit tables.lockIdsBitmap id = (tables.idToName id).isNone
  untouched : tables.lockIdsBitmapInitialized = false → ∀ id, tables.idToName id = none
  inverse : ∀ name id, tables.nameToId name = some id → tables.idToName id = some name
  hinted : ∀ id, tables.lastFreeLockId = some id → id < maxLocks

theorem Registry.frame {tables : Tables} {live : Nat → Nat} (registry : Registry tables live)
    (tree : Nat → Row) (traces : Nat → Nat → Option BackTrace)
    (held : Tid → OrderedMap Nat BackTrace) :
    Registry { tables with lockTree := tree, lockTreeBacktrace := traces, heldLocks := held }
      live :=
  { counted := registry.counted
    named := registry.named
    below := registry.below
    bounded := registry.bounded
    free := registry.free
    untouched := registry.untouched
    inverse := registry.inverse
    hinted := registry.hinted }

theorem Registry.initial : Registry Tables.initial (fun _ => 0) where
  counted _ := rfl
  named id := by simp [Tables.Registered, Tables.initial]
  below id registered := by cases registered
  bounded := Nat.zero_le _
  free started := by cases started
  untouched _ _ := rfl
  inverse name id found := by cases found
  hinted id found := by cases found

/-! ### Finding a free identifier -/

theorem firstFreeId_some {bitmap : Row} {id : Nat} (found : firstFreeId bitmap = some id) :
    id < maxLocks ∧ testBit bitmap id = true := by
  obtain ⟨byte, inRange, atByte⟩ := List.exists_of_findSome?_eq_some found
  obtain ⟨bit, atBit, rfl⟩ := Option.map_eq_some_iff.mp atByte
  have bitSmall := List.mem_range.mp (List.mem_of_find?_eq_some atBit)
  have byteSmall := List.mem_range.mp inRange
  have bitSet : testBit bitmap (byte * 8 + bit) = true := by
    simpa using List.find?_some atBit
  refine ⟨?_, bitSet⟩
  unfold maxLocks at byteSmall ⊢
  omega

theorem firstFreeId_none {bitmap : Row} (missing : firstFreeId bitmap = none)
    (id : Nat) (small : id < maxLocks) : testBit bitmap id = false := by
  rw [firstFreeId, List.findSome?_eq_none_iff] at missing
  have byteSmall : id / 8 < maxLocks / 8 := by
    unfold maxLocks at small ⊢
    omega
  have atByte := missing (id / 8) (List.mem_range.mpr byteSmall)
  rw [Option.map_eq_none_iff, List.find?_eq_none] at atByte
  have atBit := atByte (id % 8) (List.mem_range.mpr (Nat.mod_lt _ (by decide)))
  rw [Nat.div_add_mod' id 8] at atBit
  exact Bool.eq_false_iff.mpr atBit

theorem Registry.initBitmap {tables : Tables} {live : Nat → Nat}
    (registry : Registry tables live) : Registry (initLockIdsBitmap tables) live := by
  unfold initLockIdsBitmap
  cases started : tables.lockIdsBitmapInitialized with
  | true => exact registry
  | false =>
      have vacant := registry.untouched started
      exact
        { counted := registry.counted
          named := registry.named
          below := registry.below
          bounded := registry.bounded
          free := fun _ id _ => by simp [vacant id]
          untouched := fun impossible => by cases impossible
          inverse := registry.inverse
          hinted := registry.hinted }

theorem initBitmap_initialized (tables : Tables) :
    (initLockIdsBitmap tables).lockIdsBitmapInitialized = true := by
  unfold initLockIdsBitmap
  split <;> simp_all

theorem initBitmap_idToName (tables : Tables) :
    (initLockIdsBitmap tables).idToName = tables.idToName := by
  unfold initLockIdsBitmap
  split <;> rfl

/-- A successful search returns an identifier in range that nobody uses, and
writes only the bitmap and the hint. -/
structure FreshId (tables result : Tables) (id : Nat) : Prop where
  small : id < maxLocks
  vacant : tables.idToName id = none
  only : result =
    { tables with
      lockIdsBitmap := result.lockIdsBitmap
      lockIdsBitmapInitialized := true
      lastFreeLockId := result.lastFreeLockId }
  taken : ∀ other, other < maxLocks →
    testBit result.lockIdsBitmap other =
      (!decide (other = id) && (tables.idToName other).isNone)
  hinted : ∀ hint, result.lastFreeLockId = some hint → hint < maxLocks

private theorem freshId_of_bit {tables : Tables} {live : Nat → Nat} {id : Nat}
    (registry : Registry (initLockIdsBitmap tables) live) (small : id < maxLocks)
    (bit : testBit (initLockIdsBitmap tables).lockIdsBitmap id = true) (hint : Option Nat)
    (hinted : ∀ value, hint = some value → value < maxLocks) :
    FreshId tables (takeId { initLockIdsBitmap tables with lastFreeLockId := hint } id) id := by
  have free := registry.free (initBitmap_initialized tables)
  rw [initBitmap_idToName] at free
  refine ⟨small, ?_, ?_, ?_, hinted⟩
  · rw [free id small] at bit
    exact Option.isNone_iff_eq_none.mp bit
  · unfold takeId initLockIdsBitmap
    cases started : tables.lockIdsBitmapInitialized <;> simp [started]
  · intro other otherSmall
    rw [← free other otherSmall]
    exact testBit_clearBit _ id other

theorem lockdepGetFreeId_fresh {tables result : Tables} {live : Nat → Nat} {id : Nat}
    (registry : Registry tables live)
    (found : lockdepGetFreeId tables = (result, some id)) : FreshId tables result id := by
  have prepared := registry.initBitmap
  have scanned : scanFreeId (initLockIdsBitmap tables) = (result, some id) →
      FreshId tables result id := by
    intro scan
    unfold scanFreeId at scan
    split at scan
    · rename_i first atFirst
      obtain ⟨small, bit⟩ := firstFreeId_some atFirst
      simp only [Prod.mk.injEq, Option.some.injEq] at scan
      obtain ⟨rfl, rfl⟩ := scan
      exact freshId_of_bit prepared small bit _ prepared.hinted
    · cases scan
  unfold lockdepGetFreeId at found
  simp only at found
  split at found
  · rename_i last atLast
    split at found
    · rename_i bit
      simp only [Prod.mk.injEq, Option.some.injEq] at found
      obtain ⟨rfl, rfl⟩ := found
      exact freshId_of_bit prepared (prepared.hinted last atLast) bit none
        (fun value impossible => by cases impossible)
    · exact scanned found
  · exact scanned found

theorem lockdepGetFreeId_none {tables result : Tables}
    (failed : lockdepGetFreeId tables = (result, none)) :
    result = initLockIdsBitmap tables ∧
      firstFreeId (initLockIdsBitmap tables).lockIdsBitmap = none := by
  have scanned : scanFreeId (initLockIdsBitmap tables) = (result, none) →
      result = initLockIdsBitmap tables ∧
        firstFreeId (initLockIdsBitmap tables).lockIdsBitmap = none := by
    intro scan
    unfold scanFreeId at scan
    split at scan
    · cases scan
    · rename_i missed
      exact ⟨(congrArg Prod.fst scan).symm, missed⟩
  unfold lockdepGetFreeId at failed
  simp only at failed
  split at failed
  · split at failed
    · cases failed
    · exact scanned failed
  · exact scanned failed

/-! ### Registering -/

theorem cStr_of_noNul {name : Name} (clean : 0 ∉ name) : cStr name = name := by
  unfold cStr
  rw [List.takeWhile_eq_self_iff]
  intro byte member
  rw [decide_eq_true_eq]
  rintro rfl
  exact clean member

def gain (live : Nat → Nat) (id : Nat) : Nat → Nat := Function.update live id (live id + 1)

def lose (live : Nat → Nat) (id : Nat) : Nat → Nat := Function.update live id (live id - 1)

private theorem counted_gain {tables : Tables} {live : Nat → Nat} (id : Nat)
    (counted : ∀ other, tables.lockRef other =
      if live other = 0 then none else some (live other : Int)) (other : Nat) :
    (addReference tables id).lockRef other =
      if gain live id other = 0 then none else some (gain live id other : Int) := by
  unfold addReference gain
  by_cases same : other = id
  · subst other
    simp only [Function.update_self, counted id, Nat.succ_ne_zero, if_false]
    split
    · rename_i none
      simp [none]
    · simp
  · simp only [Function.update_of_ne same, counted other]

private theorem named_gain {live : Nat → Nat} (id other : Nat) :
    gain live id other ≠ 0 ↔ other = id ∨ live other ≠ 0 := by
  unfold gain
  by_cases same : other = id
  · subst other
    simp
  · simp [same]

private theorem Registry.again {tables : Tables} {live : Nat → Nat} {id : Nat}
    (registry : Registry tables live) (registered : tables.Registered id) :
    Registry (addReference tables id) (gain live id) :=
  { counted := counted_gain id registry.counted
    named := by
      intro other
      rw [named_gain]
      change tables.Registered other ↔ _
      rw [registry.named]
      constructor
      · exact Or.inr
      · rintro (rfl | present)
        · exact (registry.named _).mp registered
        · exact present
    below := registry.below
    bounded := registry.bounded
    free := registry.free
    untouched := registry.untouched
    inverse := registry.inverse
    hinted := registry.hinted }

private theorem registered_recordName (tables : Tables) (name : Name) (id other : Nat) :
    (recordName tables name id).Registered other ↔ other = id ∨ tables.Registered other := by
  unfold Tables.Registered recordName
  by_cases same : other = id
  · subst other
    simp
  · simp [same]

private theorem Registry.enter {tables found : Tables} {live : Nat → Nat} {id : Nat}
    (registry : Registry tables live) (name : Name) (fresh : FreshId tables found id) :
    Registry (addReference (recordName found name id) id) (gain live id) := by
  obtain ⟨small, vacant, only, taken, hinted⟩ := fresh
  generalize found.lockIdsBitmap = bitmap at only taken
  generalize found.lastFreeLockId = hint at only hinted
  subst only
  refine ⟨counted_gain id registry.counted, ?_, ?_, ?_, ?_, ?_, ?_, hinted⟩
  · intro other
    rw [named_gain, ← registry.named]
    exact registered_recordName _ name id other
  · intro other registered
    have known := (registered_recordName _ name id other).mp registered
    change other < if tables.currentMaxId ≤ id then id + 1 else tables.currentMaxId
    rcases known with rfl | old
    · split <;> omega
    · have oldBelow := registry.below other old
      split <;> omega
  · change (if tables.currentMaxId ≤ id then id + 1 else tables.currentMaxId) ≤ maxLocks
    have oldBound := registry.bounded
    split <;> omega
  · intro _ other otherSmall
    change testBit bitmap other = (Function.update tables.idToName id (some name) other).isNone
    rw [taken other otherSmall]
    by_cases same : other = id
    · subst other
      simp
    · simp [same]
  · intro impossible
    cases impossible
  · intro known target atKnown
    change Function.update tables.nameToId name (some id) known = some target at atKnown
    change Function.update tables.idToName id (some name) target = some known
    by_cases same : known = name
    · subst known
      rw [Function.update_self, Option.some.injEq] at atKnown
      subst target
      rw [Function.update_self]
    · rw [Function.update_of_ne same] at atKnown
      have oldName := registry.inverse known target atKnown
      have different : target ≠ id := by
        intro equal
        rw [equal, vacant] at oldName
        cases oldName
      rw [Function.update_of_ne different]
      exact oldName

theorem lockdepRegisterHeld_registry {tables result : Tables} {live : Nat → Nat}
    {name : Name} {id : Nat} (registry : Registry tables live)
    (done : lockdepRegisterHeld tables name = (result, some id)) :
    Registry result (gain live id) := by
  unfold lockdepRegisterHeld at done
  split at done
  · rename_i known atKnown
    simp only [Prod.mk.injEq, Option.some.injEq] at done
    obtain ⟨rfl, rfl⟩ := done
    apply registry.again
    rw [Tables.Registered, registry.inverse _ _ atKnown]
    rfl
  · split at done
    · cases done
    · rename_i found fresh atFresh
      simp only [Prod.mk.injEq, Option.some.injEq] at done
      obtain ⟨rfl, rfl⟩ := done
      exact registry.enter name (lockdepGetFreeId_fresh registry atFresh)

structure RegisterFrame (tables result : Tables) : Prop where
  tree : result.lockTree = tables.lockTree
  traces : result.lockTreeBacktrace = tables.lockTreeBacktrace
  held : result.heldLocks = tables.heldLocks
  kept : ∀ id name, tables.idToName id = some name → result.idToName id = some name

private theorem initBitmap_frame (tables : Tables) :
    RegisterFrame tables (initLockIdsBitmap tables) := by
  unfold initLockIdsBitmap
  split
  · exact ⟨rfl, rfl, rfl, fun _ _ found => found⟩
  · exact ⟨rfl, rfl, rfl, fun _ _ found => found⟩

theorem lockdepRegisterHeld_frame {tables : Tables} {live : Nat → Nat}
    (registry : Registry tables live) (name : Name) :
    RegisterFrame tables (lockdepRegisterHeld tables name).1 := by
  unfold lockdepRegisterHeld
  split
  · exact ⟨rfl, rfl, rfl, fun _ _ found => found⟩
  · split
    · rename_i failed
      rw [(lockdepGetFreeId_none failed).1]
      exact initBitmap_frame tables
    · rename_i found id atFresh
      obtain ⟨_, vacant, only, _, _⟩ := lockdepGetFreeId_fresh registry atFresh
      rw [only]
      refine ⟨rfl, rfl, rfl, ?_⟩
      intro other known atOther
      have different : other ≠ id := by
        intro same
        rw [same, vacant] at atOther
        cases atOther
      change Function.update tables.idToName id (some name) other = some known
      rw [Function.update_of_ne different]
      exact atOther

/-- Where the identifier came from: the C string of the name was known, or the
identifier is fresh and now carries the whole name. -/
theorem lockdepRegisterHeld_source {tables result : Tables} {live : Nat → Nat}
    {name : Name} {id : Nat} (registry : Registry tables live)
    (done : lockdepRegisterHeld tables name = (result, some id)) :
    (tables.nameToId (cStr name) = some id ∧ live id ≠ 0) ∨
      (tables.nameToId (cStr name) = none ∧ live id = 0 ∧ result.idToName id = some name) := by
  unfold lockdepRegisterHeld at done
  split at done
  · rename_i known atKnown
    simp only [Prod.mk.injEq, Option.some.injEq] at done
    obtain ⟨_, rfl⟩ := done
    refine Or.inl ⟨atKnown, (registry.named known).mp ?_⟩
    rw [Tables.Registered, registry.inverse _ _ atKnown]
    rfl
  · rename_i unknown
    split at done
    · cases done
    · rename_i found fresh atFresh
      simp only [Prod.mk.injEq, Option.some.injEq] at done
      obtain ⟨rfl, rfl⟩ := done
      have vacant := (lockdepGetFreeId_fresh registry atFresh).vacant
      refine Or.inr ⟨unknown, ?_, Function.update_self _ _ _⟩
      by_contra present
      have registered := (registry.named fresh).mpr present
      rw [Tables.Registered, vacant] at registered
      cases registered

theorem lockdepRegisterHeld_failed {tables result : Tables} {live : Nat → Nat} {name : Name}
    (registry : Registry tables live)
    (failed : lockdepRegisterHeld tables name = (result, none)) : Registry result live := by
  unfold lockdepRegisterHeld at failed
  split at failed
  · cases failed
  · split at failed
    · rename_i noId
      rw [(lockdepGetFreeId_none noId).1] at failed
      simp only [Prod.mk.injEq, and_true] at failed
      exact failed ▸ registry.initBitmap
    · cases failed

/-! ### Unregistering -/

theorem clearPairs_only (id bound : Nat) (tables : Tables) :
    ∃ tree traces, clearPairs id bound tables =
      { tables with lockTree := tree, lockTreeBacktrace := traces } := by
  induction bound with
  | zero => exact ⟨_, _, rfl⟩
  | succ bound ih =>
      obtain ⟨tree, traces, same⟩ := ih
      rw [clearPairs, same]
      exact ⟨_, _, rfl⟩

theorem clearPairs_follows (id bound : Nat) (tables : Tables) (left right : Nat) :
    follows (clearPairs id bound tables) left right =
      (follows tables left right && !(decide (right = id) && decide (left < bound))) := by
  induction bound with
  | zero => simp [clearPairs]
  | succ bound ih =>
      change testBit (Function.update (clearPairs id bound tables).lockTree bound
        (clearBit ((clearPairs id bound tables).lockTree bound) id) left) right = _
      by_cases atBound : left = bound
      · subst left
        rw [Function.update_self, testBit_clearBit]
        change (_ && follows (clearPairs id bound tables) bound right) = _
        rw [ih]
        by_cases same : right = id <;> simp [same]
      · rw [Function.update_of_ne atBound]
        change follows (clearPairs id bound tables) left right = _
        have shifted : (left < bound + 1) ↔ left < bound := by omega
        rw [ih, decide_eq_decide.mpr shifted]

theorem clearPairs_traces (id bound : Nat) (tables : Tables) (left right : Nat) :
    (clearPairs id bound tables).lockTreeBacktrace left right =
      if (left = id ∧ right < bound) ∨ (right = id ∧ left < bound) then none
      else tables.lockTreeBacktrace left right := by
  induction bound with
  | zero => simp [clearPairs]
  | succ bound ih =>
      change (if (left = id ∧ right = bound) ∨ (left = bound ∧ right = id) then none
        else (clearPairs id bound tables).lockTreeBacktrace left right) = _
      rw [ih]
      grind

structure Cleared (tables : Tables) (id : Nat) (tree : Nat → Row)
    (traces : Nat → Nat → Option BackTrace) : Prop where
  bits : ∀ left right, testBit (tree left) right =
    (follows tables left right && !decide (left = id) &&
      !(decide (right = id) && decide (left < tables.currentMaxId)))
  pointers : ∀ left right, traces left right =
    if (left = id ∧ right < tables.currentMaxId) ∨ (right = id ∧ left < tables.currentMaxId)
    then none else tables.lockTreeBacktrace left right

theorem forgetLock_cleared (tables : Tables) (id : Nat) (name : Name) :
    ∃ tree traces, Cleared tables id tree traces ∧
      forgetLock tables id name =
        { tables with
          lockTree := tree
          lockTreeBacktrace := traces
          idToName := Function.update tables.idToName id none
          nameToId := Function.update tables.nameToId name none } := by
  let start : Tables :=
    { tables with lockTree := Function.update tables.lockTree id (fun _ => 0#8) }
  obtain ⟨tree, traces, only⟩ := clearPairs_only id tables.currentMaxId start
  refine ⟨tree, traces, ⟨?_, ?_⟩, ?_⟩
  · intro left right
    have bit := clearPairs_follows id tables.currentMaxId start left right
    rw [only] at bit
    change testBit (tree left) right =
      (testBit (Function.update tables.lockTree id (fun _ => 0#8) left) right && _) at bit
    rw [bit]
    congr 1
    by_cases same : left = id
    · subst left
      simp
    · simp [same, follows]
  · intro left right
    have pointer := clearPairs_traces id tables.currentMaxId start left right
    rw [only] at pointer
    exact pointer
  · change (let cleared := clearPairs id tables.currentMaxId start
      { cleared with
        idToName := Function.update cleared.idToName id none
        nameToId := Function.update cleared.nameToId name none }) = _
    rw [only]

theorem lockdepUnregister_shared {tables : Tables} {live : Nat → Nat} {id : Nat}
    (registry : Registry tables live) (several : 1 < live id) :
    lockdepUnregister tables (some id) =
      { tables with lockRef := Function.update tables.lockRef id (some ((live id : Int) - 1)) } := by
  have positive : live id ≠ 0 := by omega
  have count : (tables.lockRef id).getD 0 = (live id : Int) := by
    rw [registry.counted, if_neg positive]
    rfl
  have remains : ¬((live id : Int) - 1 = 0) := by omega
  simp only [lockdepUnregister, count, if_neg remains]

theorem lockdepUnregister_last {tables : Tables} {live : Nat → Nat} {id : Nat}
    (registry : Registry tables live) (last : live id = 1) :
    ∃ name tree traces, tables.idToName id = some name ∧ Cleared tables id tree traces ∧
      lockdepUnregister tables (some id) =
        releaseId
          { tables with
            lockTree := tree
            lockTreeBacktrace := traces
            idToName := Function.update tables.idToName id none
            nameToId := Function.update tables.nameToId name none } id := by
  have positive : live id ≠ 0 := by omega
  have registered := (registry.named id).mpr positive
  obtain ⟨name, atId⟩ := Option.isSome_iff_exists.mp registered
  obtain ⟨tree, traces, cleared, only⟩ := forgetLock_cleared tables id name
  refine ⟨name, tree, traces, atId, cleared, ?_⟩
  have count : (tables.lockRef id).getD 0 = (live id : Int) := by
    rw [registry.counted, if_neg positive]
    rfl
  have gone : (live id : Int) - 1 = 0 := by omega
  simp only [lockdepUnregister, count, gone, if_true, atId, only]

theorem lockdepUnregister_held {tables : Tables} {live : Nat → Nat} {id : Nat}
    (registry : Registry tables live) (present : live id ≠ 0) :
    (lockdepUnregister tables (some id)).heldLocks = tables.heldLocks := by
  by_cases several : 1 < live id
  · rw [lockdepUnregister_shared registry several]
  · have last : live id = 1 := by omega
    obtain ⟨name, tree, traces, _, _, same⟩ := lockdepUnregister_last registry last
    rw [same]
    rfl

theorem lockdepUnregister_idToName {tables : Tables} {live : Nat → Nat} {id : Nat}
    (registry : Registry tables live) (present : live id ≠ 0) (other : Nat) :
    (lockdepUnregister tables (some id)).idToName other =
      if live id = 1 ∧ other = id then none else tables.idToName other := by
  by_cases last : live id = 1
  · obtain ⟨one, tree, traces, _, _, same⟩ := lockdepUnregister_last registry last
    rw [same]
    change Function.update tables.idToName id none other = _
    rw [Function.update_apply]
    simp only [last, true_and]
  · have several : 1 < live id := by omega
    rw [lockdepUnregister_shared registry several]
    simp only [last, false_and, if_false]

theorem lockdepUnregister_registry {tables : Tables} {live : Nat → Nat} {id : Nat}
    (registry : Registry tables live) (present : live id ≠ 0) :
    Registry (lockdepUnregister tables (some id)) (lose live id) := by
  have registered := (registry.named id).mpr present
  by_cases several : 1 < live id
  · rw [lockdepUnregister_shared registry several]
    refine ⟨?_, ?_, registry.below, registry.bounded, registry.free, registry.untouched,
      registry.inverse, registry.hinted⟩
    · intro other
      by_cases same : other = id
      · subst other
        have left : live id - 1 ≠ 0 := by omega
        simp only [lose, Function.update_self, if_neg left]
        congr 1
        omega
      · simp only [lose, Function.update_of_ne same, registry.counted other]
    · intro other
      change tables.Registered other ↔ _
      rw [registry.named]
      by_cases same : other = id
      · subst other
        simp only [lose, Function.update_self]
        omega
      · simp only [lose, Function.update_of_ne same]
  · have last : live id = 1 := by omega
    obtain ⟨name, tree, traces, atId, _, same⟩ := lockdepUnregister_last registry last
    have inRange := Nat.lt_of_lt_of_le (registry.below id registered) registry.bounded
    have gone : lose live id id = 0 := by simp [lose, last]
    have others (other : Nat) (different : other ≠ id) : lose live id other = live other := by
      simp [lose, different]
    rw [same]
    refine ⟨?_, ?_, ?_, registry.bounded, ?_, ?_, ?_, ?_⟩
    · intro other
      change Function.update tables.lockRef id none other = _
      by_cases equal : other = id
      · rw [equal, gone, Function.update_self, if_pos rfl]
      · rw [others other equal, Function.update_of_ne equal, registry.counted]
    · intro other
      change (Function.update tables.idToName id none other).isSome = true ↔ _
      by_cases equal : other = id
      · rw [equal, gone]
        simp
      · rw [others other equal, Function.update_of_ne equal]
        exact registry.named other
    · intro other known
      change (Function.update tables.idToName id none other).isSome = true at known
      by_cases equal : other = id
      · rw [equal, Function.update_self] at known
        cases known
      · rw [Function.update_of_ne equal] at known
        exact registry.below other known
    · intro started other small
      change testBit (setBit tables.lockIdsBitmap id) other =
        (Function.update tables.idToName id none other).isNone
      rw [testBit_setBit, registry.free started other small]
      by_cases equal : other = id
      · simp [equal]
      · simp [equal]
    · intro unstarted
      have vacant := registry.untouched unstarted id
      rw [atId] at vacant
      cases vacant
    · intro known target atKnown
      change Function.update tables.nameToId name none known = some target at atKnown
      change Function.update tables.idToName id none target = some known
      by_cases equal : known = name
      · rw [equal, Function.update_self] at atKnown
        cases atKnown
      · rw [Function.update_of_ne equal] at atKnown
        have stored := registry.inverse known target atKnown
        have different : target ≠ id := by
          intro clash
          rw [clash, atId, Option.some.injEq] at stored
          exact equal stored.symm
        rw [Function.update_of_ne different]
        exact stored
    · intro hint atHint
      change some id = some hint at atHint
      exact (Option.some.inj atHint) ▸ inRange

end BlueThread.Lockdep
