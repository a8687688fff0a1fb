/-
The search for a free identifier, beyond the invariant of `Lockdep.Registry`.

The hint must never name an identifier in use. A search consumes the hint or
finds it unset, so after every search it is unset, and giving an identifier back
is the only write that sets it. A search fails only when every identifier is in
use, and then it writes nothing.
-/

import BlueThread.Lockdep.Registry

namespace BlueThread.Lockdep

open PackedBits

/-- `last_free_lock_id` is `-1` or an identifier that nobody uses. -/
def Tables.HintVacant (tables : Tables) : Prop :=
  ∀ id, tables.lastFreeLockId = some id → tables.idToName id = none

variable {tables result : Tables} {live : Nat → Nat}

/-! ### The hint -/

theorem initBitmap_lastFreeLockId (tables : Tables) :
    (initLockIdsBitmap tables).lastFreeLockId = tables.lastFreeLockId := by
  unfold initLockIdsBitmap
  split <;> rfl

theorem scanFreeId_lastFreeLockId (tables : Tables) :
    (scanFreeId tables).1.lastFreeLockId = tables.lastFreeLockId := by
  unfold scanFreeId
  split <;> rfl

theorem lockdepGetFreeId_lastFreeLockId (registry : Registry tables live)
    (vacant : tables.HintVacant) : (lockdepGetFreeId tables).1.lastFreeLockId = none := by
  have prepared := registry.initBitmap
  have hints := initBitmap_lastFreeLockId tables
  unfold lockdepGetFreeId
  simp only
  cases hint : (initLockIdsBitmap tables).lastFreeLockId with
  | none =>
      simp only
      rw [scanFreeId_lastFreeLockId, hint]
  | some last =>
      have small := prepared.hinted last hint
      have unused : (initLockIdsBitmap tables).idToName last = none := by
        rw [initBitmap_idToName]
        exact vacant last (hints ▸ hint)
      have bit : testBit (initLockIdsBitmap tables).lockIdsBitmap last = true := by
        rw [prepared.free (initBitmap_initialized tables) last small, unused]
        rfl
      simp only [bit, if_true]
      rfl

theorem lockdepRegisterHeld_hintVacant (registry : Registry tables live)
    (vacant : tables.HintVacant) (name : Name) :
    (lockdepRegisterHeld tables name).1.HintVacant := by
  have searched := lockdepGetFreeId_lastFreeLockId registry vacant
  unfold lockdepRegisterHeld
  split
  · exact vacant
  · split
    · rename_i found failed
      rw [failed] at searched
      intro id hint
      rw [searched] at hint
      cases hint
    · rename_i found fresh taken
      rw [taken] at searched
      intro id hint
      change found.lastFreeLockId = some id at hint
      rw [searched] at hint
      cases hint

theorem lockdepUnregister_hintVacant {id : Nat} (registry : Registry tables live)
    (present : live id ≠ 0) (vacant : tables.HintVacant) :
    (lockdepUnregister tables (some id)).HintVacant := by
  by_cases several : 1 < live id
  · rw [lockdepUnregister_shared registry several]
    exact vacant
  · have last : live id = 1 := by omega
    obtain ⟨name, tree, traces, _, _, same⟩ := lockdepUnregister_last registry last
    rw [same]
    intro hint atHint
    have equal : id = hint := Option.some.inj atHint
    rw [← equal]
    exact Function.update_self _ _ _

/-! ### Running out of identifiers -/

theorem lockdepGetFreeId_none_iff (registry : Registry tables live) :
    (lockdepGetFreeId tables).2 = none ↔ ∀ id, id < maxLocks → tables.Registered id := by
  have prepared := registry.initBitmap
  have free := prepared.free (initBitmap_initialized tables)
  rw [initBitmap_idToName] at free
  constructor
  · intro failed id small
    have scanned := (lockdepGetFreeId_none (Prod.ext rfl failed)).2
    have bit := firstFreeId_none scanned id small
    rw [free id small] at bit
    cases known : tables.idToName id with
    | none =>
        rw [known] at bit
        cases bit
    | some name =>
        rw [Tables.Registered, known]
        rfl
  · intro full
    cases found : lockdepGetFreeId tables with
    | mk result fresh =>
        cases fresh with
        | none => rfl
        | some id =>
            obtain ⟨small, vacant, _⟩ := lockdepGetFreeId_fresh registry found
            have known := full id small
            rw [Tables.Registered, vacant] at known
            cases known

theorem lockdepGetFreeId_full (registry : Registry tables live)
    (full : ∀ id, id < maxLocks → tables.Registered id) :
    lockdepGetFreeId tables = (tables, none) := by
  have failed := (lockdepGetFreeId_none_iff registry).mpr full
  have started : tables.lockIdsBitmapInitialized = true := by
    by_contra unstarted
    have known := full 0 (by decide)
    rw [Tables.Registered, registry.untouched (Bool.eq_false_iff.mpr unstarted) 0] at known
    cases known
  cases found : lockdepGetFreeId tables with
  | mk result fresh =>
      rw [found] at failed
      have missing : fresh = none := failed
      subst missing
      rw [(lockdepGetFreeId_none found).1, initLockIdsBitmap, if_pos started]

theorem lockdepRegister_missed {name : Name} (registry : Registry tables live)
    (missed : tables.nameToId (cStr name) = none) :
    ((∃ result, lockdepRegister tables name = .threw result) ↔
        ∀ id, id < maxLocks → tables.Registered id) ∧
      ∀ result, lockdepRegister tables name = .threw result → result = tables := by
  cases found : lockdepGetFreeId tables with
  | mk searched fresh =>
      have none_iff := lockdepGetFreeId_none_iff registry
      rw [found] at none_iff
      cases fresh with
      | none =>
          have full := none_iff.mp rfl
          have same : searched = tables := by
            rw [lockdepGetFreeId_full registry full] at found
            exact (congrArg Prod.fst found).symm
          have thrown : lockdepRegister tables name = .threw tables := by
            simp only [lockdepRegister, lockdepRegisterHeld, missed, found, same]
          refine ⟨⟨fun _ => full, fun _ => ⟨tables, thrown⟩⟩, ?_⟩
          intro result other
          rw [thrown] at other
          cases other
          rfl
      | some id =>
          have returned : ∀ result, lockdepRegister tables name ≠ .threw result := by
            intro result thrown
            simp only [lockdepRegister, lockdepRegisterHeld, missed, found] at thrown
            cases thrown
          refine ⟨⟨?_, ?_⟩, fun result thrown => absurd thrown (returned result)⟩
          · rintro ⟨result, thrown⟩
            exact absurd thrown (returned result)
          · intro full
            cases none_iff.mpr full

end BlueThread.Lockdep
