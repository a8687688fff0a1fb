/-
Instants of a signed clock and spans of an unsigned one, in 64 bits.

`std::chrono` adds a time point counted in `int64_t` to a duration counted in
`uint64_t` in the common type, which is unsigned, and converts the sum back when
it is stored in a time point. The sum is right as long as it fits; otherwise it
wraps, and one sum becomes the least time point.
-/

import Mathlib.Algebra.Group.Int.Defs
import Mathlib.Algebra.Group.Nat.Defs
import Mathlib.Tactic.Common

namespace BlueThread.Instants

/-- An instant plus a span: the sum in `uint64_t`, stored as an `int64_t`. -/
def plus (instant : Int64) (span : UInt64) : Int64 := (instant.toUInt64 + span).toInt64

theorem toInt_toInt64 (span : UInt64) : span.toInt64.toInt = (span.toNat : Int).bmod (2 ^ 64) := by
  change span.toBitVec.toInt = _
  rw [BitVec.toInt_eq_toNat_bmod]
  rfl

theorem toInt_plus (instant : Int64) (span : UInt64) :
    (plus instant span).toInt = (instant.toInt + span.toNat).bmod (2 ^ 64) := by
  rw [plus, UInt64.toInt64_add, Int64.toInt64_toUInt64, Int64.toInt_add, toInt_toInt64,
    Int.add_bmod_bmod]

section Sums

variable {instant : Int64} {span : UInt64}

theorem plus_exact (past : 0 ≤ instant.toInt) (fits : instant.toInt + span.toNat < 2 ^ 63) :
    (plus instant span).toInt = instant.toInt + span.toNat := by
  rw [toInt_plus]
  apply Int.bmod_eq_of_le <;> omega

theorem plus_end (full : instant.toInt + span.toNat = 2 ^ 63) :
    plus instant span = Int64.minValue := by
  rw [← Int64.toInt_inj, toInt_plus, full]
  decide

theorem plus_wraps (past : 0 ≤ instant.toInt) (large : 2 ^ 63 < instant.toInt + span.toNat) :
    (plus instant span).toInt < instant.toInt ∧ plus instant span ≠ Int64.minValue := by
  have below := instant.toInt_lt
  have small : span.toNat < 2 ^ 64 := span.toNat_lt
  have wrapped : (plus instant span).toInt = instant.toInt + span.toNat - 2 ^ 64 := by
    rw [toInt_plus, ← Int.sub_bmod_right]
    apply Int.bmod_eq_of_le <;> omega
  constructor
  · omega
  · intro least
    rw [least, Int64.toInt_minValue] at wrapped
    omega

end Sums

end BlueThread.Instants
