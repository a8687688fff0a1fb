/-
Bits packed eight to a byte.

A row is a sequence of bytes addressed by number. Bit `index` lives in byte
`index / 8` under the mask `1 << (index % 8)`; the three operations use the
masks of the usual C idiom, so the lemmas below are the only place that looks
inside a byte.
-/

import Mathlib.Logic.Function.Basic
import Mathlib.Data.Nat.Notation

namespace BlueThread.PackedBits

abbrev Row := Nat → BitVec 8

def mask (index : Nat) : BitVec 8 := 1#8 <<< (index % 8)

/-- `row[index / 8] & (1 << (index % 8))`, read as a condition. -/
def testBit (row : Row) (index : Nat) : Bool :=
  row (index / 8) &&& mask index != 0#8

def setBit (row : Row) (index : Nat) : Row :=
  Function.update row (index / 8) (row (index / 8) ||| mask index)

def clearBit (row : Row) (index : Nat) : Row :=
  Function.update row (index / 8) (row (index / 8) &&& (255#8 - mask index))

private theorem mask_getLsbD (index place : Nat) :
    (mask index).getLsbD place = decide (index % 8 = place) := by
  have small : index % 8 < 8 := Nat.mod_lt _ (by decide)
  rw [mask, ← BitVec.twoPow_eq, BitVec.getLsbD_twoPow]
  simp [small]

private theorem testBit_eq (row : Row) (index : Nat) :
    testBit row index = (row (index / 8)).getLsbD (index % 8) := by
  have small : index % 8 < 8 := Nat.mod_lt _ (by decide)
  have positive : mask index ≠ 0#8 := by
    intro zero
    have bit := mask_getLsbD index (index % 8)
    rw [zero, BitVec.getLsbD_zero] at bit
    simp at bit
  rw [testBit, mask, ← BitVec.twoPow_eq, BitVec.and_twoPow]
  cases (row (index / 8)).getLsbD (index % 8) with
  | false => rfl
  | true => simpa [mask, BitVec.twoPow_eq] using positive

private theorem same_place_iff (left right : Nat) (sameByte : left / 8 = right / 8) :
    left % 8 = right % 8 ↔ left = right := by
  omega

@[simp] theorem testBit_setBit (row : Row) (index other : Nat) :
    testBit (setBit row index) other = (decide (other = index) || testBit row other) := by
  rw [testBit_eq, testBit_eq, setBit]
  by_cases sameByte : other / 8 = index / 8
  · rw [sameByte, Function.update_self, BitVec.getLsbD_or, mask_getLsbD, Bool.or_comm]
    congr 1
    rw [decide_eq_decide, eq_comm (a := index % 8)]
    exact same_place_iff other index sameByte
  · have different : other ≠ index := fun same => sameByte (same ▸ rfl)
    rw [Function.update_of_ne sameByte, decide_eq_false different, Bool.false_or]

theorem setBit_of_testBit {row : Row} {index : Nat} (present : testBit row index = true) :
    setBit row index = row := by
  rw [testBit_eq] at present
  have same : row (index / 8) ||| mask index = row (index / 8) := by
    apply BitVec.eq_of_getLsbD_eq
    intro place _
    rw [BitVec.getLsbD_or, mask_getLsbD]
    by_cases here : index % 8 = place
    · rw [← here, present]
      rfl
    · rw [decide_eq_false here, Bool.or_false]
  rw [setBit, same, Function.update_eq_self]

@[simp] theorem testBit_clearBit (row : Row) (index other : Nat) :
    testBit (clearBit row index) other = (!decide (other = index) && testBit row other) := by
  rw [testBit_eq, testBit_eq, clearBit]
  by_cases sameByte : other / 8 = index / 8
  · have full : (255#8 : BitVec 8) = BitVec.allOnes 8 := rfl
    have small : other % 8 < 8 := Nat.mod_lt _ (by decide)
    rw [sameByte, Function.update_self, full, BitVec.allOnes_sub_eq_not,
      BitVec.getLsbD_and, BitVec.getLsbD_not, mask_getLsbD, Bool.and_comm]
    simp only [small, decide_true, Bool.true_and]
    congr 2
    rw [decide_eq_decide, eq_comm (a := index % 8)]
    exact same_place_iff other index sameByte
  · have different : other ≠ index := fun same => sameByte (same ▸ rfl)
    rw [Function.update_of_ne sameByte, decide_eq_false different, Bool.not_false,
      Bool.true_and]

@[simp] theorem testBit_zero (index : Nat) : testBit (fun _ => 0#8) index = false := by
  rw [testBit_eq, BitVec.getLsbD_zero]

@[simp] theorem testBit_full (index : Nat) : testBit (fun _ => 255#8) index = true := by
  have small : index % 8 < 8 := Nat.mod_lt _ (by decide)
  have full : (255#8 : BitVec 8) = BitVec.allOnes 8 := rfl
  rw [testBit_eq, full, BitVec.getLsbD_allOnes, decide_eq_true small]

end BlueThread.PackedBits
