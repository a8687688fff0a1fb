/-
Places on a circle, and how far ahead one of them is.
-/

import Mathlib.Data.Nat.Notation

namespace BlueThread.Cyclic

/-- The steps from one place to another, going up and around the end. -/
def distance (size first place : Nat) : Nat :=
  if first ≤ place then place - first else place + size - first

section Circle

variable {size first place offset : Nat}

private theorem mod_below_twice {number : Nat} (below : number < 2 * size) :
    number % size = if number < size then number else number - size := by
  split
  · rename_i small
    exact Nat.mod_eq_of_lt small
  · rename_i large
    rw [Nat.mod_eq_sub_mod (by omega), Nat.mod_eq_of_lt (by omega)]

theorem distance_lt (start : first < size) (inside : place < size) :
    distance size first place < size := by
  unfold distance
  split
  · omega
  · omega

theorem add_distance (start : first < size) (inside : place < size) :
    (first + distance size first place) % size = place := by
  rw [mod_below_twice (by have := distance_lt start inside; omega)]
  unfold distance
  split
  · rw [if_pos (by omega)]
    omega
  · rw [if_neg (by omega)]
    omega

theorem distance_after (start : first < size) (inside : place < size)
    (short : offset < distance size first place) :
    distance size (((first + offset) % size + 1) % size) place + (offset + 1) =
      distance size first place := by
  have bound := distance_lt start inside
  rw [Nat.mod_add_mod, Nat.add_assoc, mod_below_twice (by omega)]
  unfold distance at short bound ⊢
  by_cases ahead : first ≤ place
  · rw [if_pos ahead] at short ⊢
    rw [if_pos (by omega : first + (offset + 1) < size), if_pos (by omega)]
    omega
  · rw [if_neg ahead] at short ⊢
    by_cases before : first + (offset + 1) < size
    · rw [if_pos before, if_neg (by omega)]
      omega
    · rw [if_neg before, if_pos (by omega)]
      omega

end Circle

end BlueThread.Cyclic
