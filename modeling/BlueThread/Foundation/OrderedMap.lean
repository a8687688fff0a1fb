/-
A map that is iterated in key order, as `std::map` is.

The entries are strictly sorted by key, and the proof of it is part of the
value, so a duplicate key or an entry out of place cannot be built. Only the
key set is reasoned about; stored values are carried along.
-/

import Mathlib.Order.Lattice
import Mathlib.Data.List.Basic

namespace BlueThread

universe u v

structure OrderedMap (key : Type u) [LinearOrder key] (value : Type v) where
  entries : List (key × value)
  sorted : entries.Pairwise (fun left right => left.1 < right.1)

namespace OrderedMap

variable {key : Type u} [LinearOrder key] {value : Type v}

def empty : OrderedMap key value := ⟨[], List.Pairwise.nil⟩

def keys (map : OrderedMap key value) : List key := map.entries.map Prod.fst

private def assignEntries (index : key) (stored : value) :
    List (key × value) → List (key × value)
  | [] => [(index, stored)]
  | entry :: rest =>
      if index < entry.1 then (index, stored) :: entry :: rest
      else if index = entry.1 then (index, stored) :: rest
      else entry :: assignEntries index stored rest

private theorem assignEntries_member {index : key} {stored : value}
    {entries : List (key × value)} {entry : key × value}
    (member : entry ∈ assignEntries index stored entries) :
    entry.1 = index ∨ entry ∈ entries := by
  induction entries with
  | nil =>
      rw [assignEntries, List.mem_singleton] at member
      exact Or.inl (member ▸ rfl)
  | cons head rest ih =>
      rw [assignEntries] at member
      split_ifs at member with before same
      · rcases List.mem_cons.mp member with atHead | later
        · exact Or.inl (atHead ▸ rfl)
        · exact Or.inr later
      · rcases List.mem_cons.mp member with atHead | later
        · exact Or.inl (atHead ▸ rfl)
        · exact Or.inr (List.mem_cons_of_mem head later)
      · rcases List.mem_cons.mp member with atHead | later
        · exact Or.inr (atHead ▸ List.mem_cons_self)
        · exact (ih later).imp_right (List.mem_cons_of_mem head)

private theorem assignEntries_sorted (index : key) (stored : value)
    (entries : List (key × value))
    (sorted : entries.Pairwise (fun left right => left.1 < right.1)) :
    (assignEntries index stored entries).Pairwise (fun left right => left.1 < right.1) := by
  induction entries with
  | nil => exact List.pairwise_singleton _ _
  | cons head rest ih =>
      obtain ⟨headBefore, restSorted⟩ := List.pairwise_cons.mp sorted
      rw [assignEntries]
      split_ifs with before same
      · refine List.pairwise_cons.mpr ⟨?_, sorted⟩
        intro entry member
        rcases List.mem_cons.mp member with atHead | later
        · exact atHead ▸ before
        · exact lt_trans before (headBefore entry later)
      · refine List.pairwise_cons.mpr ⟨?_, restSorted⟩
        intro entry member
        exact same ▸ headBefore entry member
      · refine List.pairwise_cons.mpr ⟨?_, ih restSorted⟩
        intro entry member
        rcases assignEntries_member member with atIndex | later
        · exact atIndex ▸ lt_of_le_of_ne (not_lt.mp before) (Ne.symm same)
        · exact headBefore entry later

/-- `map[index] = stored`: inserts the entry, or overwrites its value. -/
def assign (map : OrderedMap key value) (index : key) (stored : value) :
    OrderedMap key value :=
  ⟨assignEntries index stored map.entries,
    assignEntries_sorted index stored map.entries map.sorted⟩

def erase (map : OrderedMap key value) (index : key) : OrderedMap key value :=
  ⟨map.entries.filter (fun entry => entry.1 ≠ index), map.sorted.filter _⟩

private theorem assignEntries_keys (index other : key) (stored : value)
    (entries : List (key × value)) :
    other ∈ (assignEntries index stored entries).map Prod.fst ↔
      other = index ∨ other ∈ entries.map Prod.fst := by
  induction entries with
  | nil => simp [assignEntries]
  | cons head rest ih =>
      rw [assignEntries]
      split_ifs with before same
      · simp only [List.map_cons, List.mem_cons]
      · simp only [List.map_cons, List.mem_cons, same, ← or_assoc, or_self]
      · simp only [List.map_cons, List.mem_cons, ih]
        exact or_left_comm

@[simp] theorem mem_keys_assign (map : OrderedMap key value) (index other : key)
    (stored : value) :
    other ∈ (map.assign index stored).keys ↔ other = index ∨ other ∈ map.keys :=
  assignEntries_keys index other stored map.entries

@[simp] theorem mem_keys_erase (map : OrderedMap key value) (index other : key) :
    other ∈ (map.erase index).keys ↔ other ≠ index ∧ other ∈ map.keys := by
  simp only [keys, erase, List.mem_map, List.mem_filter, decide_not, Bool.not_eq_true',
    decide_eq_false_iff_not]
  constructor
  · rintro ⟨entry, ⟨present, different⟩, rfl⟩
    exact ⟨different, entry, present, rfl⟩
  · rintro ⟨different, entry, present, rfl⟩
    exact ⟨entry, ⟨present, different⟩, rfl⟩

private theorem assignEntries_entries {index : key} {stored : value}
    {entries : List (key × value)}
    (sorted : entries.Pairwise (fun left right => left.1 < right.1)) (entry : key × value) :
    entry ∈ assignEntries index stored entries ↔
      entry = (index, stored) ∨ (entry.1 ≠ index ∧ entry ∈ entries) := by
  induction entries with
  | nil => simp [assignEntries]
  | cons head rest ih =>
      obtain ⟨headBefore, restSorted⟩ := List.pairwise_cons.mp sorted
      -- An entry behind the place of insertion has a larger key.
      have later {bound : key} (atMost : bound ≤ head.1) (member : entry ∈ rest) :
          entry.1 ≠ bound := ne_of_gt (lt_of_le_of_lt atMost (headBefore entry member))
      rw [assignEntries]
      split_ifs with before same
      · rw [List.mem_cons, List.mem_cons]
        refine or_congr_right ⟨fun old => ⟨?_, old⟩, And.right⟩
        rcases old with atHead | inRest
        · exact atHead ▸ ne_of_gt before
        · exact later (le_of_lt before) inRest
      · rw [List.mem_cons, List.mem_cons]
        refine or_congr_right ⟨fun old => ⟨later (le_of_eq same) old, Or.inr old⟩, ?_⟩
        rintro ⟨different, atHead | inRest⟩
        · exact absurd (atHead ▸ same.symm) different
        · exact inRest
      · rw [List.mem_cons, ih restSorted, List.mem_cons, or_left_comm]
        refine or_congr_right ⟨?_, ?_⟩
        · rintro (atHead | ⟨different, inRest⟩)
          · exact ⟨atHead ▸ Ne.symm same, Or.inl atHead⟩
          · exact ⟨different, Or.inr inRest⟩
        · rintro ⟨different, atHead | inRest⟩
          · exact Or.inl atHead
          · exact Or.inr ⟨different, inRest⟩

theorem mem_entries_assign (map : OrderedMap key value) (index : key) (stored : value)
    (entry : key × value) :
    entry ∈ (map.assign index stored).entries ↔
      entry = (index, stored) ∨ (entry.1 ≠ index ∧ entry ∈ map.entries) :=
  assignEntries_entries map.sorted entry

theorem mem_entries_erase (map : OrderedMap key value) (index : key) (entry : key × value) :
    entry ∈ (map.erase index).entries ↔ entry.1 ≠ index ∧ entry ∈ map.entries := by
  simp only [erase, List.mem_filter, decide_eq_true_eq]
  exact and_comm

theorem mem_keys_iff (map : OrderedMap key value) (index : key) :
    index ∈ map.keys ↔ ∃ stored, (index, stored) ∈ map.entries := by
  simp [keys]

end OrderedMap

end BlueThread
