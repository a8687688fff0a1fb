/-
Pointers that own what they point to.

The heap is the list of the allocated objects, each at an address of its own; a new
object gets any address that is not in use, also one that was freed before. Pointers
are kept in slots. A slot that is overwritten loses its object for good, and freeing
through a pointer to nothing is undefined. If every slot is filled by a new object
and emptied when its object is freed, then no two slots share an object and no slot
dangles.
-/

import Mathlib.Data.List.Basic
import Mathlib.Data.List.Nodup
import Mathlib.Logic.Function.Basic

namespace BlueThread.Slots

universe u v

/-- `new`: an address that is not in use. -/
structure Allocator where
  pick : List Nat → Nat
  fresh : ∀ used, pick used ∉ used

/-- The address above every one in use. -/
def Allocator.above : Allocator where
  pick used := used.foldr max 0 + 1
  fresh used := by
    have bounded (address : Nat) (member : address ∈ used) : address ≤ used.foldr max 0 := by
      induction used with
      | nil => cases member
      | cons head tail ih =>
          rw [List.foldr_cons]
          rcases List.mem_cons.mp member with rfl | later
          · exact Nat.le_max_left _ _
          · exact Nat.le_trans (ih later) (Nat.le_max_right _ _)
    intro member
    exact Nat.not_succ_le_self _ (bounded _ member)

/-- The allocated objects. -/
structure Heap (value : Type v) where
  cells : List (Nat × value)
  distinct : (cells.map Prod.fst).Nodup

variable {slot : Type u} {value : Type v}

namespace Heap

def empty : Heap value := ⟨[], List.nodup_nil⟩

def addresses (heap : Heap value) : List Nat := heap.cells.map Prod.fst

def load (heap : Heap value) (address : Nat) : Option value := heap.cells.lookup address

def allocate (allocator : Allocator) (heap : Heap value) (stored : value) : Heap value :=
  ⟨(allocator.pick heap.addresses, stored) :: heap.cells,
    List.nodup_cons.mpr ⟨allocator.fresh heap.addresses, heap.distinct⟩⟩

def free (heap : Heap value) (address : Nat) : Heap value :=
  ⟨heap.cells.filter (·.1 ≠ address), heap.distinct.sublist (List.filter_sublist.map Prod.fst)⟩

theorem mem_allocate {allocator : Allocator} {heap : Heap value} {stored : value} {address : Nat} :
    address ∈ (heap.allocate allocator stored).addresses ↔
      address = allocator.pick heap.addresses ∨ address ∈ heap.addresses :=
  List.mem_cons

theorem mem_free {heap : Heap value} {address other : Nat} :
    other ∈ (heap.free address).addresses ↔ other ≠ address ∧ other ∈ heap.addresses := by
  unfold addresses free
  simp only [List.mem_map, List.mem_filter, decide_eq_true_eq]
  constructor
  · rintro ⟨cell, ⟨present, apart⟩, rfl⟩
    exact ⟨apart, cell, present, rfl⟩
  · rintro ⟨apart, cell, present, rfl⟩
    exact ⟨cell, ⟨present, apart⟩, rfl⟩

theorem load_of_mem {heap : Heap value} {address : Nat} (used : address ∈ heap.addresses) :
    ∃ stored, heap.load address = some stored := by
  obtain ⟨cell, present, rfl⟩ := List.mem_map.mp used
  cases found : heap.load cell.1 with
  | some stored => exact ⟨stored, rfl⟩
  | none =>
      have apart := List.lookup_eq_none_iff.mp found cell present
      rw [bne_self_eq_false] at apart
      cases apart

theorem load_allocate_new (allocator : Allocator) (heap : Heap value) (stored : value) :
    (heap.allocate allocator stored).load (allocator.pick heap.addresses) = some stored :=
  List.lookup_cons_self

theorem load_allocate_old {allocator : Allocator} {heap : Heap value} {stored : value}
    {address : Nat} (used : address ∈ heap.addresses) :
    (heap.allocate allocator stored).load address = heap.load address := by
  have apart : (address == allocator.pick heap.addresses) = false := by
    rw [beq_eq_false_iff_ne]
    rintro rfl
    exact allocator.fresh heap.addresses used
  unfold load allocate
  rw [List.lookup_cons, apart]

theorem load_free {heap : Heap value} {address other : Nat} (apart : other ≠ address) :
    (heap.free address).load other = heap.load other := by
  change List.lookup other (heap.cells.filter (·.1 ≠ address)) = List.lookup other heap.cells
  generalize heap.cells = cells
  induction cells with
  | nil => rfl
  | cons cell rest ih =>
      obtain ⟨place, stored⟩ := cell
      by_cases here : place = address
      · have elsewhere : (other == place) = false := by
          rw [beq_eq_false_iff_ne, here]
          exact apart
        rw [List.filter_cons_of_neg (by simp [here]), List.lookup_cons, elsewhere, ih]
      · rw [List.filter_cons_of_pos (by simp [here]), List.lookup_cons, List.lookup_cons, ih]

end Heap

/-- A heap, and the slots with the pointers into it. An object whose slot was overwritten
is lost. -/
structure Memory (slot : Type u) (value : Type v) where
  heap : Heap value
  pointer : slot → Option Nat
  lost : List Nat

namespace Memory

def initial : Memory slot value := ⟨Heap.empty, fun _ => none, []⟩

/-- What the pointer of a slot points to. -/
def contents (memory : Memory slot value) (place : slot) : Option value :=
  (memory.pointer place).bind memory.heap.load

/-- Who owns what: every pointer is good, no two are the same, and every object is
pointed to or lost. -/
structure Owned (memory : Memory slot value) : Prop where
  valid : ∀ place address, memory.pointer place = some address → address ∈ memory.heap.addresses
  single : ∀ first second address, memory.pointer first = some address →
    memory.pointer second = some address → first = second
  covered : ∀ address ∈ memory.heap.addresses,
    address ∈ memory.lost ∨ ∃ place, memory.pointer place = some address
  unreachable : ∀ address ∈ memory.lost, ∀ place, memory.pointer place ≠ some address
  kept : ∀ address ∈ memory.lost, address ∈ memory.heap.addresses
  once : memory.lost.Nodup

theorem Owned.initial : Owned (initial : Memory slot value) where
  valid _ _ found := nomatch found
  single _ _ _ found := nomatch found
  covered _ member := nomatch member
  unreachable _ member := nomatch member
  kept _ member := nomatch member
  once := List.nodup_nil

section

variable {memory : Memory slot value}

theorem Owned.pick_unused (owned : Owned memory) {allocator : Allocator} (other : slot) :
    memory.pointer other ≠ some (allocator.pick memory.heap.addresses) := by
  intro shared
  exact allocator.fresh _ (owned.valid other _ shared)

theorem Owned.pointer_eq_none (owned : Owned memory) {place : slot}
    (blank : memory.contents place = none) : memory.pointer place = none := by
  cases found : memory.pointer place with
  | none => rfl
  | some address =>
      obtain ⟨stored, loaded⟩ := Heap.load_of_mem (owned.valid place address found)
      rw [contents, found, Option.bind_some, loaded] at blank
      cases blank

theorem Owned.lost_perm (owned : Owned memory) (blank : ∀ place, memory.contents place = none) :
    memory.lost.Perm memory.heap.addresses := by
  apply (List.perm_ext_iff_of_nodup owned.once memory.heap.distinct).mpr
  intro address
  constructor
  · exact owned.kept address
  · intro used
    rcases owned.covered address used with lost | ⟨place, found⟩
    · exact lost
    · rw [owned.pointer_eq_none (blank place)] at found
      cases found

end

variable [DecidableEq slot]

def store (allocator : Allocator) (memory : Memory slot value) (place : slot) (stored : value) :
    Memory slot value :=
  { heap := memory.heap.allocate allocator stored
    pointer := Function.update memory.pointer place
      (some (allocator.pick memory.heap.addresses))
    lost := (memory.pointer place).toList ++ memory.lost }

/-- `delete slot; slot = nullptr`. Freeing what is not allocated is undefined. -/
def release (memory : Memory slot value) (place : slot) : Option (Memory slot value) :=
  match memory.pointer place with
  | none => some memory
  | some address =>
      if address ∈ memory.heap.addresses then
        some
          { memory with
            heap := memory.heap.free address
            pointer := Function.update memory.pointer place none }
      else none

variable {allocator : Allocator} {memory : Memory slot value} {place : slot} {stored : value}

theorem store_pointer (other : slot) : (memory.store allocator place stored).pointer other =
    if other = place then some (allocator.pick memory.heap.addresses)
    else memory.pointer other :=
  Function.update_apply _ _ _ _

theorem Owned.store (owned : Owned memory) (allocator : Allocator) (place : slot) (stored : value) :
    Owned (memory.store allocator place stored) := by
  refine ⟨?_, ?_, ?_, ?_, ?_, ?_⟩
  · intro other address found
    rw [store_pointer] at found
    apply Heap.mem_allocate.mpr
    split_ifs at found
    · exact Or.inl (Option.some.inj found).symm
    · exact Or.inr (owned.valid other address found)
  · intro first second address foundFirst foundSecond
    rw [store_pointer] at foundFirst foundSecond
    split_ifs at foundFirst foundSecond with here there there
    · rw [here, there]
    · rw [← foundFirst] at foundSecond
      exact absurd foundSecond (owned.pick_unused second)
    · rw [← foundSecond] at foundFirst
      exact absurd foundFirst (owned.pick_unused first)
    · exact owned.single first second address foundFirst foundSecond
  · intro address used
    rcases Heap.mem_allocate.mp used with rfl | old
    · exact Or.inr ⟨place, by rw [store_pointer, if_pos rfl]⟩
    · rcases owned.covered address old with lost | ⟨other, found⟩
      · exact Or.inl (List.mem_append_right _ lost)
      · by_cases here : other = place
        · left
          apply List.mem_append_left
          rw [← here, found]
          exact List.mem_singleton_self address
        · exact Or.inr ⟨other, by rw [store_pointer, if_neg here]; exact found⟩
  · intro address lost other found
    rw [store_pointer] at found
    rcases List.mem_append.mp lost with overwritten | before
    · have was : memory.pointer place = some address := Option.mem_toList.mp overwritten
      split_ifs at found with here
      · rw [← found] at was
        exact owned.pick_unused place was
      · exact here (owned.single other place address found was)
    · split_ifs at found with here
      · rw [Option.some.injEq] at found
        apply allocator.fresh memory.heap.addresses
        rw [found]
        exact owned.kept address before
      · exact owned.unreachable address before other found
  · intro address lost
    apply Heap.mem_allocate.mpr
    right
    rcases List.mem_append.mp lost with overwritten | before
    · exact owned.valid place address (Option.mem_toList.mp overwritten)
    · exact owned.kept address before
  · refine List.nodup_append.mpr ⟨(memory.pointer place).toList_nodup, owned.once, ?_⟩
    rintro address overwritten _ before rfl
    exact owned.unreachable address before place (Option.mem_toList.mp overwritten)

theorem Owned.store_contents (owned : Owned memory) (other : slot) :
    (memory.store allocator place stored).contents other =
      if other = place then some stored else memory.contents other := by
  rw [contents, store_pointer]
  split_ifs
  · exact Heap.load_allocate_new allocator memory.heap stored
  · rw [contents]
    cases found : memory.pointer other with
    | none => rfl
    | some address => exact Heap.load_allocate_old (owned.valid other address found)

/-- An emptied slot, and nothing else is touched. -/
structure Emptied (memory after : Memory slot value) (place : slot) : Prop where
  contents : ∀ other, after.contents other = if other = place then none else memory.contents other
  pointer : ∀ other, after.pointer other = if other = place then none else memory.pointer other
  lost : after.lost = memory.lost

theorem Owned.release (owned : Owned memory) (place : slot) :
    ∃ after, memory.release place = some after ∧ Owned after ∧ Emptied memory after place := by
  cases found : memory.pointer place with
  | none =>
      refine ⟨memory, by rw [Memory.release, found], owned, ?_, ?_, rfl⟩
      · intro other
        split_ifs with here
        · rw [here, contents, found]
          rfl
        · rfl
      · intro other
        split_ifs with here
        · rw [here, found]
        · rfl
  | some address =>
      have used := owned.valid place address found
      have others (other : slot) (apart : other ≠ place) (target : Nat)
          (held : memory.pointer other = some target) : target ≠ address := by
        rintro rfl
        exact apart (owned.single other place target held found)
      have freed : memory.release place = some { memory with
          heap := memory.heap.free address
          pointer := Function.update memory.pointer place none } := by
        simp only [Memory.release, found, if_pos used]
      refine ⟨_, freed, ?_, ?_, ?_, rfl⟩
      · refine ⟨?_, ?_, ?_, ?_, ?_, owned.once⟩
        · intro other target held
          dsimp only at held
          rw [Function.update_apply] at held
          split_ifs at held with here
          exact Heap.mem_free.mpr ⟨others other here target held, owned.valid other target held⟩
        · intro first second target one two
          dsimp only at one two
          rw [Function.update_apply] at one two
          split_ifs at one two
          exact owned.single first second target one two
        · intro target inside
          obtain ⟨apart, was⟩ := Heap.mem_free.mp inside
          rcases owned.covered target was with lost | ⟨other, held⟩
          · exact Or.inl lost
          · refine Or.inr ⟨other, ?_⟩
            dsimp only
            rw [Function.update_apply, if_neg, held]
            rintro rfl
            rw [found, Option.some.injEq] at held
            exact apart held.symm
        · intro target lost other held
          dsimp only at held
          rw [Function.update_apply] at held
          split_ifs at held
          exact owned.unreachable target lost other held
        · intro target lost
          refine Heap.mem_free.mpr ⟨?_, owned.kept target lost⟩
          rintro rfl
          exact owned.unreachable target lost place found
      · intro other
        rw [contents]
        dsimp only
        rw [Function.update_apply]
        split_ifs with here
        · rfl
        · rw [contents]
          cases held : memory.pointer other with
          | none => rfl
          | some target => exact Heap.load_free (others other here target held)
      · intro other
        exact Function.update_apply _ _ _ _

end Memory

end BlueThread.Slots
