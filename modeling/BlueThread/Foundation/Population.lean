/-
Sums of an observation over a list of parties.

A population is a list of local states, one entry for each party. Replacing one
entry changes a sum by the difference of the two observations; a broadcast maps
every entry. Counting invariants are stated with natural sums, item accounts
with sums of multisets.
-/

import Mathlib.Algebra.BigOperators.Group.List.Basic
import Mathlib.Algebra.Order.BigOperators.Group.List
import Mathlib.Algebra.Order.Ring.Nat
import Mathlib.Data.List.Perm.Subperm
import Mathlib.Data.List.Range
import Mathlib.Tactic.Abel

namespace BlueThread.Population

universe u v

section Monoid

variable {party : Type u} {amount : Type v} [AddCommMonoid amount]
variable (observe : party → amount)

def total (parties : List party) : amount := (parties.map observe).sum

@[simp] theorem total_nil : total observe [] = 0 := rfl

@[simp] theorem total_cons (head : party) (tail : List party) :
    total observe (head :: tail) = observe head + total observe tail := by
  simp only [total, List.map_cons, List.sum_cons]

@[simp] theorem total_append (first second : List party) :
    total observe (first ++ second) = total observe first + total observe second := by
  simp only [total, List.map_append, List.sum_append]

theorem total_eq_zero {parties : List party}
    (silent : ∀ one ∈ parties, observe one = 0) : total observe parties = 0 := by
  apply List.sum_eq_zero
  intro entry member
  obtain ⟨one, present, rfl⟩ := List.mem_map.mp member
  exact silent one present

theorem total_replicate (size : Nat) (one : party) (silent : observe one = 0) :
    total observe (List.replicate size one) = 0 := by
  induction size with
  | zero => rfl
  | succ size ih => rw [List.replicate_succ, total_cons, silent, ih, add_zero]

theorem total_set {parties : List party} {index : Nat} {old : party} (new : party)
    (found : parties[index]? = some old) :
    total observe (parties.set index new) + observe old =
      total observe parties + observe new := by
  induction parties generalizing index with
  | nil => cases found
  | cons head tail ih =>
      cases index with
      | zero =>
          rw [List.getElem?_cons_zero, Option.some.injEq] at found
          rw [List.set_cons_zero, total_cons, total_cons, found]
          calc observe new + total observe tail + observe old
              = observe old + (observe new + total observe tail) := add_comm _ _
            _ = observe old + (total observe tail + observe new) := by
                rw [add_comm (observe new)]
            _ = observe old + total observe tail + observe new := (add_assoc _ _ _).symm
      | succ index =>
          rw [List.getElem?_cons_succ] at found
          rw [List.set_cons_succ, total_cons, total_cons, add_assoc, ih found, add_assoc]

theorem total_set_change {observe : party → amount} {later : party → amount}
    {parties : List party} {index : Nat} {old : party} (new : party)
    (found : parties[index]? = some old)
    (others : ∀ place one, parties[place]? = some one → place ≠ index → later one = observe one) :
    total later (parties.set index new) + observe old = total observe parties + later new := by
  induction parties generalizing index with
  | nil => cases found
  | cons head tail ih =>
      cases index with
      | zero =>
          rw [List.getElem?_cons_zero, Option.some.injEq] at found
          have same : total later tail = total observe tail := by
            unfold total
            congr 1
            apply List.map_congr_left
            intro one member
            obtain ⟨place, atPlace⟩ := List.mem_iff_getElem?.mp member
            exact others (place + 1) one atPlace (Nat.succ_ne_zero place)
          rw [List.set_cons_zero, total_cons, total_cons, same, found]
          abel
      | succ index =>
          rw [List.getElem?_cons_succ] at found
          have first := others 0 head rfl (Nat.succ_ne_zero index).symm
          have rest := ih found fun place one atPlace apart =>
            others (place + 1) one atPlace fun same => apart (Nat.succ.inj same)
          rw [List.set_cons_succ, total_cons, total_cons, add_assoc, rest, add_assoc, first]

theorem total_set_same {parties : List party} {index : Nat} {old new : party}
    (found : parties[index]? = some old) (same : observe new = observe old) :
    total observe (parties.set index new) = total observe parties := by
  induction parties generalizing index with
  | nil => cases found
  | cons head tail ih =>
      cases index with
      | zero =>
          rw [List.getElem?_cons_zero, Option.some.injEq] at found
          rw [List.set_cons_zero, total_cons, total_cons, same, found]
      | succ index =>
          rw [List.getElem?_cons_succ] at found
          rw [List.set_cons_succ, total_cons, total_cons, ih found]

theorem total_eraseIdx {parties : List party} {index : Nat} {one : party}
    (found : parties[index]? = some one) :
    observe one + total observe (parties.eraseIdx index) = total observe parties := by
  induction parties generalizing index with
  | nil => cases found
  | cons head tail ih =>
      cases index with
      | zero =>
          rw [List.getElem?_cons_zero, Option.some.injEq] at found
          rw [List.eraseIdx_cons_zero, total_cons, found]
      | succ index =>
          rw [List.getElem?_cons_succ] at found
          rw [List.eraseIdx_cons_succ, total_cons, total_cons, ← ih found, add_left_comm]

theorem total_map_same (parties : List party) (change : party → party)
    (same : ∀ one, observe (change one) = observe one) :
    total observe (parties.map change) = total observe parties := by
  unfold total
  rw [List.map_map]
  congr 2
  funext one
  exact same one

end Monoid

section Balance

variable {party : Type u} {amount : Type v} [AddCancelCommMonoid amount]
variable (observe : party → amount)

/-- An account whose balance is spread over the parties. If one party changes
and the account changes by the same amount, then it stays balanced. -/
theorem balance_set {parties : List party} {index : Nat} {old new : party}
    {held settled held' settled' : amount} (found : parties[index]? = some old)
    (balanced : held = total observe parties + settled)
    (shift : held' + settled + observe old = held + settled' + observe new) :
    held' = total observe (parties.set index new) + settled' := by
  have moved := total_set observe new found
  apply add_right_cancel (b := settled + observe old)
  calc held' + (settled + observe old)
      = held' + settled + observe old := (add_assoc _ _ _).symm
    _ = total observe parties + settled + settled' + observe new := by rw [shift, balanced]
    _ = total observe parties + observe new + settled' + settled := by abel
    _ = total observe (parties.set index new) + observe old + settled' + settled := by
        rw [moved]
    _ = total observe (parties.set index new) + settled' + (settled + observe old) := by abel

end Balance

section Count

variable {party : Type u} (observe : party → Nat)

theorem le_total {parties : List party} {index : Nat} {one : party}
    (found : parties[index]? = some one) : observe one ≤ total observe parties :=
  List.single_le_sum (fun _ _ => Nat.zero_le _) _
    (List.mem_map.mpr ⟨one, List.mem_of_getElem? found, rfl⟩)

theorem eq_zero_of_total_eq_zero {parties : List party} (empty : total observe parties = 0)
    {index : Nat} {one : party} (found : parties[index]? = some one) : observe one = 0 :=
  Nat.eq_zero_of_le_zero (empty ▸ le_total observe found)

theorem exists_other {parties : List party} {index : Nat} {one : party}
    (found : parties[index]? = some one) (more : observe one < total observe parties) :
    ∃ place other, place ≠ index ∧ parties[place]? = some other ∧ observe other ≠ 0 := by
  by_contra alone
  have silenced : total observe (parties.eraseIdx index) = 0 := by
    apply total_eq_zero
    intro other member
    obtain ⟨place, atPlace⟩ := List.mem_iff_getElem?.mp member
    rw [List.getElem?_eraseIdx] at atPlace
    by_contra seen
    split_ifs at atPlace with before
    · exact alone ⟨place, other, by omega, atPlace, seen⟩
    · exact alone ⟨place + 1, other, by omega, atPlace, seen⟩
  have split := total_eraseIdx observe found
  omega

theorem add_le_total {parties : List party} {index place : Nat} {one other : party}
    (found : parties[index]? = some one) (atPlace : parties[place]? = some other)
    (apart : place ≠ index) : observe one + observe other ≤ total observe parties := by
  have split := total_eraseIdx observe found
  have kept : observe other ≤ total observe (parties.eraseIdx index) := by
    by_cases before : place < index
    · have here : (parties.eraseIdx index)[place]? = some other := by
        rw [List.getElem?_eraseIdx_of_lt before]
        exact atPlace
      exact le_total observe here
    · have here : (parties.eraseIdx index)[place - 1]? = some other := by
        rw [List.getElem?_eraseIdx_of_ge (by omega), show place - 1 + 1 = place by omega]
        exact atPlace
      exact le_total observe here
  omega

theorem total_le_length (parties : List party) (single : ∀ one, observe one ≤ 1) :
    total observe parties ≤ parties.length := by
  induction parties with
  | nil => exact Nat.le_refl _
  | cons head tail ih =>
      have one := single head
      rw [total_cons, List.length_cons]
      omega

theorem total_lt_length {parties : List party} {index : Nat} {one : party}
    (single : ∀ one, observe one ≤ 1) (found : parties[index]? = some one)
    (outside : observe one = 0) : total observe parties < parties.length := by
  have inside := (List.getElem?_eq_some_iff.mp found).1
  have split := total_eraseIdx observe found
  have others := total_le_length observe (parties.eraseIdx index) single
  rw [List.length_eraseIdx_of_lt inside] at others
  omega

theorem counted_of_total_eq_length {parties : List party} {one : party}
    (single : ∀ one, observe one ≤ 1) (full : total observe parties = parties.length)
    (member : one ∈ parties) : observe one = 1 := by
  obtain ⟨index, found⟩ := List.mem_iff_getElem?.mp member
  have own := single one
  by_contra different
  have room := total_lt_length observe single found (by omega)
  omega

end Count

section Places

variable {party : Type u} {parties : List party} {index place : Nat} {old new one : party}

theorem getElem?_set_found (found : parties[index]? = some old) :
    (parties.set index new)[index]? = some new :=
  List.getElem?_set_self (List.getElem?_eq_some_iff.mp found).1

theorem getElem?_set_cases (found : parties[index]? = some old)
    (atPlace : (parties.set index new)[place]? = some one) :
    (index = place ∧ new = one) ∨ (index ≠ place ∧ parties[place]? = some one) := by
  by_cases same : index = place
  · subst place
    rw [getElem?_set_found found, Option.some.injEq] at atPlace
    exact Or.inl ⟨rfl, atPlace⟩
  · rw [List.getElem?_set_ne same] at atPlace
    exact Or.inr ⟨same, atPlace⟩

theorem getElem?_append_cases (atPlace : (parties ++ [new])[place]? = some one) :
    parties[place]? = some one ∨ (place = parties.length ∧ new = one) := by
  rcases Nat.lt_or_ge place parties.length with below | above
  · rw [List.getElem?_append_left below] at atPlace
    exact Or.inl atPlace
  · rw [List.getElem?_append_right above, List.getElem?_singleton] at atPlace
    split_ifs at atPlace
    rw [Option.some.injEq] at atPlace
    exact Or.inr ⟨by omega, atPlace⟩

theorem mem_set_or_replaced (new : party) (found : parties[index]? = some old)
    (member : one ∈ parties) : one = old ∨ one ∈ parties.set index new := by
  obtain ⟨place, atPlace⟩ := List.mem_iff_getElem?.mp member
  by_cases same : index = place
  · subst place
    rw [found, Option.some.injEq] at atPlace
    exact Or.inl atPlace.symm
  · right
    apply List.mem_of_getElem?
    rw [List.getElem?_set_ne same]
    exact atPlace

theorem set_same (found : parties[index]? = some old) : parties.set index old = parties := by
  obtain ⟨below, present⟩ := List.getElem?_eq_some_iff.mp found
  rw [← present]
  exact List.set_getElem_self below

theorem mem_set_new (new : party) (found : parties[index]? = some old) :
    new ∈ parties.set index new :=
  List.mem_set (List.getElem?_eq_some_iff.mp found).1 new

theorem modify_found (change : party → party) (found : parties[index]? = some old) :
    parties.modify index change = parties.set index (change old) := by
  apply List.ext_getElem?
  intro place
  rw [List.getElem?_modify]
  by_cases same : index = place
  · subst place
    rw [getElem?_set_found found, found]
    exact congrArg some (if_pos rfl)
  · rw [List.getElem?_set_ne same]
    cases parties[place]? with
    | none => rfl
    | some present => exact congrArg some (if_neg same)

theorem map_modify_same {amount : Type v} (observe : party → amount) (change : party → party)
    (same : ∀ one, observe (change one) = observe one) :
    (parties.modify index change).map observe = parties.map observe := by
  cases found : parties[index]? with
  | none => rw [List.modify_eq_self (List.getElem?_eq_none_iff.mp found)]
  | some present =>
      rw [modify_found change found, List.map_set, same]
      apply set_same
      rw [List.getElem?_map, found]
      rfl

theorem countP_le_places (counts : party → Bool) {places : List Nat}
    (listed : ∀ place one, parties[place]? = some one → counts one = true → place ∈ places) :
    parties.countP counts ≤ places.length := by
  have spread : (List.range parties.length).map (fun place => parties[place]?) =
      parties.map some := by
    apply List.ext_getElem
    · simp
    · intro place small _
      have inside : place < parties.length := by simpa using small
      simp [List.getElem?_eq_getElem inside]
  have counted : parties.countP counts =
      ((List.range parties.length).filter fun place => (parties[place]?).any counts).length := by
    calc parties.countP counts = (parties.map some).countP (Option.any counts) := by
          rw [List.countP_map]
          rfl
      _ = ((List.range parties.length).map fun place => parties[place]?).countP
            (Option.any counts) := by rw [spread]
      _ = (List.range parties.length).countP fun place => (parties[place]?).any counts := by
          rw [List.countP_map]
          rfl
      _ = _ := List.countP_eq_length_filter
  rw [counted]
  apply List.Subperm.length_le
  apply List.Nodup.subperm
  · exact List.nodup_range.filter _
  · intro place member
    have found := (List.mem_filter.mp member).2
    rw [Option.any_eq_true_iff_get] at found
    obtain ⟨present, yes⟩ := found
    exact listed place _ (Option.some_get present).symm yes

end Places

end BlueThread.Population
