/-
The last place of a mark in a text.

A loop that overwrites what it has found ends with the last place. The place is
described by the text alone, and a text that is split at a mark with none behind
it shows where the last one is.
-/

import Mathlib.Data.List.Basic

namespace BlueThread.Marks

universe u

variable {symbol : Type u}

/-- The mark stands at the place, and at no later one. -/
def IsLast (mark : symbol) (text : List symbol) (place : Nat) : Prop :=
  text[place]? = some mark ∧ ∀ later, place < later → text[later]? ≠ some mark

theorem IsLast.split {mark : symbol} {text : List symbol} {place : Nat}
    (last : IsLast mark text place) :
    ∃ before after, text = before ++ mark :: after ∧ before.length = place ∧ mark ∉ after := by
  obtain ⟨inside, found⟩ := List.getElem?_eq_some_iff.mp last.1
  refine ⟨text.take place, text.drop (place + 1), ?_, ?_, ?_⟩
  · rw [← found, ← List.drop_eq_getElem_cons inside, List.take_append_drop]
  · exact List.length_take_of_le (Nat.le_of_lt inside)
  · intro member
    obtain ⟨offset, atOffset⟩ := List.mem_iff_getElem?.mp member
    rw [List.getElem?_drop] at atOffset
    exact last.2 _ (by omega) atOffset

theorem isLast_append_cons {mark : symbol} (before after : List symbol) (clear : mark ∉ after) :
    IsLast mark (before ++ mark :: after) before.length := by
  constructor
  · rw [List.getElem?_append_right (Nat.le_refl _), Nat.sub_self, List.getElem?_cons_zero]
  · intro later behind found
    obtain ⟨offset, rfl⟩ := Nat.exists_eq_add_of_lt behind
    rw [List.getElem?_append_right (by omega),
      show before.length + offset + 1 - before.length = offset + 1 by omega,
      List.getElem?_cons_succ] at found
    exact clear (List.mem_of_getElem? found)

theorem exists_isLast {mark : symbol} {text : List symbol} (member : mark ∈ text) :
    ∃ place, IsLast mark text place := by
  induction text with
  | nil => cases member
  | cons head tail ih =>
      by_cases again : mark ∈ tail
      · obtain ⟨place, last⟩ := ih again
        obtain ⟨before, after, rfl, _, clear⟩ := last.split
        exact ⟨_, isLast_append_cons (head :: before) after clear⟩
      · have same : mark = head := (List.mem_cons.mp member).resolve_right again
        rw [← same]
        exact ⟨_, isLast_append_cons [] tail again⟩

theorem IsLast.drop {mark : symbol} {front rest : List symbol} {place : Nat}
    (last : IsLast mark (front ++ rest) place) (behind : front.length ≤ place) :
    IsLast mark rest (place - front.length) := by
  constructor
  · rw [← List.getElem?_append_right behind]
    exact last.1
  · intro later further found
    apply last.2 (front.length + later) (by omega)
    rw [List.getElem?_append_right (Nat.le_add_right _ _), Nat.add_sub_cancel_left]
    exact found

variable [DecidableEq symbol] {mark : symbol} {text : List symbol}

/-- Goes through a text whose first symbol is at `place`, and remembers where the
mark was seen last. -/
def lastPlace (mark : symbol) (place : Nat) (found : Option Nat) : List symbol → Option Nat
  | [] => found
  | head :: tail => lastPlace mark (place + 1) (if head = mark then some place else found) tail

theorem lastPlace_absent (absent : mark ∉ text) (place : Nat) (found : Option Nat) :
    lastPlace mark place found text = found := by
  induction text generalizing place found with
  | nil => rfl
  | cons head tail ih =>
      rw [List.mem_cons, not_or] at absent
      rw [lastPlace, if_neg (Ne.symm absent.1), ih absent.2]

theorem lastPlace_append (first second : List symbol) (place : Nat) (found : Option Nat) :
    lastPlace mark place found (first ++ second) =
      lastPlace mark (place + first.length) (lastPlace mark place found first) second := by
  induction first generalizing place found with
  | nil => rfl
  | cons head tail ih =>
      rw [List.cons_append, lastPlace, ih, lastPlace, List.length_cons, Nat.add_assoc,
        Nat.add_comm 1]

theorem lastPlace_split {after : List symbol} (clear : mark ∉ after) (before : List symbol)
    (found : Option Nat) :
    lastPlace mark 0 found (before ++ mark :: after) = some before.length := by
  rw [lastPlace_append, lastPlace, if_pos rfl, lastPlace_absent clear, Nat.zero_add]

theorem IsLast.lastPlace_eq {place : Nat} (last : IsLast mark text place) :
    lastPlace mark 0 none text = some place := by
  obtain ⟨before, after, rfl, rfl, clear⟩ := last.split
  exact lastPlace_split clear before none

end BlueThread.Marks
