/-
Runs that use up a budget.

A weight is assigned to every state. An action may have a cost, and then it lowers
the weight by that much, or bring something in, and then it raises the weight by no
more. Over a whole run the costs are covered by the weight at the start and by what
came in.
-/

import BlueThread.Foundation.Population
import BlueThread.Foundation.Runs

namespace BlueThread.Runs

open Population

universe u v

variable {state : Type u} {action : Type v} {system : System state action}
  {discipline : state → action → Prop} {past : List action} {final : state}

theorem Recorded.budget (kept : state → Prop) (weight : state → Nat) (cost income : action → Nat)
    (budget : Nat)
    (atStart : ∀ current, system.initial current → kept current ∧ weight current ≤ budget)
    (spent : ∀ current act following, kept current → discipline current act →
      system.step current act = some following →
      kept following ∧ weight following + cost act ≤ weight current + income act)
    (recorded : Recorded system discipline past final) :
    kept final ∧ weight final + total cost past ≤ budget + total income past := by
  apply recorded.invariant
  · intro current initial
    exact atStart current initial
  · intro earlier current act following _recorded before permitted taken
    obtain ⟨holds, covered⟩ := before
    obtain ⟨still, step⟩ := spent current act following holds permitted taken
    refine ⟨still, ?_⟩
    rw [total_cons, total_cons]
    omega

theorem total_le_share {party : Type u} {observe shares : party → Nat} {share : Nat}
    (bounded : ∀ one, observe one ≤ share * shares one) (parties : List party) :
    total observe parties ≤ share * total shares parties := by
  induction parties with
  | nil => exact Nat.le_refl _
  | cons head tail ih =>
      have first := bounded head
      rw [total_cons, total_cons, Nat.mul_add]
      omega

theorem total_eq_length {party : Type u} {observe : party → Nat} {parties : List party}
    (each : ∀ one ∈ parties, observe one = 1) : total observe parties = parties.length := by
  induction parties with
  | nil => rfl
  | cons head tail ih =>
      have rest := ih fun one member => each one (List.mem_cons_of_mem head member)
      rw [total_cons, each head List.mem_cons_self, rest, List.length_cons, Nat.add_comm]

theorem total_indicator (test : action → Bool) (price : Nat) (actions : List action) :
    total (fun act => if test act then price else 0) actions = price * actions.countP test := by
  induction actions with
  | nil => rfl
  | cons act rest ih =>
      rw [total_cons, ih, List.countP_cons]
      split
      · rw [Nat.mul_add, Nat.mul_one, Nat.add_comm]
      · rw [Nat.zero_add, Nat.add_zero]

end BlueThread.Runs
