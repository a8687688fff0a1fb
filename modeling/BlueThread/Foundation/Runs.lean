/-
Runs of a labelled transition system under a client discipline.

A step is a partial function: `none` means that the action is not enabled, for
example because the acting thread is blocked. A discipline restricts which
enabled actions the environment may choose, state by state, so that one
transition function serves claims with different client contracts.
-/

import Mathlib.Logic.Basic

namespace BlueThread.Runs

universe u v

structure System (state : Type u) (action : Type v) where
  initial : state → Prop
  step : state → action → Option state

variable {state : Type u} {action : Type v}

/-- States reached from an initial one by steps that all meet the discipline. -/
inductive Reachable (system : System state action)
    (discipline : state → action → Prop) : state → Prop
  | start {current : state} (initial : system.initial current) :
      Reachable system discipline current
  | next {current following : state} (act : action)
      (before : Reachable system discipline current)
      (permitted : discipline current act)
      (taken : system.step current act = some following) :
      Reachable system discipline following

namespace Reachable

variable {system : System state action} {discipline weaker : state → action → Prop}

/-- The invariant rule: one initial goal and one step goal. The step goal may
also use that the state it starts from is reachable. -/
theorem invariant {property : state → Prop}
    (atStart : ∀ current, system.initial current → property current)
    (preserved : ∀ current act following, Reachable system discipline current →
      property current → discipline current act →
      system.step current act = some following → property following)
    {final : state} (reached : Reachable system discipline final) : property final := by
  induction reached with
  | start initial => exact atStart _ initial
  | next act before permitted taken ih =>
      exact preserved _ act _ before ih permitted taken

theorem mono (relaxed : ∀ current act, discipline current act → weaker current act)
    {final : state} (reached : Reachable system discipline final) :
    Reachable system weaker final := by
  induction reached with
  | start initial => exact .start initial
  | next act _before permitted taken ih =>
      exact .next act ih (relaxed _ act permitted) taken

end Reachable

/-- The same system, started in one given state: what may happen from there on. -/
def System.after (system : System state action) (first : state) : System state action where
  initial current := current = first
  step := system.step

theorem Reachable.append {system : System state action}
    {discipline : state → action → Prop} {first final : state}
    (before : Reachable system discipline first)
    (reached : Reachable (system.after first) discipline final) :
    Reachable system discipline final := by
  induction reached with
  | start initial =>
      subst initial
      exact before
  | next act _before permitted taken ih => exact .next act ih permitted taken

/-- Runs together with the actions that were taken, the latest first. -/
inductive Recorded (system : System state action)
    (discipline : state → action → Prop) : List action → state → Prop
  | start {current : state} (initial : system.initial current) :
      Recorded system discipline [] current
  | next {past : List action} {current following : state} (act : action)
      (before : Recorded system discipline past current)
      (permitted : discipline current act)
      (taken : system.step current act = some following) :
      Recorded system discipline (act :: past) following

namespace Recorded

variable {system : System state action} {discipline : state → action → Prop}
  {past : List action} {final : state}

theorem invariant {property : List action → state → Prop}
    (atStart : ∀ current, system.initial current → property [] current)
    (preserved : ∀ past current act following, Recorded system discipline past current →
      property past current → discipline current act →
      system.step current act = some following → property (act :: past) following)
    (recorded : Recorded system discipline past final) : property past final := by
  induction recorded with
  | start initial => exact atStart _ initial
  | next act before permitted taken ih =>
      exact preserved _ _ act _ before ih permitted taken

theorem reachable (recorded : Recorded system discipline past final) :
    Reachable system discipline final := by
  induction recorded with
  | start initial => exact .start initial
  | next act _before permitted taken ih => exact .next act ih permitted taken

theorem restrict {allowed : action → Prop} (recorded : Recorded system discipline past final)
    (all : ∀ act ∈ past, allowed act) :
    Reachable system (fun current act => discipline current act ∧ allowed act) final := by
  induction recorded with
  | start initial => exact .start initial
  | next act _before permitted taken ih =>
      have earlier := ih (fun one member => all one (List.mem_cons_of_mem act member))
      exact .next act earlier ⟨permitted, all act List.mem_cons_self⟩ taken

end Recorded

theorem Reachable.recorded {system : System state action} {discipline : state → action → Prop}
    {final : state} (reached : Reachable system discipline final) :
    ∃ past, Recorded system discipline past final := by
  induction reached with
  | start initial => exact ⟨[], .start initial⟩
  | next act _before permitted taken ih =>
      obtain ⟨past, recorded⟩ := ih
      exact ⟨act :: past, .next act recorded permitted taken⟩

/-- Replays a list of actions, stopping at the first one that is not enabled or
that breaks the discipline. -/
def replay (system : System state action) (discipline : state → action → Prop)
    [∀ current act, Decidable (discipline current act)] :
    state → List action → Option state
  | current, [] => some current
  | current, act :: rest =>
      if discipline current act then
        match system.step current act with
        | some following => replay system discipline following rest
        | none => none
      else none

theorem replay_recorded {system : System state action}
    {discipline : state → action → Prop}
    [∀ current act, Decidable (discipline current act)]
    {first final : state} {past actions : List action}
    (before : Recorded system discipline past first)
    (replayed : replay system discipline first actions = some final) :
    Recorded system discipline (actions.reverse ++ past) final := by
  induction actions generalizing first past with
  | nil =>
      rw [replay, Option.some.injEq] at replayed
      exact replayed ▸ before
  | cons act rest ih =>
      rw [replay] at replayed
      split at replayed
      · rename_i permitted
        split at replayed
        · rename_i following taken
          have recorded := ih (.next act before permitted taken) replayed
          rw [List.reverse_cons, List.append_assoc]
          exact recorded
        · cases replayed
      · cases replayed

theorem replay_reachable {system : System state action}
    {discipline : state → action → Prop}
    [∀ current act, Decidable (discipline current act)]
    {first final : state} {actions : List action}
    (before : Reachable system discipline first)
    (replayed : replay system discipline first actions = some final) :
    Reachable system discipline final := by
  obtain ⟨past, recorded⟩ := before.recorded
  exact (replay_recorded recorded replayed).reachable

/-- A concrete run whose last state passes a test gives a reachable state that
passes it. -/
theorem exists_of_replay {system : System state action}
    (discipline : state → action → Prop)
    [∀ current act, Decidable (discipline current act)]
    {first : state} (initial : system.initial first) (actions : List action)
    (test : state → Bool)
    (passed : (replay system discipline first actions).any test = true) :
    ∃ final, Reachable system discipline final ∧ test final = true := by
  cases replayed : replay system discipline first actions with
  | none =>
      rw [replayed] at passed
      cases passed
  | some final =>
      rw [replayed] at passed
      exact ⟨final, replay_reachable (.start initial) replayed, passed⟩

end BlueThread.Runs
