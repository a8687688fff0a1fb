/-
Items that pass through two lists in a row.

Items come in at either end of the first list, go from its front to the back of the
second one, and are taken from the front of that. Both moves keep the order, so the
first list alone decides who is taken before whom. Items may be equal; where that
matters they are numbered in the order in which they came in.
-/

import Mathlib.Data.List.Nodup

namespace BlueThread.TwoStage

universe u v

inductive Event (item : Type u)
  | back (one : item)
  | front (one : item)
  | dequeue
  | take
deriving DecidableEq

/-- The two lists, and in order what left the first and what left the second. -/
structure Lane (item : Type u) where
  waiting : List item
  staged : List item
  dequeued : List item
  taken : List item

variable {item : Type u} {other : Type v}

def Event.map (change : item → other) : Event item → Event other
  | .back one => .back (change one)
  | .front one => .front (change one)
  | .dequeue => .dequeue
  | .take => .take

namespace Lane

def empty : Lane item :=
  { waiting := []
    staged := []
    dequeued := []
    taken := [] }

/-- The lists after an event. Nothing leaves an empty list. -/
def next (lane : Lane item) : Event item → Lane item
  | .back one => { lane with waiting := lane.waiting ++ [one] }
  | .front one => { lane with waiting := one :: lane.waiting }
  | .dequeue =>
      match lane.waiting with
      | [] => lane
      | one :: rest =>
          { lane with
            waiting := rest
            staged := lane.staged ++ [one]
            dequeued := lane.dequeued ++ [one] }
  | .take =>
      match lane.staged with
      | [] => lane
      | one :: rest => { lane with staged := rest, taken := lane.taken ++ [one] }

def map (change : item → other) (lane : Lane item) : Lane other :=
  { waiting := lane.waiting.map change
    staged := lane.staged.map change
    dequeued := lane.dequeued.map change
    taken := lane.taken.map change }

/-- Whatever came in, in the order of leaving the first list if nothing else comes in. -/
def order (lane : Lane item) : List item := lane.dequeued ++ lane.waiting

theorem next_map (change : item → other) (lane : Lane item) (event : Event item) :
    (lane.map change).next (event.map change) = (lane.next event).map change := by
  obtain ⟨waiting, staged, dequeued, taken⟩ := lane
  cases event with
  | back one => simp only [map, next, Event.map, List.map_append, List.map_cons, List.map_nil]
  | front one => rfl
  | dequeue =>
      cases waiting with
      | nil => rfl
      | cons one rest =>
          simp only [map, next, Event.map, List.map_cons, List.map_append, List.map_nil]
  | take =>
      cases staged with
      | nil => rfl
      | cons one rest =>
          simp only [map, next, Event.map, List.map_cons, List.map_append, List.map_nil]

theorem next_staged {lane : Lane item} (kept : lane.taken ++ lane.staged = lane.dequeued)
    (event : Event item) :
    (lane.next event).taken ++ (lane.next event).staged = (lane.next event).dequeued := by
  obtain ⟨waiting, staged, dequeued, taken⟩ := lane
  cases event with
  | back one => exact kept
  | front one => exact kept
  | dequeue =>
      cases waiting with
      | nil => exact kept
      | cons one rest =>
          change taken ++ (staged ++ [one]) = dequeued ++ [one]
          rw [← List.append_assoc]
          exact congrArg (· ++ [one]) kept
  | take =>
      cases staged with
      | nil => exact kept
      | cons one rest =>
          change taken ++ [one] ++ rest = dequeued
          rw [List.append_assoc]
          exact kept

theorem order_back (lane : Lane item) (one : item) :
    (lane.next (.back one)).order = lane.order ++ [one] :=
  (List.append_assoc _ _ _).symm

theorem order_front (lane : Lane item) (one : item) :
    (lane.next (.front one)).order = lane.dequeued ++ one :: lane.waiting := rfl

theorem order_dequeue (lane : Lane item) : (lane.next .dequeue).order = lane.order := by
  obtain ⟨waiting, staged, dequeued, taken⟩ := lane
  cases waiting with
  | nil => rfl
  | cons one rest => exact List.append_assoc dequeued [one] rest

theorem order_take (lane : Lane item) : (lane.next .take).order = lane.order := by
  obtain ⟨waiting, staged, dequeued, taken⟩ := lane
  cases staged with
  | nil => rfl
  | cons one rest => rfl

theorem order_sublist_next (lane : Lane item) (event : Event item) :
    lane.order.Sublist (lane.next event).order := by
  cases event with
  | back one =>
      rw [order_back]
      exact List.sublist_append_left _ _
  | front one =>
      rw [order_front]
      exact (List.sublist_cons_self one lane.waiting).append_left lane.dequeued
  | dequeue => rw [order_dequeue]
  | take => rw [order_take]

end Lane

/-! ### Runs -/

/-- The lists after all events, the latest first. -/
def run : List (Event item) → Lane item
  | [] => Lane.empty
  | event :: past => (run past).next event

theorem run_map (change : item → other) (events : List (Event item)) :
    run (events.map (Event.map change)) = (run events).map change := by
  induction events with
  | nil => rfl
  | cons event past ih =>
      rw [List.map_cons, run, ih, Lane.next_map]
      rfl

theorem run_staged (events : List (Event item)) :
    (run events).taken ++ (run events).staged = (run events).dequeued := by
  induction events with
  | nil => rfl
  | cons event past ih => exact Lane.next_staged ih event

theorem taken_before_staged (events : List (Event item)) :
    (run events).taken <+: (run events).dequeued := by
  rw [← run_staged]
  exact List.prefix_append _ _

theorem run_order_sublist (later earlier : List (Event item)) :
    (run earlier).order.Sublist (run (later ++ earlier)).order := by
  induction later with
  | nil => exact List.Sublist.refl _
  | cons event later ih => exact ih.trans (Lane.order_sublist_next _ event)

/-- What came in, in the order in which it came in. -/
def inserted : List (Event item) → List item
  | [] => []
  | .back one :: past => inserted past ++ [one]
  | .front one :: past => inserted past ++ [one]
  | .dequeue :: past => inserted past
  | .take :: past => inserted past

/-- An event that puts nothing in front. -/
def Event.Fair : Event item → Prop
  | .front _ => False
  | _ => True

theorem order_of_fair (events : List (Event item)) (fair : ∀ event ∈ events, event.Fair) :
    (run events).order = inserted events := by
  induction events with
  | nil => rfl
  | cons event past ih =>
      have before := ih fun one member => fair one (List.mem_cons_of_mem _ member)
      cases event with
      | back one =>
          rw [run, Lane.order_back, before]
          rfl
      | front one => exact (fair _ List.mem_cons_self).elim
      | dequeue =>
          rw [run, Lane.order_dequeue]
          exact before
      | take =>
          rw [run, Lane.order_take]
          exact before

theorem dequeued_of_fair (events : List (Event item)) (fair : ∀ event ∈ events, event.Fair) :
    (run events).dequeued <+: inserted events := by
  rw [← order_of_fair events fair]
  exact List.prefix_append _ _

/-! ### Numbered items -/

/-- Numbers the items as they come in, from zero on. -/
def number : List (Event item) → List (Event (Nat × item))
  | [] => []
  | event :: past => event.map (fun one => ((inserted past).length, one)) :: number past

theorem number_map (events : List (Event item)) :
    (number events).map (Event.map Prod.snd) = events := by
  induction events with
  | nil => rfl
  | cons event past ih =>
      rw [number, List.map_cons, ih]
      cases event with
      | back one => rfl
      | front one => rfl
      | dequeue => rfl
      | take => rfl

theorem run_number (events : List (Event item)) :
    (run (number events)).map Prod.snd = run events := by
  rw [← run_map, number_map]

theorem number_fair (events : List (Event item)) (fair : ∀ event ∈ events, event.Fair) :
    ∀ event ∈ number events, event.Fair := by
  induction events with
  | nil =>
      intro event member
      cases member
  | cons latest past ih =>
      intro event member
      rw [number, List.mem_cons] at member
      cases member with
      | inl same =>
          have allowed := fair latest List.mem_cons_self
          rw [same]
          cases latest with
          | front one => exact allowed
          | back one => exact trivial
          | dequeue => exact trivial
          | take => exact trivial
      | inr older => exact ih (fun one known => fair one (List.mem_cons_of_mem _ known)) event older

theorem number_append (later earlier : List (Event item)) :
    ∃ numbered, number (later ++ earlier) = numbered ++ number earlier := by
  induction later with
  | nil => exact ⟨[], rfl⟩
  | cons event later ih =>
      obtain ⟨numbered, same⟩ := ih
      rw [List.cons_append, number, same]
      exact ⟨_ :: numbered, rfl⟩

private theorem fresh_insert {order after : List (Nat × item)} {count : Nat} {one : item}
    (placed : after.Perm ((count, one) :: order)) (distinct : order.Nodup)
    (below : ∀ entry ∈ order, entry.1 < count) :
    after.Nodup ∧ ∀ entry ∈ after, entry.1 < count + 1 := by
  constructor
  · rw [placed.nodup_iff, List.nodup_cons]
    refine ⟨?_, distinct⟩
    intro member
    exact Nat.lt_irrefl count (below _ member)
  · intro entry member
    cases List.mem_cons.mp (placed.mem_iff.mp member) with
    | inl new =>
        rw [new]
        exact Nat.lt_succ_self count
    | inr old => exact Nat.lt_succ_of_lt (below entry old)

theorem number_fresh (events : List (Event item)) :
    (run (number events)).order.Nodup ∧
      ∀ entry ∈ (run (number events)).order, entry.1 < (inserted events).length := by
  induction events with
  | nil =>
      refine ⟨List.nodup_nil, ?_⟩
      intro entry member
      cases member
  | cons event past ih =>
      obtain ⟨distinct, below⟩ := ih
      rw [number, run]
      cases event with
      | back one =>
          rw [Event.map, Lane.order_back, inserted, List.length_append, List.length_singleton]
          exact fresh_insert (List.perm_append_singleton _ _) distinct below
      | front one =>
          rw [Event.map, Lane.order_front, inserted, List.length_append, List.length_singleton]
          exact fresh_insert List.perm_middle distinct below
      | dequeue =>
          rw [Event.map, Lane.order_dequeue]
          exact ⟨distinct, below⟩
      | take =>
          rw [Event.map, Lane.order_take]
          exact ⟨distinct, below⟩

theorem taken_distinct (events : List (Event item)) : (run (number events)).taken.Nodup := by
  have distinct := (number_fresh events).1
  have dequeued := distinct.of_append_left
  exact dequeued.sublist (taken_before_staged (number events)).sublist

private theorem pair_inside {front rest : List item} {first second : item}
    (pair : [first, second].Sublist (front ++ rest)) (distinct : (front ++ rest).Nodup)
    (inside : second ∈ front) : [first, second].Sublist front := by
  obtain ⟨left, right, split, inFront, inRest⟩ := List.sublist_append_iff.mp pair
  have outside : second ∉ right := by
    intro member
    exact (List.disjoint_of_nodup_append distinct) inside (inRest.subset member)
  -- the second entry is the last one, so nothing is left for the rest
  have nothing : right = [] := by
    cases left with
    | nil =>
        rw [List.nil_append] at split
        rw [← split] at outside
        exact absurd (List.mem_cons_of_mem _ List.mem_cons_self) outside
    | cons one more =>
        rw [List.cons_append, List.cons.injEq] at split
        cases more with
        | nil =>
            rw [List.nil_append] at split
            rw [← split.2] at outside
            exact absurd List.mem_cons_self outside
        | cons two more =>
            have none := (List.cons.inj split.2).2
            exact (List.append_eq_nil_iff.mp none.symm).2
  rw [nothing, List.append_nil] at split
  rw [split]
  exact inFront

theorem front_taken_before (later earlier : List (Event item)) (one : item)
    {entry : Nat × item} (behind : entry ∈ (run (number earlier)).waiting)
    (taken : entry ∈ (run (number (later ++ .front one :: earlier))).taken) :
    [((inserted earlier).length, one), entry].Sublist
      (run (number (later ++ .front one :: earlier))).taken := by
  have atOnce : [((inserted earlier).length, one), entry].Sublist
      (run (number (.front one :: earlier))).order := by
    have pair : [((inserted earlier).length, one), entry].Sublist
        (((inserted earlier).length, one) :: (run (number earlier)).waiting) :=
      (List.singleton_sublist.mpr behind).cons_cons _
    exact pair.trans (List.sublist_append_right _ _)
  obtain ⟨numbered, same⟩ := number_append later (.front one :: earlier)
  have kept := atOnce.trans (run_order_sublist numbered (number (.front one :: earlier)))
  rw [← same] at kept
  have distinct := (number_fresh (later ++ .front one :: earlier)).1
  rw [Lane.order, ← run_staged, List.append_assoc] at kept distinct
  exact pair_inside kept distinct taken

end BlueThread.TwoStage
