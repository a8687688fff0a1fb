/-
Acyclic relations: adding one edge, ranking by descendants, and circular waits.

The relation is arbitrary; nothing here depends on how edges are stored. The
rank counts strict descendants inside a finite carrier, so it bounds every
search that follows edges without marking what it has visited.
-/

import Mathlib.Logic.Relation
import Mathlib.Data.Fin.Basic
import Mathlib.Data.Finset.Card
import Mathlib.Data.List.Chain

namespace BlueThread.Digraph

open Relation

universe u v

variable {node : Type u} {edge smaller : node → node → Prop}

def Acyclic (edge : node → node → Prop) : Prop :=
  ∀ start, ¬TransGen edge start start

theorem Acyclic.nodup_of_isChain (acyclic : Acyclic edge) {path : List node}
    (chain : path.IsChain edge) : path.Nodup := by
  have reaches : path.IsChain (TransGen edge) := chain.imp fun _ _ step => .single step
  refine (List.isChain_iff_pairwise.mp reaches).imp ?_
  rintro first _ path rfl
  exact acyclic first path

/-- New edges from every chosen source to one target. -/
def insertInto (edge : node → node → Prop) (source : node → Prop) (target : node) :
    node → node → Prop :=
  fun left right => edge left right ∨ (source left ∧ right = target)

theorem Acyclic.mono (acyclic : Acyclic edge)
    (included : ∀ left right, smaller left right → edge left right) :
    Acyclic smaller := by
  intro start cycle
  exact acyclic start (TransGen.mono included _ _ cycle)

/-- Edges into a target open no new path that starts there: after the last
visit to the target every edge is an old one. -/
theorem path_insertInto {source : node → Prop} {target finish : node}
    (path : TransGen (insertInto edge source target) target finish) :
    finish = target ∨ TransGen edge target finish := by
  induction path with
  | single step =>
      rcases step with old | ⟨_, atTarget⟩
      · exact Or.inr (.single old)
      · exact Or.inl atTarget
  | tail _ step ih =>
      rcases step with old | ⟨_, atTarget⟩
      · rcases ih with rfl | before
        · exact Or.inr (.single old)
        · exact Or.inr (before.tail old)
      · exact Or.inl atTarget

theorem Acyclic.insertInto (acyclic : Acyclic edge) {source : node → Prop} {target : node}
    (apart : ∀ start, source start → start ≠ target)
    (noReturn : ∀ start, source start → ¬TransGen edge target start) :
    Acyclic (insertInto edge source target) := by
  have unreached (start : node) (chosen : source start) :
      ¬TransGen (Digraph.insertInto edge source target) target start := by
    intro path
    rcases path_insertInto path with same | old
    · exact apart start chosen same
    · exact noReturn start chosen old
  -- A path stays old until it takes a new edge, and from there it is at the target.
  have split {left right : node}
      (path : TransGen (Digraph.insertInto edge source target) left right) :
      TransGen edge left right ∨
        ∃ start, source start ∧
          ReflTransGen (Digraph.insertInto edge source target) left start ∧
          ReflTransGen (Digraph.insertInto edge source target) target right := by
    induction path with
    | single step =>
        rcases step with old | ⟨chosen, rfl⟩
        · exact Or.inl (.single old)
        · exact Or.inr ⟨left, chosen, .refl, .refl⟩
    | tail before step ih =>
        rcases step with old | ⟨chosen, rfl⟩
        · rcases ih with direct | ⟨start, chosen, toStart, fromTarget⟩
          · exact Or.inl (direct.tail old)
          · exact Or.inr ⟨start, chosen, toStart, fromTarget.tail (Or.inl old)⟩
        · exact Or.inr ⟨_, chosen, before.to_reflTransGen, .refl⟩
  intro start cycle
  rcases split cycle with old | ⟨chosenStart, chosen, toStart, fromTarget⟩
  · exact acyclic start old
  · rcases reflTransGen_iff_eq_or_transGen.mp (fromTarget.trans toStart) with same | path
    · exact apart chosenStart chosen same
    · exact unreached chosenStart chosen path

/-! ### Ranking by descendants -/

section Rank

variable (carrier : Finset node)

open Classical in
/-- The number of strict descendants inside the carrier. -/
noncomputable def rank (edge : node → node → Prop) (start : node) : Nat :=
  (carrier.filter (fun other => TransGen edge start other)).card

theorem rank_le_card (start : node) : rank carrier edge start ≤ carrier.card := by
  classical
  exact Finset.card_filter_le _ _

theorem rank_lt_of_edge (acyclic : Acyclic edge) {left right : node}
    (inside : right ∈ carrier) (step : edge left right) :
    rank carrier edge right < rank carrier edge left := by
  classical
  apply Finset.card_lt_card
  refine Finset.ssubset_iff_subset_ne.mpr ⟨?_, ?_⟩
  · intro other member
    rw [Finset.mem_filter] at member ⊢
    exact ⟨member.1, TransGen.head step member.2⟩
  · intro same
    have atRight : right ∈ carrier.filter (fun other => TransGen edge left other) :=
      Finset.mem_filter.mpr ⟨inside, .single step⟩
    rw [← same, Finset.mem_filter] at atRight
    exact acyclic right atRight.2

end Rank

/-- Finitely many pairs agree with a numbering of the nodes exactly when they close no
cycle. -/
theorem exists_numbering_iff (pairs : List (node × node)) :
    (∃ number : node → Nat, ∀ pair ∈ pairs, number pair.1 < number pair.2) ↔
      Acyclic fun left right => (left, right) ∈ pairs := by
  classical
  constructor
  · rintro ⟨number, increasing⟩ start cycle
    have grows {left right : node}
        (path : TransGen (fun left right => (left, right) ∈ pairs) left right) :
        number left < number right := by
      induction path with
      | single step => exact increasing _ step
      | tail _ step ih => exact ih.trans (increasing _ step)
    exact Nat.lt_irrefl _ (grows cycle)
  · intro acyclic
    let carrier := (pairs.map Prod.snd).toFinset
    let behind := rank carrier fun left right => (left, right) ∈ pairs
    refine ⟨fun start => carrier.card - behind start, ?_⟩
    rintro ⟨left, right⟩ member
    have inside : right ∈ carrier :=
      List.mem_toFinset.mpr (List.mem_map_of_mem (f := Prod.snd) member)
    have lower : behind right < behind left := rank_lt_of_edge carrier acyclic inside member
    have bound : behind left ≤ carrier.card := rank_le_card carrier left
    dsimp only
    omega

/-! ### Rings of waiting parties -/

theorem path_of_ring {length : Nat} (walk : Fin (length + 1) → node)
    (linked : ∀ index, edge (walk index) (walk (index + 1))) :
    TransGen edge (walk 0) (walk 0) := by
  have succeeds (steps : Nat) :
      Fin.ofNat (length + 1) steps + 1 = Fin.ofNat (length + 1) (steps + 1) := by
    apply Fin.ext
    simp only [Fin.val_add, Fin.val_ofNat, Fin.val_one', Nat.add_mod_mod, Nat.mod_add_mod]
  have reach (steps : Nat) :
      TransGen edge (walk 0) (walk (Fin.ofNat (length + 1) (steps + 1))) := by
    induction steps with
    | zero =>
        rw [← succeeds 0]
        exact .single (linked (Fin.ofNat (length + 1) 0))
    | succ steps ih =>
        rw [← succeeds (steps + 1)]
        exact ih.tail (linked (Fin.ofNat (length + 1) (steps + 1)))
  have closed : Fin.ofNat (length + 1) (length + 1) = 0 := by
    apply Fin.ext
    simp only [Fin.val_ofNat, Nat.mod_self, Fin.val_zero]
  have around := reach length
  rwa [closed] at around

variable {party : Type v}

/-- A ring of parties, at least one, each blocked on a node that the next one
owns. -/
def CircularWait (blockedOn owns : party → node → Prop) : Prop :=
  ∃ (length : Nat) (member : Fin (length + 1) → party)
    (wanted : Fin (length + 1) → node),
    ∀ index, blockedOn (member index) (wanted index) ∧
      owns (member (index + 1)) (wanted index)

/-- If every blocked party recorded an order from what it owns to what it
wants, and the recorded order is acyclic, then no ring is waiting. -/
theorem no_circularWait {blockedOn owns : party → node → Prop} (acyclic : Acyclic edge)
    (recorded : ∀ waiter held wanted, blockedOn waiter wanted → owns waiter held →
      edge held wanted) :
    ¬CircularWait blockedOn owns := by
  rintro ⟨length, member, wanted, ring⟩
  apply acyclic (wanted 0)
  apply path_of_ring wanted
  intro index
  exact recorded (member (index + 1)) (wanted index) (wanted (index + 1))
    (ring (index + 1)).1 (ring index).2

end BlueThread.Digraph
