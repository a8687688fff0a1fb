/-
The dependency matrix as an acyclic order.

`does_follow` marks nothing as visited, so it returns only because the matrix is
acyclic; and `lockdep_will_lock` keeps the matrix acyclic only because
`does_follow` answers reachability. The two facts are proved in that order, with
the number of descendants as the measure of the recursion.
-/

import BlueThread.Foundation.Digraph
import BlueThread.Lockdep.Registry

namespace BlueThread.Lockdep

open PackedBits Relation BlueThread.Digraph

/-- The relation that the matrix encodes: right was taken while left was held. -/
abbrev Tables.Follows (tables : Tables) (left right : Nat) : Prop :=
  follows tables left right = true

structure LockOrder (tables : Tables) : Prop where
  acyclic : Acyclic tables.Follows
  registered : ∀ left right, tables.Follows left right →
    tables.Registered left ∧ tables.Registered right
  traced : ∀ left right,
    (tables.lockTreeBacktrace left right).isSome = follows tables left right

theorem LockOrder.initial : LockOrder Tables.initial where
  acyclic start cycle := by
    obtain ⟨next, first, _⟩ := TransGen.head'_iff.mp cycle
    change testBit (fun _ => 0#8) next = true at first
    rw [testBit_zero] at first
    cases first
  registered left right edge := by
    change testBit (fun _ => 0#8) right = true at edge
    rw [testBit_zero] at edge
    cases edge
  traced left right := (testBit_zero right).symm

theorem LockOrder.transfer {tables result : Tables} (order : LockOrder tables)
    (sameTree : result.lockTree = tables.lockTree)
    (sameTraces : result.lockTreeBacktrace = tables.lockTreeBacktrace)
    (kept : ∀ id, tables.Registered id → result.Registered id) : LockOrder result := by
  have sameEdges : follows result = follows tables := by
    funext left right
    unfold follows
    rw [sameTree]
  refine ⟨?_, ?_, ?_⟩
  · apply order.acyclic.mono
    intro left right edge
    rwa [Tables.Follows, sameEdges] at edge
  · intro left right edge
    rw [Tables.Follows, sameEdges] at edge
    obtain ⟨leftKnown, rightKnown⟩ := order.registered left right edge
    exact ⟨kept left leftKnown, kept right rightKnown⟩
  · intro left right
    rw [sameTraces, sameEdges]
    exact order.traced left right

/-! ### `does_follow` decides reachability -/

theorem touchName_of_registered {tables : Tables} {id : Nat}
    (registered : tables.Registered id) : touchName tables id = tables := by
  obtain ⟨name, atId⟩ := Option.isSome_iff_exists.mp registered
  unfold touchName
  rw [atId]

def Tables.EdgesNamed (tables : Tables) : Prop :=
  ∀ left right, tables.Follows left right → tables.Registered left ∧ tables.Registered right

/-- What the log statements of `does_follow` may do: insert names, and nothing at all
while every identifier on an edge has one. -/
structure Logged (tables result : Tables) : Prop where
  only : ∃ names, result = { tables with idToName := names }
  quiet : tables.EdgesNamed → result = tables

section Logging

variable {tables result : Tables} {id left right : Nat}

theorem Logged.refl (tables : Tables) : Logged tables tables :=
  ⟨⟨tables.idToName, rfl⟩, fun _named => rfl⟩

theorem Logged.follows (logged : Logged tables result) : follows result = follows tables := by
  obtain ⟨names, same⟩ := logged.only
  rw [same]
  rfl

theorem Logged.currentMaxId (logged : Logged tables result) :
    result.currentMaxId = tables.currentMaxId := by
  obtain ⟨names, same⟩ := logged.only
  rw [same]

theorem touchName_only (tables : Tables) (id : Nat) :
    ∃ names, touchName tables id = { tables with idToName := names } := by
  rw [touchName]
  cases tables.idToName id with
  | some name => exact ⟨tables.idToName, rfl⟩
  | none => exact ⟨Function.update tables.idToName id (some []), rfl⟩

theorem Logged.touch (logged : Logged tables result)
    (onEdge : tables.EdgesNamed → tables.Registered id) :
    Logged tables (touchName result id) := by
  refine ⟨?_, ?_⟩
  · obtain ⟨names, same⟩ := logged.only
    obtain ⟨later, sameLater⟩ := touchName_only result id
    exact ⟨later, by rw [sameLater, same]⟩
  · intro named
    rw [logged.quiet named]
    exact touchName_of_registered (onEdge named)

theorem registered_of_path (named : tables.EdgesNamed)
    (path : TransGen tables.Follows left right) : tables.Registered right := by
  obtain ⟨before, _, last⟩ := TransGen.tail'_iff.mp path
  exact (named before right last).2

end Logging

/-- The loop finds a path through one of its candidates, if the recursive call decides
what comes after the first edge. -/
theorem followLoop_answers {tables : Tables}
    (recurse : Tables → Nat → Option (Tables × Bool)) (left right : Nat)
    (decides : ∀ current middle, Logged tables current → tables.Follows left middle →
      ∃ result answer, recurse current middle = some (result, answer) ∧
        Logged tables result ∧ (answer = true ↔ TransGen tables.Follows middle right))
    (candidates : List Nat) {current : Tables} (logged : Logged tables current) :
    ∃ result answer, followLoop recurse left right candidates current = some (result, answer) ∧
      Logged tables result ∧ (answer = true ↔ ∃ middle ∈ candidates,
        tables.Follows left middle ∧ TransGen tables.Follows middle right) := by
  induction candidates generalizing current with
  | nil => exact ⟨current, false, rfl, logged, by simp⟩
  | cons middle rest ih =>
      have sameEdge : follows current left middle = follows tables left middle := by
        rw [logged.follows]
      by_cases edge : tables.Follows left middle
      · obtain ⟨result, answer, run, after, iff⟩ := decides current middle logged edge
        rw [followLoop, sameEdge, if_pos edge, run]
        cases answer with
        | true =>
            have path := iff.mp rfl
            have traced : Logged tables
                (touchName (touchName (touchName result left) middle) right) :=
              ((after.touch fun named => (named left middle edge).1).touch
                fun named => (named left middle edge).2).touch
                  fun named => registered_of_path named path
            refine ⟨_, true, rfl, traced, ?_⟩
            exact ⟨fun _ => ⟨middle, List.mem_cons_self, edge, path⟩, fun _ => rfl⟩
        | false =>
            have noPath : ¬TransGen tables.Follows middle right := by
              intro path
              cases iff.mpr path
            obtain ⟨final, found, restRun, restLogged, restIff⟩ := ih after
            refine ⟨final, found, restRun, restLogged, ?_⟩
            rw [restIff, List.exists_mem_cons_iff]
            constructor
            · exact Or.inr
            · rintro (⟨_, path⟩ | later)
              · exact absurd path noPath
              · exact later
      · obtain ⟨final, found, restRun, restLogged, restIff⟩ := ih logged
        refine ⟨final, found, ?_, restLogged, ?_⟩
        · rw [followLoop, sameEdge, if_neg edge]
          exact restRun
        · rw [restIff, List.exists_mem_cons_iff]
          constructor
          · exact Or.inr
          · rintro (⟨impossible, _⟩ | later)
            · exact absurd impossible edge
            · exact later

private theorem path_iff {edge : Nat → Nat → Prop} {left right : Nat} :
    TransGen edge left right ↔
      edge left right ∨ ∃ middle, edge left middle ∧ TransGen edge middle right := by
  rw [TransGen.head'_iff]
  constructor
  · rintro ⟨middle, first, rest⟩
    rcases reflTransGen_iff_eq_or_transGen.mp rest with same | longer
    · exact Or.inl (same ▸ first)
    · exact Or.inr ⟨middle, first, longer⟩
  · rintro (direct | ⟨middle, first, rest⟩)
    · exact ⟨right, direct, .refl⟩
    · exact ⟨middle, first, rest.to_reflTransGen⟩

/-- With a depth above the number of descendants, `does_follow` returns the
answer. -/
theorem doesFollow_answers {tables : Tables} (acyclic : Acyclic tables.Follows)
    (inside : ∀ left right, tables.Follows left right → right < tables.currentMaxId)
    (depth left right : Nat) {current : Tables} (logged : Logged tables current)
    (enough : rank (Finset.range tables.currentMaxId) tables.Follows left < depth) :
    ∃ result answer, doesFollow depth current left right = some (result, answer) ∧
      Logged tables result ∧ (answer = true ↔ TransGen tables.Follows left right) := by
  induction depth generalizing left current with
  | zero => exact absurd enough (Nat.not_lt_zero _)
  | succ depth ih =>
      have sameEdge : follows current left right = follows tables left right := by
        rw [logged.follows]
      by_cases direct : tables.Follows left right
      · have traced : Logged tables (touchName (touchName current left) right) :=
          (logged.touch fun named => (named left right direct).1).touch
            fun named => (named left right direct).2
        refine ⟨_, true, ?_, traced, fun _ => .single direct, fun _ => rfl⟩
        rw [doesFollow, sameEdge, if_pos direct]
      · obtain ⟨result, answer, run, after, iff⟩ := followLoop_answers
          (fun tables middle => doesFollow depth tables middle right) left right
          (fun later middle loggedLater edge => by
            apply ih middle loggedLater
            have smaller := rank_lt_of_edge _ acyclic
              (Finset.mem_range.mpr (inside left middle edge)) edge
            omega)
          (List.range current.currentMaxId) logged
        refine ⟨result, answer, ?_, after, ?_⟩
        · rw [doesFollow, sameEdge, if_neg direct]
          exact run
        · rw [iff, path_iff]
          constructor
          · rintro ⟨middle, _, found⟩
            exact Or.inr ⟨middle, found⟩
          · rintro (impossible | ⟨middle, edge, path⟩)
            · exact absurd impossible direct
            · refine ⟨middle, ?_, edge, path⟩
              rw [List.mem_range, logged.currentMaxId]
              exact inside left middle edge

theorem doesFollow_decides {tables : Tables} (order : LockOrder tables)
    (below : ∀ id, tables.Registered id → id < tables.currentMaxId)
    (depth left right : Nat)
    (enough : rank (Finset.range tables.currentMaxId) tables.Follows left < depth) :
    ∃ answer, doesFollow depth tables left right = some (tables, answer) ∧
      (answer = true ↔ TransGen tables.Follows left right) := by
  obtain ⟨result, answer, run, logged, iff⟩ := doesFollow_answers order.acyclic
    (fun left right edge => below right (order.registered left right edge).2)
    depth left right (Logged.refl tables) enough
  rw [logged.quiet order.registered] at run
  exact ⟨answer, run, iff⟩

/-! ### A depth that suffices suffices for good -/

theorem followLoop_mono {recurse deeper : Tables → Nat → Option (Tables × Bool)}
    (deepens : ∀ tables middle outcome, recurse tables middle = some outcome →
      deeper tables middle = some outcome) (left right : Nat) (candidates : List Nat)
    {tables : Tables} {outcome : Tables × Bool}
    (run : followLoop recurse left right candidates tables = some outcome) :
    followLoop deeper left right candidates tables = some outcome := by
  induction candidates generalizing tables with
  | nil => exact run
  | cons middle rest ih =>
      rw [followLoop] at run ⊢
      by_cases edge : follows tables left middle = true
      · rw [if_pos edge] at run ⊢
        cases called : recurse tables middle with
        | none =>
            rw [called] at run
            cases run
        | some found =>
            rw [called] at run
            rw [deepens tables middle found called]
            obtain ⟨after, answer⟩ := found
            cases answer with
            | true => exact run
            | false => exact ih run
      · rw [if_neg edge] at run ⊢
        exact ih run

theorem doesFollow_mono {depth : Nat} {tables : Tables} {left right : Nat}
    {outcome : Tables × Bool} (run : doesFollow depth tables left right = some outcome) :
    doesFollow (depth + 1) tables left right = some outcome := by
  induction depth generalizing tables left outcome with
  | zero => cases run
  | succ depth ih =>
      rw [doesFollow] at run ⊢
      by_cases direct : follows tables left right = true
      · rw [if_pos direct] at run ⊢
        exact run
      · rw [if_neg direct] at run ⊢
        exact followLoop_mono (fun later middle found called => ih called) left right _ run

theorem doesFollow_of_le {depth larger : Nat} (le : depth ≤ larger) {tables : Tables}
    {left right : Nat} {outcome : Tables × Bool}
    (run : doesFollow depth tables left right = some outcome) :
    doesFollow larger tables left right = some outcome := by
  induction le with
  | refl => exact run
  | step _ ih => exact doesFollow_mono ih

/-- The recursion ends on every acyclic matrix, and answers reachability. It changes
nothing but names, and nothing at all while every identifier on an edge has a name. -/
theorem doesFollow_reachability {tables : Tables} (acyclic : Acyclic tables.Follows)
    (below : ∀ left right, tables.Follows left right →
      left < tables.currentMaxId ∧ right < tables.currentMaxId) (first second : Nat) :
    ∃ result answer,
      (∀ depth, tables.currentMaxId < depth →
        doesFollow depth tables first second = some (result, answer)) ∧
      (answer = true ↔ TransGen tables.Follows first second) ∧
      (∃ names, result = { tables with idToName := names }) ∧
      (tables.EdgesNamed → result = tables) := by
  have few : rank (Finset.range tables.currentMaxId) tables.Follows first ≤
      (Finset.range tables.currentMaxId).card := rank_le_card _ first
  rw [Finset.card_range] at few
  obtain ⟨result, answer, run, logged, iff⟩ := doesFollow_answers acyclic
    (fun left right edge => (below left right edge).2) (tables.currentMaxId + 1) first second
    (Logged.refl tables) (Nat.lt_succ_of_le few)
  refine ⟨result, answer, ?_, iff, logged.only, logged.quiet⟩
  intro depth enough
  exact doesFollow_of_le enough run

/-- A path over one intermediate lock, none of the three with a name. -/
theorem doesFollow_reachability_chain :
    ∃ tables : Tables, tables.Follows 0 1 ∧ tables.Follows 1 2 ∧
      ∃ result, doesFollow 4 tables 0 2 = some (result, true) := by
  let chain : Tables :=
    { Tables.initial with
      lockTree := fun left =>
        if left < 2 then setBit (fun _ => 0#8) (left + 1) else fun _ => 0#8
      currentMaxId := 3 }
  have edges (left right : Nat) : chain.Follows left right ↔ left < 2 ∧ right = left + 1 := by
    change testBit (if left < 2 then setBit (fun _ => 0#8) (left + 1) else fun _ => 0#8) right =
      true ↔ _
    by_cases small : left < 2 <;> simp [small]
  have forward {left right : Nat} (path : TransGen chain.Follows left right) : left < right := by
    induction path with
    | single edge =>
        have next := ((edges _ _).mp edge).2
        omega
    | tail _ edge ih =>
        have next := ((edges _ _).mp edge).2
        omega
  obtain ⟨result, answer, run, iff, _only, _quiet⟩ := doesFollow_reachability
    (fun start cycle => Nat.lt_irrefl start (forward cycle))
    (fun left right edge => by
      have next := (edges left right).mp edge
      change left < 3 ∧ right < 3
      omega) 0 2
  have one := (edges 0 1).mpr (by decide)
  have two := (edges 1 2).mpr (by decide)
  have found : answer = true := iff.mpr (TransGen.tail (.single one) two)
  exact ⟨chain, one, two, result, found ▸ run 4 (by decide)⟩

theorem doesFollow_followDepth {tables : Tables} (order : LockOrder tables)
    (below : ∀ id, tables.Registered id → id < tables.currentMaxId)
    (bounded : tables.currentMaxId ≤ maxLocks) (left right : Nat) :
    ∃ answer, doesFollow followDepth tables left right = some (tables, answer) ∧
      (answer = true ↔ TransGen tables.Follows left right) := by
  apply doesFollow_decides order below
  have few : rank (Finset.range tables.currentMaxId) tables.Follows left ≤
      (Finset.range tables.currentMaxId).card := rank_le_card _ left
  rw [Finset.card_range] at few
  unfold followDepth
  omega

/-! ### `lockdep_will_lock` -/

/-- The result of a completed `lockdep_will_lock`: the matrices gained exactly
the edges from the held identifiers, and no other table changed. -/
structure Extended (tables result : Tables) (id : Nat) (held : List Nat) : Prop where
  only : ∃ tree traces, result = { tables with lockTree := tree, lockTreeBacktrace := traces }
  order : LockOrder result
  edges : ∀ left right, result.Follows left right ↔
    tables.Follows left right ∨ (right = id ∧ left ∈ held)

theorem addDependency_follows {tables : Tables} {held id : Nat} (trace : BackTrace)
    (heldKnown : tables.Registered held) (idKnown : tables.Registered id) :
    ∃ tree traces, addDependency tables held id trace =
        { tables with lockTree := tree, lockTreeBacktrace := traces } ∧
      (∀ left right, testBit (tree left) right =
        (decide (left = held ∧ right = id) || follows tables left right)) ∧
      (∀ left right, traces left right =
        if left = held ∧ right = id then some trace
        else tables.lockTreeBacktrace left right) := by
  refine ⟨Function.update tables.lockTree held (setBit (tables.lockTree held) id), _, ?_, ?_,
    fun _ _ => rfl⟩
  · let raised : Tables :=
      { tables with
        lockTree := Function.update tables.lockTree held (setBit (tables.lockTree held) id)
        lockTreeBacktrace := fun left right =>
          if left = held ∧ right = id then some trace
          else tables.lockTreeBacktrace left right }
    have heldRaised : raised.Registered held := heldKnown
    have idRaised : raised.Registered id := idKnown
    change touchName (touchName raised held) id = raised
    rw [touchName_of_registered heldRaised, touchName_of_registered idRaised]
  · intro left right
    by_cases same : left = held
    · subst left
      rw [Function.update_self, testBit_setBit]
      simp [follows]
    · rw [Function.update_of_ne same]
      simp [same, follows]

theorem addDependency_extended {tables : Tables} (order : LockOrder tables)
    {held id : Nat} (trace : BackTrace) (heldKnown : tables.Registered held)
    (idKnown : tables.Registered id) (different : held ≠ id)
    (noPath : ¬TransGen tables.Follows id held) :
    Extended tables (addDependency tables held id trace) id [held] := by
  obtain ⟨tree, traces, same, bits, pointers⟩ :=
    addDependency_follows trace heldKnown idKnown
  rw [same]
  have edges (left right : Nat) :
      ({ tables with lockTree := tree, lockTreeBacktrace := traces } : Tables).Follows left right ↔
        tables.Follows left right ∨ (left = held ∧ right = id) := by
    change testBit (tree left) right = true ↔ _
    rw [bits, Bool.or_eq_true, decide_eq_true_eq, or_comm]
  refine ⟨⟨tree, traces, rfl⟩, ⟨?_, ?_, ?_⟩, ?_⟩
  · have grown : Acyclic (insertInto tables.Follows (fun left => left = held) id) :=
      order.acyclic.insertInto (fun left atHeld => atHeld ▸ different)
        (fun left atHeld => atHeld ▸ noPath)
    apply grown.mono
    intro left right edge
    exact (edges left right).mp edge
  · intro left right edge
    rcases (edges left right).mp edge with old | ⟨rfl, rfl⟩
    · exact order.registered left right old
    · exact ⟨heldKnown, idKnown⟩
  · intro left right
    change (traces left right).isSome = testBit (tree left) right
    rw [pointers, bits]
    by_cases new : left = held ∧ right = id
    · simp [new]
    · simp only [if_neg new, decide_eq_false new, Bool.false_or]
      exact order.traced left right
  · intro left right
    rw [edges]
    simp only [List.mem_singleton]
    exact or_congr Iff.rfl and_comm

theorem Extended.refl {tables : Tables} (order : LockOrder tables) (id : Nat) :
    Extended tables tables id [] :=
  ⟨⟨_, _, rfl⟩, order, by simp⟩

theorem Extended.trans {tables middle result : Tables} {id : Nat} {first second : List Nat}
    (early : Extended tables middle id first) (late : Extended middle result id second) :
    Extended tables result id (first ++ second) := by
  obtain ⟨tree, traces, rfl⟩ := early.only
  obtain ⟨laterTree, laterTraces, rfl⟩ := late.only
  refine ⟨⟨laterTree, laterTraces, rfl⟩, late.order, ?_⟩
  intro left right
  rw [late.edges, early.edges, List.mem_append, or_assoc, and_or_left]

theorem Extended.path_from_id {tables result : Tables} {id : Nat} {held : List Nat}
    (extended : Extended tables result id held) {target : Nat} (different : target ≠ id) :
    TransGen result.Follows id target ↔ TransGen tables.Follows id target := by
  constructor
  · intro path
    have grown : TransGen (insertInto tables.Follows (· ∈ held) id) id target := by
      refine TransGen.mono ?_ _ _ path
      intro left right edge
      exact ((extended.edges left right).mp edge).imp_right And.symm
    exact (path_insertInto grown).resolve_left different
  · intro path
    exact TransGen.mono (fun left right old => (extended.edges left right).mpr (Or.inl old))
      _ _ path

/-- A held identifier that forbids taking `id`. -/
def Conflicts (tables : Tables) (id held : Nat) : Prop :=
  held = id ∨ TransGen tables.Follows id held

theorem willLockLoop_decides (id : Nat) (trace : BackTrace) (live : Nat → Nat)
    (entries : List (Nat × BackTrace)) (tables : Tables) (registry : Registry tables live)
    (order : LockOrder tables) (idKnown : tables.Registered id)
    (heldKnown : ∀ held ∈ entries.map Prod.fst, tables.Registered held) :
    (willLockLoop id trace entries tables = .aborted ∧
        ∃ held ∈ entries.map Prod.fst, Conflicts tables id held) ∨
      (∃ result, willLockLoop id trace entries tables = .returned result id ∧
        Extended tables result id (entries.map Prod.fst) ∧
        ∀ held ∈ entries.map Prod.fst, ¬Conflicts tables id held) := by
  induction entries generalizing tables with
  | nil => exact Or.inr ⟨tables, rfl, .refl order id, by simp⟩
  | cons entry rest ih =>
      obtain ⟨held, since⟩ := entry
      have headKnown : tables.Registered held := heldKnown held (by simp)
      have restKnown : ∀ other ∈ rest.map Prod.fst, tables.Registered other := by
        intro other member
        exact heldKnown other (List.mem_cons_of_mem held member)
      by_cases same : held = id
      · left
        refine ⟨?_, held, by simp, Or.inl same⟩
        rw [willLockLoop, if_pos same]
      · -- Either way the rest runs on an extension by the head alone.
        have continueWith (middle : Tables) (step : Extended tables middle id [held])
            (noPath : ¬TransGen tables.Follows id held)
            (run : willLockLoop id trace ((held, since) :: rest) tables =
              willLockLoop id trace rest middle) :
            (willLockLoop id trace ((held, since) :: rest) tables = .aborted ∧
                ∃ other ∈ (held :: rest.map Prod.fst), Conflicts tables id other) ∨
              (∃ result, willLockLoop id trace ((held, since) :: rest) tables =
                  .returned result id ∧
                Extended tables result id (held :: rest.map Prod.fst) ∧
                ∀ other ∈ (held :: rest.map Prod.fst), ¬Conflicts tables id other) := by
          have clean : ¬Conflicts tables id held := fun conflict => conflict.elim same noPath
          have carry (other : Nat) : Conflicts middle id other ↔ Conflicts tables id other := by
            unfold Conflicts
            by_cases atId : other = id
            · simp [atId]
            · rw [step.path_from_id atId]
          obtain ⟨tree, traces, only⟩ := step.only
          have middleRegistry : Registry middle live := only ▸ registry.frame tree traces _
          have middleKnown (other : Nat) (known : tables.Registered other) :
              middle.Registered other := only ▸ known
          rw [run]
          rcases ih middle middleRegistry step.order (middleKnown id idKnown)
              (fun other member => middleKnown other (restKnown other member)) with
            ⟨stopped, other, member, conflict⟩ | ⟨result, finished, extended, noConflict⟩
          · exact Or.inl ⟨stopped, other, List.mem_cons_of_mem held member,
              (carry other).mp conflict⟩
          · refine Or.inr ⟨result, finished, step.trans extended, ?_⟩
            intro other member
            rcases List.mem_cons.mp member with atHead | later
            · exact atHead ▸ clean
            · exact fun conflict => noConflict other later ((carry other).mpr conflict)
        by_cases edge : tables.Follows held id
        · apply continueWith tables
          · refine ⟨⟨_, _, rfl⟩, order, ?_⟩
            intro left right
            constructor
            · exact Or.inl
            · rintro (old | ⟨rfl, member⟩)
              · exact old
              · exact (List.mem_singleton.mp member) ▸ edge
          · intro path
            exact order.acyclic id (path.tail edge)
          · rw [willLockLoop, if_neg same, if_pos edge]
        · obtain ⟨answer, followed, iff⟩ :=
            doesFollow_followDepth order registry.below registry.bounded id held
          cases answer with
          | true =>
              left
              refine ⟨?_, held, by simp, Or.inr (iff.mp rfl)⟩
              rw [willLockLoop, if_neg same, if_neg edge, followed]
          | false =>
              have noPath : ¬TransGen tables.Follows id held := by
                intro path
                cases iff.mpr path
              apply continueWith (addDependency tables held id trace)
              · exact addDependency_extended order trace headKnown idKnown same noPath
              · exact noPath
              · rw [willLockLoop, if_neg same, if_neg edge, followed]

/-! ### Registration and unregistration -/

theorem LockOrder.register {tables : Tables} {live : Nat → Nat} (order : LockOrder tables)
    (registry : Registry tables live) (name : Name) :
    LockOrder (lockdepRegisterHeld tables name).1 := by
  obtain ⟨tree, traces, _, kept⟩ := lockdepRegisterHeld_frame registry name
  apply order.transfer tree traces
  intro id registered
  obtain ⟨known, atId⟩ := Option.isSome_iff_exists.mp registered
  rw [Tables.Registered, kept id known atId]
  rfl

theorem lockdepUnregister_follows {tables : Tables} {live : Nat → Nat} {id : Nat}
    (registry : Registry tables live) (order : LockOrder tables) (present : live id ≠ 0)
    (left right : Nat) :
    (lockdepUnregister tables (some id)).Follows left right ↔
      tables.Follows left right ∧ (live id = 1 → left ≠ id ∧ right ≠ id) := by
  by_cases last : live id = 1
  · obtain ⟨name, tree, traces, _, cleared, same⟩ := lockdepUnregister_last registry last
    rw [same]
    change testBit (tree left) right = true ↔ _
    rw [cleared.bits]
    simp only [Bool.and_eq_true, Bool.not_eq_true', Bool.and_eq_false_iff,
      decide_eq_false_iff_not]
    constructor
    · rintro ⟨⟨edge, notLeft⟩, notRight⟩
      refine ⟨edge, fun _ => ⟨notLeft, ?_⟩⟩
      have leftBelow := registry.below left (order.registered left right edge).1
      exact notRight.resolve_right (fun outside => outside leftBelow)
    · rintro ⟨edge, apart⟩
      exact ⟨⟨edge, (apart last).1⟩, Or.inl (apart last).2⟩
  · have several : 1 < live id := by omega
    rw [lockdepUnregister_shared registry several]
    exact ⟨fun edge => ⟨edge, fun impossible => absurd impossible last⟩, And.left⟩

theorem lockdepUnregister_registered {tables : Tables} {live : Nat → Nat} {id other : Nat}
    (registry : Registry tables live) (present : live id ≠ 0)
    (known : tables.Registered other) (apart : live id = 1 → other ≠ id) :
    (lockdepUnregister tables (some id)).Registered other := by
  rw [(lockdepUnregister_registry registry present).named]
  have counted := (registry.named other).mp known
  unfold lose
  by_cases same : other = id
  · subst other
    have several : live id ≠ 1 := fun last => apart last rfl
    rw [Function.update_self]
    omega
  · rwa [Function.update_of_ne same]

theorem LockOrder.unregister {tables : Tables} {live : Nat → Nat} {id : Nat}
    (order : LockOrder tables) (registry : Registry tables live) (present : live id ≠ 0) :
    LockOrder (lockdepUnregister tables (some id)) := by
  have edges := lockdepUnregister_follows registry order present
  refine ⟨?_, ?_, ?_⟩
  · apply order.acyclic.mono
    intro left right edge
    exact ((edges left right).mp edge).1
  · intro left right edge
    obtain ⟨old, apart⟩ := (edges left right).mp edge
    obtain ⟨leftKnown, rightKnown⟩ := order.registered left right old
    exact ⟨lockdepUnregister_registered registry present leftKnown (fun last => (apart last).1),
      lockdepUnregister_registered registry present rightKnown (fun last => (apart last).2)⟩
  · intro left right
    by_cases last : live id = 1
    · obtain ⟨name, tree, traces, _, cleared, same⟩ := lockdepUnregister_last registry last
      have below : tables.Follows left right →
          left < tables.currentMaxId ∧ right < tables.currentMaxId := by
        intro edge
        obtain ⟨leftKnown, rightKnown⟩ := order.registered left right edge
        exact ⟨registry.below left leftKnown, registry.below right rightKnown⟩
      rw [same]
      change (traces left right).isSome = testBit (tree left) right
      rw [cleared.bits, cleared.pointers]
      have old := order.traced left right
      cases edge : follows tables left right with
      | false =>
          rw [edge] at old
          split
          · simp
          · simpa using old
      | true =>
          obtain ⟨leftBelow, rightBelow⟩ := below edge
          rw [edge] at old
          by_cases atLeft : left = id
          · simp [atLeft, rightBelow]
          · by_cases atRight : right = id
            · simp [atRight, leftBelow]
            · simp [atLeft, atRight, old]
    · have several : 1 < live id := by omega
      rw [lockdepUnregister_shared registry several]
      exact order.traced left right

end BlueThread.Lockdep
