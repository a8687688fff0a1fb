/-
What `lockdep_will_lock` decides, and that the order of its visits is immaterial.

The loop tests and inserts in turn, so a later test reads a matrix that earlier
rounds have extended. A completed loop is one update of the two matrices that
mentions the set of held identifiers only, and an abort depends on the matrix
before the call only; both are then the same for every order of the rounds.
-/

import BlueThread.Lockdep.Order

namespace BlueThread.Lockdep

open PackedBits Relation BlueThread.Digraph

/-- The tables after dependencies from all the held identifiers are recorded at
once. A dependency that was known keeps its backtrace. -/
def recordAll (tables : Tables) (id : Nat) (trace : BackTrace) (held : List Nat) : Tables :=
  { tables with
    lockTree := fun left =>
      if left ∈ held then setBit (tables.lockTree left) id else tables.lockTree left
    lockTreeBacktrace := fun left right =>
      if right = id ∧ left ∈ held ∧ follows tables left right = false then some trace
      else tables.lockTreeBacktrace left right }

section Records

variable {tables : Tables} {id : Nat} {trace : BackTrace}

theorem recordAll_nil : recordAll tables id trace [] = tables := by
  simp [recordAll]

theorem recordAll_congr {first second : List Nat} (same : ∀ held, held ∈ first ↔ held ∈ second) :
    recordAll tables id trace first = recordAll tables id trace second := by
  simp only [recordAll, same]

theorem follows_recordAll {held : List Nat} (left right : Nat) :
    follows (recordAll tables id trace held) left right =
      (decide (right = id ∧ left ∈ held) || follows tables left right) := by
  unfold follows recordAll
  by_cases member : left ∈ held
  · simp [member]
  · simp [member]

theorem recordAll_cons (held : Nat) (rest : List Nat) :
    recordAll (recordAll tables id trace [held]) id trace rest =
      recordAll tables id trace (held :: rest) := by
  have trees : (recordAll (recordAll tables id trace [held]) id trace rest).lockTree =
      (recordAll tables id trace (held :: rest)).lockTree := by
    funext left
    simp only [recordAll, List.mem_cons]
    by_cases atHead : left = held
    · have again : setBit (setBit (tables.lockTree held) id) id =
          setBit (tables.lockTree held) id := setBit_of_testBit (by simp)
      simp [atHead, again]
    · simp [atHead]
  have traces : (recordAll (recordAll tables id trace [held]) id trace rest).lockTreeBacktrace =
      (recordAll tables id trace (held :: rest)).lockTreeBacktrace := by
    funext left right
    change (if right = id ∧ left ∈ rest ∧ follows (recordAll tables id trace [held]) left right = false
        then some trace
        else if right = id ∧ left ∈ [held] ∧ follows tables left right = false then some trace
        else tables.lockTreeBacktrace left right) =
      if right = id ∧ left ∈ held :: rest ∧ follows tables left right = false then some trace
        else tables.lockTreeBacktrace left right
    rw [follows_recordAll]
    by_cases atId : right = id <;> by_cases atHead : left = held <;>
      by_cases later : left ∈ rest <;> simp [atId, atHead, later]
  unfold recordAll at trees traces ⊢
  simp only at trees traces
  rw [trees, traces]

theorem recordAll_known {held : Nat} (edge : tables.Follows held id) :
    recordAll tables id trace [held] = tables := by
  have trees : (recordAll tables id trace [held]).lockTree = tables.lockTree := by
    funext left
    simp only [recordAll, List.mem_singleton]
    split
    · rename_i same
      subst same
      exact setBit_of_testBit edge
    · rfl
  have traces : (recordAll tables id trace [held]).lockTreeBacktrace =
      tables.lockTreeBacktrace := by
    funext left right
    simp only [recordAll, List.mem_singleton]
    split
    · rename_i new
      obtain ⟨rfl, rfl, missing⟩ := new
      rw [Tables.Follows, missing] at edge
      cases edge
    · rfl
  unfold recordAll at trees traces ⊢
  simp only at trees traces
  rw [trees, traces]

theorem addDependency_eq_recordAll {held : Nat} (heldKnown : tables.Registered held)
    (idKnown : tables.Registered id) (missing : ¬tables.Follows held id) :
    addDependency tables held id trace = recordAll tables id trace [held] := by
  have trees : Function.update tables.lockTree held (setBit (tables.lockTree held) id) =
      (recordAll tables id trace [held]).lockTree := by
    funext left
    simp only [recordAll, List.mem_singleton]
    by_cases same : left = held
    · rw [same, Function.update_self, if_pos rfl]
    · rw [Function.update_of_ne same, if_neg same]
  have traces : (fun left right =>
        if left = held ∧ right = id then some trace else tables.lockTreeBacktrace left right) =
      (recordAll tables id trace [held]).lockTreeBacktrace := by
    funext left right
    simp only [recordAll, List.mem_singleton]
    by_cases new : left = held ∧ right = id
    · obtain ⟨rfl, rfl⟩ := new
      rw [if_pos ⟨rfl, rfl⟩, if_pos ⟨rfl, rfl, Bool.eq_false_iff.mpr missing⟩]
    · rw [if_neg new, if_neg fun both => new ⟨both.2.1, both.1⟩]
  have heldStill : (recordAll tables id trace [held]).Registered held := heldKnown
  have idStill : (recordAll tables id trace [held]).Registered id := idKnown
  unfold addDependency
  simp only [trees, traces]
  change touchName (touchName (recordAll tables id trace [held]) held) id = _
  rw [touchName_of_registered heldStill, touchName_of_registered idStill]

end Records

section Loop

variable {tables : Tables} {live : Nat → Nat} {id : Nat} {trace : BackTrace}
  {entries : List (Nat × BackTrace)}

theorem willLockLoop_recordAll {result : Tables} {final : Nat} (registry : Registry tables live)
    (order : LockOrder tables) (idKnown : tables.Registered id)
    (heldKnown : ∀ held ∈ entries.map Prod.fst, tables.Registered held)
    (returned : willLockLoop id trace entries tables = .returned result final) :
    result = recordAll tables id trace (entries.map Prod.fst) := by
  induction entries generalizing tables with
  | nil =>
      cases returned
      exact recordAll_nil.symm
  | cons entry rest ih =>
      obtain ⟨held, since⟩ := entry
      have headKnown : tables.Registered held := heldKnown held (by simp)
      have restKnown : ∀ other ∈ rest.map Prod.fst, tables.Registered other := by
        intro other member
        exact heldKnown other (List.mem_cons_of_mem held member)
      rw [willLockLoop] at returned
      split_ifs at returned with same edge
      · rw [ih registry order idKnown restKnown returned, List.map_cons, ← recordAll_cons,
          recordAll_known edge]
      · obtain ⟨answer, followed, iff⟩ :=
          doesFollow_followDepth order registry.below registry.bounded id held
        rw [followed] at returned
        cases answer with
        | true => cases returned
        | false =>
            have noPath : ¬TransGen tables.Follows id held := by
              intro path
              cases iff.mpr path
            have extended := addDependency_extended order trace headKnown idKnown same noPath
            obtain ⟨tree, traces, only⟩ := extended.only
            have known (other : Nat) (before : tables.Registered other) :
                (addDependency tables held id trace).Registered other := only ▸ before
            rw [ih (only ▸ registry.frame tree traces _) extended.order (known id idKnown)
                (fun other member => known other (restKnown other member)) returned,
              List.map_cons, ← recordAll_cons, addDependency_eq_recordAll headKnown idKnown edge]

theorem willLockLoop_perm {visited : List (Nat × BackTrace)} (registry : Registry tables live)
    (order : LockOrder tables) (idKnown : tables.Registered id)
    (heldKnown : ∀ held ∈ entries.map Prod.fst, tables.Registered held)
    (rearranged : visited.Perm entries) :
    willLockLoop id trace visited tables = willLockLoop id trace entries tables := by
  have sameKeys (held : Nat) : held ∈ visited.map Prod.fst ↔ held ∈ entries.map Prod.fst :=
    (rearranged.map Prod.fst).mem_iff
  have visitedKnown : ∀ held ∈ visited.map Prod.fst, tables.Registered held :=
    fun held member => heldKnown held ((sameKeys held).mp member)
  rcases willLockLoop_decides id trace live entries tables registry order idKnown heldKnown with
    ⟨stopped, held, member, conflict⟩ | ⟨result, finished, _, clean⟩
  · rcases willLockLoop_decides id trace live visited tables registry order idKnown
        visitedKnown with ⟨alsoStopped, _⟩ | ⟨_, _, _, alsoClean⟩
    · rw [stopped, alsoStopped]
    · exact absurd conflict (alsoClean held ((sameKeys held).mpr member))
  · rcases willLockLoop_decides id trace live visited tables registry order idKnown
        visitedKnown with ⟨_, held, member, conflict⟩ | ⟨other, alsoFinished, _⟩
    · exact absurd conflict (clean held ((sameKeys held).mp member))
    · rw [finished, alsoFinished,
        willLockLoop_recordAll registry order idKnown heldKnown finished,
        willLockLoop_recordAll registry order idKnown visitedKnown alsoFinished,
        recordAll_congr sameKeys]

end Loop

end BlueThread.Lockdep
