/-
What `is_locked_by_me` tells about a `shared_mutex_debug`.

The class raises `locked_count` before it writes `locked_by`, and never clears
`locked_by`. Between the two writes of a new owner the fields describe the last
owner before it, so that thread is told that it still holds the lock. `BlueMutex`
writes the fields in the other order.
-/

import BlueThread.Locks.SharedBookkeeping

namespace BlueThread.Locks

open Lockdep Population

section Steps

variable {state next : State} {action : Action} {tid : Tid} {lock : Nat}

theorem stepLive_busy {pc : Pc} (actor : action.actor = some tid)
    (thread : state.threads[tid]? = some pc) (busy : pc ≠ .idle)
    (taken : stepLive state action = some next) :
    (∃ trace, action = .advance tid trace) ∨ action = .wake tid ∨ action = .deadlockError tid := by
  have uncalled (place : Nat) : state.callee? tid place = none := by
    rw [State.callee?, if_neg]
    intro idle
    rw [thread, Option.some.injEq] at idle
    exact busy idle
  cases action with
  | create kind name lockdep => cases actor
  | destroy place => cases actor
  | lock one place trace =>
      cases actor
      simp [stepLive, uncalled] at taken
  | tryLock one place =>
      cases actor
      simp [stepLive, uncalled] at taken
  | lockShared one place trace =>
      cases actor
      simp [stepLive, uncalled] at taken
  | unlock one place =>
      cases actor
      simp [stepLive, uncalled] at taken
  | unlockShared one place =>
      cases actor
      simp [stepLive, uncalled] at taken
  | wait one cond place =>
      cases actor
      simp [stepLive, uncalled] at taken
  | wake one =>
      cases actor
      exact Or.inr (Or.inl rfl)
  | deadlockError one =>
      cases actor
      exact Or.inr (Or.inr rfl)
  | advance one trace =>
      cases actor
      exact Or.inl ⟨trace, rfl⟩

theorem step_at_book {book : Book} {rest : List Book} {following : After}
    (actor : action.actor = some tid)
    (thread : state.threads[tid]? = some (.book lock book rest following))
    (taken : step state action = some next) :
    ∃ object, state.object? lock = some object ∧
      next = advanceBook state tid lock object book rest following := by
  unfold step at taken
  split_ifs at taken
  rcases stepLive_busy actor thread (by simp) taken with ⟨trace, rfl⟩ | rfl | rfl
  · obtain ⟨pc, atPc, advanced⟩ := Option.bind_eq_some_iff.mp taken
    rw [thread, Option.some.injEq] at atPc
    subst atPc
    obtain ⟨object, present, result⟩ := Option.bind_eq_some_iff.mp advanced
    rw [advance, Option.some.injEq] at result
    exact ⟨object, present, result.symm⟩
  · simp [stepLive, thread] at taken
  · simp [stepLive, thread] at taken

end Steps

/-- The thread has raised `locked_count` in `_post_lock` and has not written
`locked_by` yet. -/
def State.BetweenWrites (state : State) (tid : Tid) (lock : Nat) : Prop :=
  state.threads[tid]? = some (.book lock .setLockedBy [] .finish)

section Runs

variable {state later : State} {tid other : Tid} {lock : Nat} {object : LockObject}
  {counted : List Tid} {past : List Action}

theorem State.Tallied.betweenWrites (tallied : state.Tallied lock object counted)
    (between : state.BetweenWrites other lock) :
    object.owner = some other ∧ object.lockedCount = 1 := by
  cases tallied.threads other _ between with
  | outside place named balance =>
      obtain ⟨mode, same⟩ := place.waits_of_target rfl
      cases same
  | writer place owns counts names balance =>
      cases place
      exact ⟨owns, counts⟩
  | reader place holds balance => cases place

theorem State.Tallied.counted_owner (tallied : state.Tallied lock object counted)
    (positive : 0 < object.lockedCount) :
    ∃ other, object.owner = some other ∧
      (object.lockedBy = some other ∨ state.BetweenWrites other lock) := by
  cases owner : object.owner with
  | none =>
      rw [tallied.tally.vacant owner] at positive
      cases positive
  | some other =>
      refine ⟨other, rfl, ?_⟩
      obtain ⟨pc, thread⟩ : ∃ pc, state.threads[other]? = some pc :=
        ⟨_, List.getElem?_eq_getElem (tallied.present other owner)⟩
      cases tallied.threads other pc thread with
      | outside place named balance => exact Or.inl (named owner).2
      | writer place owns counts names balance =>
          rw [counts] at positive
          cases place with
          | names => exact Or.inr thread
          | begins => exact Or.inl (names rfl)
          | lowers => exact Or.inl (names rfl)
          | _ => cases positive
      | reader place holds balance =>
          rw [tallied.tally.unowned holds] at owner
          cases owner

theorem owner_stands {pc : Pc} (before : Runs.Reachable system Contract state)
    (thread : state.threads[other]? = some pc) (found : state.objects[lock]? = some object)
    (shared : object.kind = .sharedMutex) (checked : object.lockdep = true)
    (owns : object.owner = some other)
    (reached : Runs.Reachable (system.after state)
      (fun current action => Contract current action ∧ action.actor ≠ some other) later) :
    Runs.Reachable system Contract later ∧
      ∃ one, later.objects[lock]? = some one ∧ one.kind = .sharedMutex ∧ one.lockdep = true ∧
        one.owner = some other ∧ (one.live = true → one.lockedBy = object.lockedBy) := by
  induction reached with
  | start initial =>
      subst initial
      exact ⟨before, object, found, shared, checked, owns, fun _ => rfl⟩
  | @next current following action _ permitted taken ih =>
      obtain ⟨reachable, one, atOne, kind, lockdep, owner, named⟩ := ih
      refine ⟨.next action reachable permitted.1 taken, ?_⟩
      have touch := step_touch (contract_consistent reachable) taken
      obtain ⟨after, atAfter, same | gone | moves⟩ := touch.object_cases atOne
      · subst same
        exact ⟨after, atAfter, kind, lockdep, owner, named⟩
      · subst gone
        refine ⟨_, atAfter, kind, lockdep, owner, ?_⟩
        intro live
        cases live
      · obtain ⟨tid, old, pc, actor, atTid, moved⟩ := moves
        have apart : other ≠ tid := by
          intro same
          exact permitted.2 (same ▸ actor)
        refine ⟨after, atAfter, moved.kept.1.trans kind, moved.lockdep.trans lockdep,
          (moved.bystander apart).1.mpr owner, ?_⟩
        intro live
        have wasLive := moved.kept.2.symm.trans live
        have present := object?_eq_some.mpr ⟨atOne, wasLive⟩
        obtain ⟨counted, tallied⟩ :=
          reachable_sharedBooked reachable lock one atOne wasLive kind lockdep
        obtain ⟨_, recounted⟩ :=
          moved.recounted kind lockdep (tallied.threads tid old atTid) tallied.tally
            (permitted.1.owner present kind) (permitted.1.reader present)
        exact (recounted.fields other apart owner).2.trans (named wasLive)

/-- The thread between the two writes does nothing before it has replaced the name
of the last owner, and the last owner does not write its name again by itself. -/
theorem stands_or_replaced (before : Runs.Reachable system Contract state)
    (found : state.objects[lock]? = some object) (between : state.BetweenWrites other lock)
    (apart : other ≠ tid)
    (recorded : Runs.Recorded (system.after state)
      (fun current action => Contract current action ∧ action.actor ≠ some tid) past later) :
    Runs.Reachable system Contract later ∧
      ∃ one, later.objects[lock]? = some one ∧
        (((∀ action ∈ past, action.actor ≠ some other) ∧ later.BetweenWrites other lock) ∨
          one.lockedBy ≠ some tid) := by
  induction recorded with
  | start initial =>
      subst initial
      refine ⟨before, object, found, Or.inl ⟨?_, between⟩⟩
      intro action member
      cases member
  | @next past current following action _ permitted taken ih =>
      obtain ⟨reachable, one, atOne, stands⟩ := ih
      refine ⟨.next action reachable permitted.1 taken, ?_⟩
      have touch := step_touch (contract_consistent reachable) taken
      obtain ⟨after, atAfter, _, _, named⟩ := (touch.bystander permitted.2).2 lock one atOne
      refine ⟨after, atAfter, ?_⟩
      rcases stands with ⟨quiet, still⟩ | replaced
      · by_cases actor : action.actor = some other
        · right
          obtain ⟨owned, present, result⟩ := step_at_book actor still taken
          rw [result] at atAfter
          change (List.set _ lock { owned with lockedBy := some other })[lock]? = _ at atAfter
          rw [getElem?_set_found (object?_eq_some.mp present).1, Option.some.injEq] at atAfter
          rw [← atAfter]
          intro same
          exact apart (Option.some.inj same)
        · left
          refine ⟨?_, (touch.stands actor).trans still⟩
          intro act member
          rcases List.mem_cons.mp member with same | earlier
          · rw [same]
            exact actor
          · exact quiet act earlier
      · right
        intro mine
        exact replaced (named mine)

end Runs

/-! ### Two reads -/

/-- Other threads may act between the two reads; `past` has what they do. -/
theorem isLockedByMe_truthful_iff {state later : State} {tid : Tid} {lock : Nat}
    {object final : LockObject} {past : List Action}
    (reached : Runs.Reachable system Contract state)
    (present : state.object? lock = some object) (shared : object.kind = .sharedMutex)
    (checked : object.lockdep = true) (idle : state.threads[tid]? = some .idle)
    (others : Runs.Recorded (system.after state)
      (fun current action => Contract current action ∧ action.actor ≠ some tid) past later)
    (atFinal : later.object? lock = some final) :
    (isLockedByMe tid object final = true → final.owner = some tid) ↔
      ¬∃ other, state.BetweenWrites other lock ∧ object.lockedBy = some tid ∧
        ∀ action ∈ past, action.actor ≠ some other := by
  obtain ⟨found, live⟩ := object?_eq_some.mp present
  obtain ⟨finalFound, finalLive⟩ := object?_eq_some.mp atFinal
  obtain ⟨counted, tallied⟩ := reachable_sharedBooked reached lock object found live shared checked
  constructor
  · intro truthful window
    obtain ⟨other, between, named, quiet⟩ := window
    obtain ⟨owns, counts⟩ := tallied.betweenWrites between
    have standing := (others.restrict quiet).mono
      (fun _ _ permitted => And.intro permitted.1.1 permitted.2)
    obtain ⟨_, one, atOne, _, _, owner, kept⟩ :=
      owner_stands reached between found shared checked owns standing
    rw [finalFound, Option.some.injEq] at atOne
    subst atOne
    have answered : isLockedByMe tid object final = true := by
      simp [isLockedByMe, counts, kept finalLive, named]
    have mine := truthful answered
    rw [owner, Option.some.injEq] at mine
    subst mine
    rw [State.BetweenWrites, idle] at between
    cases between
  · intro closed answered
    rw [isLockedByMe, Bool.and_eq_true, decide_eq_true_eq, decide_eq_true_eq] at answered
    obtain ⟨positive, mine⟩ := answered
    obtain ⟨_, _, kept⟩ := bystander_run (fun _ _ contract => contract.destroysUnused) reached idle
      others.reachable
    obtain ⟨one, atOne, _, owner, named⟩ := kept lock object found
    rw [finalFound, Option.some.injEq] at atOne
    subst atOne
    obtain ⟨other, owns, theirs | between⟩ := tallied.counted_owner positive
    · have same := (named mine).symm.trans theirs
      exact owner.mpr (owns.trans same.symm)
    · have apart : other ≠ tid := by
        intro same
        subst same
        rw [State.BetweenWrites, idle] at between
        cases between
      obtain ⟨_, two, atTwo, ⟨quiet, _⟩ | replaced⟩ :=
        stands_or_replaced reached found between apart others
      · exact absurd ⟨other, between, named mine, quiet⟩ closed
      · rw [finalFound, Option.some.injEq] at atTwo
        exact absurd (atTwo ▸ mine) replaced

/-- A thread locks and unlocks; another one locks and writes its name between the
two reads of the first one. -/
theorem isLockedByMe_truthful_once_replaced :
    ∃ state later object final, Runs.Reachable system Contract state ∧
      state.object? 0 = some object ∧ state.BetweenWrites 1 0 ∧ object.lockedBy = some 0 ∧
      step state (.advance 1 ⟨0, []⟩) = some later ∧ later.object? 0 = some final ∧
      final.owner = some 1 ∧ isLockedByMe 0 object final = false := by
  obtain ⟨state, reached, passed⟩ := Runs.exists_of_replay Contract
    (show system.initial (State.initial 2) from ⟨2, rfl⟩)
    ([.create .sharedMutex [120] true] ++ lockRun 0 0 ++ unlockRun 0 0 ++
      [.lock 1 0 ⟨0, []⟩] ++ List.replicate 4 (.advance 1 ⟨0, []⟩))
    (fun state : State => decide (∃ object ∈ state.object? 0, object.kind = .sharedMutex ∧
      object.lockdep = true ∧ object.lockedBy = some 0 ∧
      state.threads = [Pc.idle, Pc.book 0 .setLockedBy [] .finish] ∧
      ∃ later ∈ step state (.advance 1 ⟨0, []⟩),
        ∃ final ∈ later.object? 0, final.owner = some 1)) (by decide +kernel)
  obtain ⟨object, present, shared, checked, named, threads, later, taken, final, atFinal, owner⟩ :=
    of_decide_eq_true passed
  have idle : state.threads[0]? = some .idle := by rw [threads]; rfl
  have between : state.BetweenWrites 1 0 := by rw [State.BetweenWrites, threads]; rfl
  have others : Runs.Recorded (system.after state) (fun current action =>
      Contract current action ∧ action.actor ≠ some 0) [.advance 1 ⟨0, []⟩] later :=
    .next _ (.start rfl) ⟨trivial, by decide⟩ taken
  have truthful := (isLockedByMe_truthful_iff reached present shared checked idle others
    atFinal).mpr (by
      intro window
      obtain ⟨other, unnamed, _, quiet⟩ := window
      rw [State.BetweenWrites, threads] at unnamed
      cases other with
      | zero => cases unnamed
      | succ other =>
          cases other with
          | zero => exact quiet _ List.mem_cons_self rfl
          | succ other => cases unnamed)
  refine ⟨state, later, object, final, reached, present, between, named, taken, atFinal, owner, ?_⟩
  rw [Bool.eq_false_iff]
  intro answered
  have mine := truthful answered
  rw [owner] at mine
  cases mine

/-- A thread locks and unlocks; another one locks and has raised the counter. The
first one is told that it holds the lock. -/
theorem isLockedByMe_former_owner :
    ¬∀ (state later : State) (tid : Tid) (lock : Nat) (object final : LockObject),
      Runs.Reachable system Contract state → state.object? lock = some object →
      object.kind = .sharedMutex → object.lockdep = true → state.threads[tid]? = some .idle →
      Runs.Reachable (system.after state)
        (fun current action => Contract current action ∧ action.actor ≠ some tid) later →
      later.object? lock = some final → isLockedByMe tid object final = true →
      final.owner = some tid := by
  intro truthful
  obtain ⟨state, reached, passed⟩ := Runs.exists_of_replay Contract
    (show system.initial (State.initial 2) from ⟨2, rfl⟩)
    ([.create .sharedMutex [120] true] ++ lockRun 0 0 ++ unlockRun 0 0 ++
      [.lock 1 0 ⟨0, []⟩] ++ List.replicate 4 (.advance 1 ⟨0, []⟩))
    (fun state : State => decide (∃ object ∈ state.object? 0, object.kind = .sharedMutex ∧
      object.lockdep = true ∧ state.threads[0]? = some Pc.idle ∧
      isLockedByMe 0 object object = true ∧ object.owner = some 1)) (by decide +kernel)
  obtain ⟨object, present, shared, checked, idle, answered, owner⟩ := of_decide_eq_true passed
  have mine := truthful state state 0 0 object object reached present shared checked idle
    (.start rfl) present answered
  rw [owner] at mine
  cases mine

end BlueThread.Locks
