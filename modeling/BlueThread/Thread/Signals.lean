/-
Who handles signals.

`try_create` blocks all signals around `pthread_create`. So the creator handles none
while it is in there, and has its own mask again behind it, whether or not the thread
was created. The new thread inherits the full mask, and nothing in `entry_wrapper`
takes it back: whatever is sent to such a thread stays pending, unless its own code
opens the mask.
-/

import BlueThread.Thread.Process

namespace BlueThread.Thread.Process

open Population

variable {blockable : Mask} {state next : State} {action : Action}

/-- The mask that `try_create` has saved. -/
def Place.saved : Place → Option Mask
  | .blocked _ oldSigmask => some oldSigmask
  | .created _ oldSigmask _ => some oldSigmask
  | _ => none

/-! ### What a step does to masks -/

structure Profile where
  mask : Mask
  asked : Mask
  adjusted : Bool
  origin : Option Nat
  saved : Option Mask

def PThread.profile (thread : PThread) : Profile :=
  { mask := thread.mask
    asked := thread.asked
    adjusted := thread.adjusted
    origin := thread.origin
    saved := thread.place.saved }

def State.profiles (state : State) : List Profile := state.threads.map PThread.profile

inductive Change (blockable : Mask) (before : Profile) : Profile → Prop
  | keep : Change blockable before before
  | adjust (mask : Mask) (outside : before.saved = none) :
      Change blockable before
        { before with
          mask := restoreSignals blockable mask
          asked := restoreSignals blockable mask
          adjusted := true }
  | block (outside : before.saved = none) :
      Change blockable before
        { before with
          mask := blockAllSignals blockable before.mask
          saved := some before.mask }
  | restore (oldSigmask : Mask) (inside : before.saved = some oldSigmask) :
      Change blockable before
        { before with
          mask := restoreSignals blockable oldSigmask
          saved := none }

structure Source (blockable : Mask) (state next : State) : Prop where
  profiles : ∀ (tid : Nat) (after : Profile), next.profiles[tid]? = some after →
    (∃ before, state.profiles[tid]? = some before ∧ Change blockable before after) ∨
      ∃ creator ∈ state.profiles, ∃ object, creator.saved.isSome = true ∧
        after = (PThread.new 0 creator.mask (some object)).profile
  handled : ∀ entry ∈ next.handled, entry ∈ state.handled ∨
    (entry.1.profile ∈ state.profiles ∧ entry.1.mask entry.2 = false)

section Sources

variable {tid : Nat} {thread after : PThread}

theorem profiles_found (found : state.threads[tid]? = some thread) :
    state.profiles[tid]? = some thread.profile := by
  rw [State.profiles, List.getElem?_map, found]
  rfl

theorem Source.same (profiles : next.profiles = state.profiles)
    (handled : next.handled = state.handled) : Source blockable state next where
  profiles place one found := by
    rw [profiles] at found
    exact Or.inl ⟨one, found, .keep⟩
  handled entry member := by
    rw [handled] at member
    exact Or.inl member

theorem Source.set (found : state.threads[tid]? = some thread)
    (change : Change blockable thread.profile after.profile)
    (profiles : next.profiles = state.profiles.set tid after.profile)
    (handled : next.handled = state.handled) : Source blockable state next where
  profiles place one atPlace := by
    rw [profiles] at atPlace
    rcases getElem?_set_cases (profiles_found found) atPlace with ⟨rfl, rfl⟩ | ⟨_, before⟩
    · exact Or.inl ⟨thread.profile, profiles_found found, change⟩
    · exact Or.inl ⟨one, before, .keep⟩
  handled entry member := by
    rw [handled] at member
    exact Or.inl member

theorem saved_outside (outside : thread.place = .outside) : thread.profile.saved = none := by
  change thread.place.saved = none
  rw [outside]
  rfl

theorem setThread_profiles :
    (state.setThread tid after).profiles = state.profiles.set tid after.profile :=
  List.map_set

theorem Source.quiet (found : state.threads[tid]? = some thread)
    (profiles : next.profiles = (state.setThread tid after).profiles)
    (same : after.profile = thread.profile) (handled : next.handled = state.handled) :
    Source blockable state next := by
  apply Source.same _ handled
  rw [profiles, setThread_profiles, same]
  exact set_same (profiles_found found)

end Sources

theorem pthreadCreate_source {tid threadId object : Nat} {result : Int} {thread : PThread}
    {oldSigmask : Mask} (found : state.threads[tid]? = some thread)
    (place : thread.place = .blocked object oldSigmask) :
    Source blockable state
      (state.pthreadCreate tid threadId result thread object oldSigmask) := by
  have same : PThread.profile { thread with place := .created object oldSigmask result } =
      thread.profile := by
    unfold PThread.profile
    rw [place]
    rfl
  unfold State.pthreadCreate
  dsimp only
  split
  · have kept : Source blockable state
        (state.setThread tid { thread with place := .created object oldSigmask result }) :=
      .quiet found rfl same rfl
    refine ⟨?_, kept.handled⟩
    intro one after atOne
    change (List.map PThread.profile ((state.threads.set tid _) ++ [_]))[one]? = some after
      at atOne
    rw [List.map_append] at atOne
    rcases getElem?_append_cases atOne with old | ⟨_, rfl⟩
    · exact kept.profiles one after old
    · right
      refine ⟨thread.profile, List.mem_of_getElem? (profiles_found found), object, ?_, rfl⟩
      change thread.place.saved.isSome = true
      rw [place]
      rfl
  · exact .quiet found rfl same rfl

theorem pthreadKill_source {tid object threadId signal : Nat} {thread : PThread}
    (found : state.threads[tid]? = some thread)
    (place : thread.place = .killing object threadId signal) :
    Source blockable state (state.pthreadKill tid thread object threadId signal) := by
  have same : PThread.profile { thread with place := .outside } = thread.profile := by
    unfold PThread.profile
    rw [place]
    rfl
  unfold State.pthreadKill
  dsimp only
  split
  · exact .quiet found (map_modify_same _ _ fun _ => rfl) same rfl
  · exact .quiet found rfl same rfl

theorem pthreadJoin_source {tid object threadId : Nat} {thread : PThread}
    (found : state.threads[tid]? = some thread) (place : thread.place = .joining object threadId)
    (taken : state.pthreadJoin tid thread object threadId = some next) :
    Source blockable state next := by
  have same : PThread.profile { thread with place := .joined object } = thread.profile := by
    unfold PThread.profile
    rw [place]
    rfl
  unfold State.pthreadJoin at taken
  split at taken
  · split at taken
    · rename_i other target atOther
      split_ifs at taken
      · cases taken
        exact .same rfl rfl
      · cases taken
        exact .quiet found (map_modify_same _ _ fun _ => rfl) same rfl
    · cases taken
  · cases taken
    exact .same rfl rfl

theorem step_source (taken : step blockable state action = some next) :
    Source blockable state next := by
  rw [step, Option.ite_none_left_eq_some] at taken
  have done := taken.2
  cases action with
  | sigmask tid mask =>
      obtain ⟨thread, called, rfl⟩ := Option.map_eq_some_iff.mp done
      obtain ⟨found, _, outside⟩ := caller?_eq_some called
      refine .set found ?_ setThread_profiles rfl
      exact .adjust mask (saved_outside outside)
  | create tid object name =>
      obtain ⟨thread, called, created⟩ := Option.bind_eq_some_iff.mp done
      obtain ⟨base, _, rfl⟩ := Option.map_eq_some_iff.mp created
      obtain ⟨found, _, outside⟩ := caller?_eq_some called
      split
      · refine .set found ?_ setThread_profiles rfl
        exact .block (saved_outside outside)
      · exact .same rfl rfl
  | pthreadCreate tid threadId result =>
      obtain ⟨thread, found, created⟩ := Option.bind_eq_some_iff.mp done
      split at created
      · rename_i object oldSigmask place
        cases created
        exact pthreadCreate_source found place
      · cases created
  | restore tid =>
      obtain ⟨thread, found, restored⟩ := Option.bind_eq_some_iff.mp done
      split at restored
      · rename_i object oldSigmask result place
        cases restored
        have inside : thread.profile.saved = some oldSigmask := by
          change thread.place.saved = _
          rw [place]
          rfl
        refine .set found ?_ setThread_profiles rfl
        have behind : (if result = 0 then Place.outside else Place.failed object).saved = none := by
          split <;> rfl
        have change : Change blockable thread.profile _ := .restore oldSigmask inside
        rw [← behind] at change
        exact change
      · cases restored
  | kill tid object signal =>
      obtain ⟨thread, called, killed⟩ := Option.bind_eq_some_iff.mp done
      obtain ⟨base, _, rfl⟩ := Option.map_eq_some_iff.mp killed
      obtain ⟨found, _, outside⟩ := caller?_eq_some called
      split
      · refine .quiet found rfl ?_ rfl
        unfold PThread.profile
        rw [outside]
        rfl
      · exact .same rfl rfl
  | pthreadKill tid =>
      obtain ⟨thread, found, killed⟩ := Option.bind_eq_some_iff.mp done
      split at killed
      · rename_i object threadId signal place
        cases killed
        exact pthreadKill_source found place
      · cases killed
  | join tid object =>
      obtain ⟨thread, called, joined⟩ := Option.bind_eq_some_iff.mp done
      obtain ⟨base, _, rfl⟩ := Option.map_eq_some_iff.mp joined
      obtain ⟨found, _, outside⟩ := caller?_eq_some called
      split
      · refine .quiet found rfl ?_ rfl
        unfold PThread.profile
        rw [outside]
        rfl
      · exact .same rfl rfl
  | pthreadJoin tid =>
      obtain ⟨thread, found, joined⟩ := Option.bind_eq_some_iff.mp done
      split at joined
      · rename_i object threadId place
        exact pthreadJoin_source found place joined
      · cases joined
  | clearThreadId tid =>
      obtain ⟨thread, found, cleared⟩ := Option.bind_eq_some_iff.mp done
      split at cleared
      · rename_i object place
        cases cleared
        refine .quiet found rfl ?_ rfl
        unfold PThread.profile
        rw [place]
        rfl
      · cases cleared
  | detach tid object =>
      obtain ⟨thread, _, detached⟩ := Option.bind_eq_some_iff.mp done
      obtain ⟨base, _, rfl⟩ := Option.map_eq_some_iff.mp detached
      split
      · exact .same (map_modify_same _ _ fun _ => rfl) rfl
      · exact .same rfl rfl
  | signal tid signal =>
      obtain ⟨thread, found, rfl⟩ := Option.map_eq_some_iff.mp done
      exact .quiet found rfl rfl rfl
  | handle tid signal =>
      obtain ⟨thread, found, handled⟩ := Option.bind_eq_some_iff.mp done
      split_ifs at handled with allowed
      cases handled
      have kept : Source blockable state
          (state.setThread tid { thread with pending := thread.pending.erase signal }) :=
        .quiet found rfl rfl rfl
      refine ⟨kept.profiles, ?_⟩
      intro entry member
      rcases List.mem_cons.mp member with rfl | older
      · exact Or.inr ⟨List.mem_of_getElem? (profiles_found found), allowed.2.2⟩
      · exact Or.inl older
  | finish tid =>
      obtain ⟨thread, called, rfl⟩ := Option.map_eq_some_iff.mp done
      obtain ⟨found, _, outside⟩ := caller?_eq_some called
      exact .quiet found rfl rfl rfl

/-! ### The invariant -/

/-- Outside `try_create` a thread has the mask that it asked for, and inside the full
one. A thread that was created by an object asks for the full mask as long as its code
does not set another. -/
structure Profile.Steady (blockable : Mask) (profile : Profile) : Prop where
  within : ∀ signal, profile.asked signal = true → blockable signal = true
  outside : profile.saved = none → profile.mask = profile.asked
  inside : ∀ oldSigmask, profile.saved = some oldSigmask →
    oldSigmask = profile.asked ∧ profile.mask = blockable
  inherited : profile.origin ≠ none → profile.adjusted = false → profile.asked = blockable

section Masks

variable {mask : Mask}

theorem blockAllSignals_within (within : ∀ signal, mask signal = true → blockable signal = true) :
    blockAllSignals blockable mask = blockable := by
  funext signal
  rw [blockAllSignals]
  cases blocked : mask signal with
  | true =>
      rw [within signal blocked]
      rfl
  | false => rfl

theorem restoreSignals_within (within : ∀ signal, mask signal = true → blockable signal = true) :
    restoreSignals blockable mask = mask := by
  funext signal
  rw [restoreSignals]
  cases blocked : mask signal with
  | true =>
      rw [within signal blocked]
      rfl
  | false => rfl

theorem within_restoreSignals (signal : Nat)
    (blocked : restoreSignals blockable mask signal = true) : blockable signal = true :=
  (Bool.and_eq_true_iff.mp blocked).2

end Masks

theorem Change.steady {before after : Profile} (change : Change blockable before after)
    (steady : before.Steady blockable) : after.Steady blockable := by
  cases change with
  | keep => exact steady
  | adjust mask outside =>
      refine ⟨fun signal => within_restoreSignals signal, fun _ => rfl, ?_, ?_⟩
      · intro oldSigmask inside
        cases outside.symm.trans inside
      · intro _ impossible
        cases impossible
  | block outside =>
      have same := steady.outside outside
      refine ⟨steady.within, ?_, ?_, steady.inherited⟩
      · intro impossible
        cases impossible
      · intro oldSigmask inside
        cases inside
        refine ⟨same, blockAllSignals_within ?_⟩
        rw [same]
        exact steady.within
  | restore oldSigmask inside =>
      obtain ⟨rfl, _⟩ := steady.inside oldSigmask inside
      refine ⟨steady.within, ?_, ?_, steady.inherited⟩
      · intro _
        exact restoreSignals_within steady.within
      · intro other impossible
        cases impossible

theorem Profile.Steady.inherit {creator : Profile} (steady : creator.Steady blockable)
    (inside : creator.saved.isSome = true) (self object : Nat) :
    (PThread.new self creator.mask (some object)).profile.Steady blockable := by
  obtain ⟨oldSigmask, saved⟩ := Option.isSome_iff_exists.mp inside
  have full := (steady.inside oldSigmask saved).2
  refine ⟨?_, fun _ => rfl, ?_, fun _ _ => full⟩
  · intro signal blocked
    rw [← full]
    exact blocked
  · intro other impossible
    cases impossible

structure State.Steady (blockable : Mask) (state : State) : Prop where
  threads : ∀ profile ∈ state.profiles, profile.Steady blockable
  handled : ∀ entry ∈ state.handled, entry.1.profile.Steady blockable ∧
    entry.1.mask entry.2 = false

theorem Source.steady (source : Source blockable state next)
    (steady : state.Steady blockable) : next.Steady blockable := by
  refine ⟨?_, ?_⟩
  · intro profile member
    obtain ⟨tid, found⟩ := List.mem_iff_getElem?.mp member
    rcases source.profiles tid profile found with ⟨before, atBefore, change⟩ |
      ⟨creator, present, object, inside, rfl⟩
    · exact change.steady (steady.threads before (List.mem_of_getElem? atBefore))
    · exact (steady.threads creator present).inherit inside 0 object
  · intro entry member
    rcases source.handled entry member with older | ⟨present, unblocked⟩
    · exact steady.handled entry older
    · exact ⟨steady.threads _ present, unblocked⟩

theorem reachable_steady {discipline : State → Action → Prop}
    (reached : Runs.Reachable (processes blockable) discipline state) :
    state.Steady blockable := by
  apply reached.invariant
  · rintro current ⟨threads, _, _, _, handled, _, _⟩
    refine ⟨?_, ?_⟩
    · intro profile member
      obtain ⟨thread, present, rfl⟩ := List.mem_map.mp member
      obtain ⟨self, mask, rfl, _, within⟩ := threads thread present
      refine ⟨within, fun _ => rfl, ?_, ?_⟩
      · intro oldSigmask impossible
        cases impossible
      · intro impossible
        exact absurd rfl impossible
    · intro entry member
      rw [handled] at member
      cases member
  · intro current action following _ steady _ taken
    exact (step_source taken).steady steady

/-- The signals of the system, less `SIGKILL` and `SIGSTOP`. -/
def posixBlockable (signal : Nat) : Bool := signal ≠ 9 && signal ≠ 19

end BlueThread.Thread.Process
