/-
Names and identifiers of live registrations.

`_lockdep_register` looks a name up by its C string and stores it whole. Where the
two differ, the name has a NUL byte, and the lookup finds another lock or misses the
same one. Without that the two maps are inverse to each other, and both hold exactly
the live registrations.
-/

import BlueThread.Foundation.Runs
import BlueThread.Lockdep.Names

namespace BlueThread.Lockdep

/-- The tables, and the registrations that are not undone yet. -/
structure Registrations where
  tables : Tables
  live : List (Name × Nat)

inductive RegistryCall
  | register (name : Name)
  | unregister (name : Name) (id : Nat)
deriving DecidableEq

namespace Registrations

def register (state : Registrations) (name : Name) : Option Registrations :=
  match lockdepRegister state.tables name with
  | .returned tables id => some { tables := tables, live := (name, id) :: state.live }
  | .threw tables => some { state with tables := tables }
  | .aborted | .diverged => none

def unregister (state : Registrations) (name : Name) (id : Nat) : Option Registrations :=
  if (name, id) ∈ state.live then
    some
      { tables := lockdepUnregister state.tables (some id)
        live := state.live.erase (name, id) }
  else none

def step (state : Registrations) : RegistryCall → Option Registrations
  | .register name => state.register name
  | .unregister name id => state.unregister name id

/-- How many live registrations have an identifier. -/
def count (state : Registrations) (id : Nat) : Nat := (state.live.map Prod.snd).count id

/-- A name that the lookup and the insertion treat alike: it has no NUL, or neither it
nor its part before the first NUL is registered. -/
def Clear (state : Registrations) (name : Name) : Prop :=
  0 ∉ name ∨ ∀ registration ∈ state.live,
    registration.1 ≠ name ∧ registration.1 ≠ cStr name

end Registrations

def registrations : Runs.System Registrations RegistryCall where
  initial state := state = { tables := Tables.initial, live := [] }
  step := Registrations.step

def ClearNames (state : Registrations) : RegistryCall → Prop
  | .register name => state.Clear name
  | .unregister _ _ => True

/-- Identifiers stand for names. -/
structure Identified (state : Registrations) : Prop where
  distinct : ∀ first ∈ state.live, ∀ second ∈ state.live,
    first.2 = second.2 ↔ first.1 = second.1
  nameToId : ∀ name id, state.tables.nameToId name = some id ↔ (name, id) ∈ state.live
  idToName : ∀ name id, state.tables.idToName id = some name ↔ (name, id) ∈ state.live

section Maps

variable {state : Registrations} {name : Name} {id : Nat}

theorem Identified.of_maps
    (nameToId : ∀ name id, state.tables.nameToId name = some id ↔ (name, id) ∈ state.live)
    (idToName : ∀ name id, state.tables.idToName id = some name ↔ (name, id) ∈ state.live) :
    Identified state := by
  refine ⟨?_, nameToId, idToName⟩
  intro first firstLive second secondLive
  constructor
  · intro sameId
    have one := (idToName first.1 first.2).mpr firstLive
    have two := (idToName second.1 second.2).mpr secondLive
    rw [sameId, two, Option.some.injEq] at one
    exact one.symm
  · intro sameName
    have one := (nameToId first.1 first.2).mpr firstLive
    have two := (nameToId second.1 second.2).mpr secondLive
    rw [sameName, two, Option.some.injEq] at one
    exact one.symm

end Maps

/-! ### Registering -/

section Registering

variable {state : Registrations} {tables : Tables} {name : Name} {id : Nat}

theorem lockdepRegister_returned (done : lockdepRegister state.tables name = .returned tables id) :
    lockdepRegisterHeld state.tables name = (tables, some id) := by
  rw [lockdepRegister] at done
  generalize lockdepRegisterHeld state.tables name = outcome at done ⊢
  obtain ⟨found, known⟩ := outcome
  cases known with
  | none => cases done
  | some known =>
      cases done
      rfl

theorem register_threw (registry : Registry state.tables state.count)
    (identified : Identified state) (failed : lockdepRegister state.tables name = .threw tables) :
    Registry tables state.count ∧ Identified { state with tables := tables } := by
  have held : lockdepRegisterHeld state.tables name = (tables, none) := by
    rw [lockdepRegister] at failed
    generalize lockdepRegisterHeld state.tables name = outcome at failed ⊢
    obtain ⟨found, known⟩ := outcome
    cases known with
    | none =>
        cases failed
        rfl
    | some known => cases failed
  refine ⟨lockdepRegisterHeld_failed registry held, ?_⟩
  cases lockdepRegisterHeld_maps registry held with
  | inl unchanged =>
      obtain ⟨idToName, nameToId, _known⟩ := unchanged
      apply Identified.of_maps
      · intro other target
        change tables.nameToId other = some target ↔ _
        rw [nameToId]
        exact identified.nameToId other target
      · intro other target
        change tables.idToName target = some other ↔ _
        rw [idToName]
        exact identified.idToName other target
  | inr fresh =>
      obtain ⟨new, impossible, _rest⟩ := fresh
      cases impossible

theorem count_cons (state : Registrations) (tables : Tables) (name : Name) (id : Nat) :
    Registrations.count { tables := tables, live := (name, id) :: state.live } =
      gain state.count id := by
  funext other
  change List.count other (id :: state.live.map Prod.snd) = _
  rw [List.count_cons, gain]
  by_cases same : other = id
  · subst same
    rw [Function.update_self, beq_self_eq_true, if_pos rfl]
    rfl
  · rw [Function.update_of_ne same, if_neg]
    · rfl
    · rw [beq_iff_eq]
      exact fun equal => same equal.symm

theorem Identified.join (identified : Identified state)
    (known : state.tables.nameToId name = some id)
    (nameToId : tables.nameToId = state.tables.nameToId)
    (idToName : tables.idToName = state.tables.idToName) :
    Identified { tables := tables, live := (name, id) :: state.live } := by
  have present := (identified.nameToId name id).mp known
  have same (registration : Name × Nat) :
      registration ∈ (name, id) :: state.live ↔ registration ∈ state.live := by
    rw [List.mem_cons]
    constructor
    · intro member
      cases member with
      | inl new => exact new ▸ present
      | inr old => exact old
    · exact Or.inr
  apply Identified.of_maps
  · intro other target
    rw [same, nameToId]
    exact identified.nameToId other target
  · intro other target
    rw [same, idToName]
    exact identified.idToName other target

theorem Identified.enter (identified : Identified state)
    (unknown : state.tables.nameToId name = none) (vacant : state.tables.idToName id = none)
    (nameToId : tables.nameToId = Function.update state.tables.nameToId name (some id))
    (idToName : tables.idToName = Function.update state.tables.idToName id (some name)) :
    Identified { tables := tables, live := (name, id) :: state.live } := by
  apply Identified.of_maps
  · intro other target
    change tables.nameToId other = some target ↔ _
    rw [nameToId, List.mem_cons, Prod.mk.injEq]
    by_cases same : other = name
    · subst same
      rw [Function.update_self, Option.some.injEq, ← identified.nameToId, unknown]
      simp only [true_and, reduceCtorEq, or_false, eq_comm]
    · rw [Function.update_of_ne same, identified.nameToId]
      simp only [same, false_and, false_or]
  · intro other target
    change tables.idToName target = some other ↔ _
    rw [idToName, List.mem_cons, Prod.mk.injEq]
    by_cases same : target = id
    · subst same
      rw [Function.update_self, Option.some.injEq, ← identified.idToName, vacant]
      simp only [and_true, reduceCtorEq, or_false, eq_comm]
    · rw [Function.update_of_ne same, identified.idToName]
      simp only [same, and_false, false_or]

theorem cStr_ne_of_nul (nul : 0 ∈ name) : cStr name ≠ name := by
  intro same
  rw [cStr, List.takeWhile_eq_self_iff] at same
  have passed := same 0 nul
  rw [decide_eq_true_eq] at passed
  exact passed rfl

theorem clear_of_identified (registry : Registry state.tables state.count)
    (identified : Identified state)
    (done : lockdepRegister state.tables name = .returned tables id)
    (after : Identified { tables := tables, live := (name, id) :: state.live }) :
    state.Clear name := by
  by_cases clean : 0 ∉ name
  · exact Or.inl clean
  · right
    have nul := cStr_ne_of_nul (not_not.mp clean)
    cases lockdepRegisterHeld_maps registry (lockdepRegister_returned done) with
    | inl found =>
        -- the name shares the identifier of its C string
        obtain ⟨_idToName, _nameToId, known⟩ := found
        have shared := (identified.nameToId (cStr name) id).mp (known id rfl)
        have same := (after.distinct _ (List.mem_cons_of_mem _ shared) _
          List.mem_cons_self).mp rfl
        exact absurd same nul
    | inr fresh =>
        obtain ⟨new, same, missed, vacant, _idToName, _nameToId⟩ := fresh
        cases same
        intro registration present
        constructor
        · intro again
          -- the same name has a second identifier
          have older := (after.distinct _ (List.mem_cons_of_mem _ present) _
            List.mem_cons_self).mpr again
          have stored := (identified.idToName registration.1 registration.2).mpr present
          rw [older, vacant] at stored
          cases stored
        · intro again
          have stored := (identified.nameToId registration.1 registration.2).mpr present
          rw [again, missed] at stored
          cases stored

theorem identified_of_clear (registry : Registry state.tables state.count)
    (identified : Identified state)
    (done : lockdepRegister state.tables name = .returned tables id) (clear : state.Clear name) :
    Identified { tables := tables, live := (name, id) :: state.live } := by
  cases lockdepRegisterHeld_maps registry (lockdepRegister_returned done) with
  | inl found =>
      obtain ⟨idToName, nameToId, known⟩ := found
      have lookup := known id rfl
      -- the C string is registered, so the name is a C string itself
      have clean : 0 ∉ name := by
        cases clear with
        | inl clean => exact clean
        | inr absent =>
            have present := (identified.nameToId (cStr name) id).mp lookup
            exact absurd rfl (absent _ present).2
      rw [cStr_of_noNul clean] at lookup
      exact identified.join lookup nameToId idToName
  | inr fresh =>
      obtain ⟨new, same, missed, vacant, idToName, nameToId⟩ := fresh
      cases same
      refine identified.enter ?_ vacant nameToId idToName
      cases clear with
      | inl clean =>
          rw [← cStr_of_noNul clean]
          exact missed
      | inr absent =>
          cases stored : state.tables.nameToId name with
          | none => rfl
          | some other =>
              have present := (identified.nameToId name other).mp stored
              exact absurd rfl (absent _ present).1

theorem register_identified_iff (registry : Registry state.tables state.count)
    (identified : Identified state)
    (done : lockdepRegister state.tables name = .returned tables id) :
    Identified { tables := tables, live := (name, id) :: state.live } ↔ state.Clear name :=
  ⟨clear_of_identified registry identified done, identified_of_clear registry identified done⟩

end Registering

/-! ### Unregistering -/

section Unregistering

variable {state : Registrations} {name : Name} {id : Nat}

theorem count_pos (present : (name, id) ∈ state.live) : state.count id ≠ 0 := by
  have member : id ∈ state.live.map Prod.snd := List.mem_map.mpr ⟨(name, id), present, rfl⟩
  exact (List.count_pos_iff.mpr member).ne'

theorem count_erase (present : (name, id) ∈ state.live) (tables : Tables) :
    Registrations.count { tables := tables, live := state.live.erase (name, id) } =
      lose state.count id := by
  funext other
  have permuted := (List.perm_cons_erase present).map Prod.snd
  have counts := permuted.count_eq other
  rw [List.map_cons, List.count_cons] at counts
  change List.count other ((state.live.erase (name, id)).map Prod.snd) = _
  rw [lose]
  by_cases same : other = id
  · subst same
    rw [Function.update_self]
    rw [beq_self_eq_true, if_pos rfl] at counts
    change _ = List.count other (state.live.map Prod.snd) - 1
    omega
  · rw [Function.update_of_ne same]
    rw [if_neg (by rw [beq_iff_eq]; exact fun equal => same equal.symm)] at counts
    exact counts.symm

/-- Which registrations are left: the others, and the same one while it has been made
several times. -/
theorem mem_erase_iff (identified : Identified state) (present : (name, id) ∈ state.live)
    (other : Name) (target : Nat) :
    (other, target) ∈ state.live.erase (name, id) ↔
      (other, target) ∈ state.live ∧ ¬ (state.count id = 1 ∧ target = id) := by
  have counts := congrFun (count_erase present state.tables) id
  rw [lose, Function.update_self] at counts
  constructor
  · intro left
    refine ⟨List.mem_of_mem_erase left, ?_⟩
    intro last
    rw [last.2] at left
    have some : Registrations.count
        { tables := state.tables, live := state.live.erase (name, id) } id ≠ 0 :=
      count_pos left
    rw [counts, last.1] at some
    exact some rfl
  · intro stays
    by_cases same : target = id
    · have several : state.count id ≠ 1 := fun last => stays.2 ⟨last, same⟩
      have before := count_pos present
      have again : 0 < ((state.live.erase (name, id)).map Prod.snd).count id := by
        change 0 < Registrations.count { state with live := state.live.erase (name, id) } id
        omega
      obtain ⟨registration, left, sameId⟩ := List.mem_map.mp (List.count_pos_iff.mp again)
      -- one identifier, one name: what is left is the same registration
      have sameName := (identified.distinct registration (List.mem_of_mem_erase left)
        (other, target) stays.1).mp (sameId.trans same.symm)
      have equal : registration = (other, target) := Prod.ext sameName (sameId.trans same.symm)
      exact equal ▸ left
    · apply (List.mem_erase_of_ne _).mpr stays.1
      intro equal
      exact same (congrArg Prod.snd equal)

theorem unregister_identified (registry : Registry state.tables state.count)
    (identified : Identified state) (present : (name, id) ∈ state.live) :
    Identified
      { tables := lockdepUnregister state.tables (some id)
        live := state.live.erase (name, id) } := by
  have named := lockdepUnregister_idToName registry (count_pos present)
  apply Identified.of_maps
  · intro other target
    rw [mem_erase_iff identified present, ← identified.nameToId]
    by_cases last : state.count id = 1
    · obtain ⟨stored, tree, traces, atId, _cleared, same⟩ := lockdepUnregister_last registry last
      have sameName : stored = name := by
        rw [(identified.idToName name id).mpr present, Option.some.injEq] at atId
        exact atId.symm
      change (lockdepUnregister state.tables (some id)).nameToId other = some target ↔ _
      rw [same, sameName]
      change Function.update state.tables.nameToId name none other = some target ↔ _
      have known := (identified.nameToId name id).mpr present
      by_cases equal : other = name
      · rw [equal, Function.update_self, known, Option.some.injEq]
        simp only [reduceCtorEq, last, true_and, false_iff, not_and, not_not]
        exact Eq.symm
      · rw [Function.update_of_ne equal]
        constructor
        · intro atOther
          refine ⟨atOther, ?_⟩
          intro gone
          rw [gone.2] at atOther
          have live := (identified.nameToId other id).mp atOther
          exact equal ((identified.distinct _ live _ present).mp rfl)
        · exact And.left
    · have several : 1 < state.count id := by
        have before := count_pos present
        omega
      change (lockdepUnregister state.tables (some id)).nameToId other = some target ↔ _
      rw [lockdepUnregister_shared registry several]
      simp only [last, false_and, not_false_eq_true, and_true]
  · intro other target
    rw [mem_erase_iff identified present, ← identified.idToName]
    change (lockdepUnregister state.tables (some id)).idToName target = some other ↔ _
    rw [named target]
    by_cases gone : state.count id = 1 ∧ target = id
    · rw [if_pos gone]
      simp only [reduceCtorEq, gone, and_self, not_true_eq_false, and_false]
    · rw [if_neg gone]
      exact (and_iff_left gone).symm

end Unregistering

/-! ### Runs -/

theorem registrations_sound {state : Registrations}
    (reached : Runs.Reachable registrations ClearNames state) :
    Registry state.tables state.count ∧ Identified state := by
  apply reached.invariant
  · intro current initial
    rw [initial]
    refine ⟨Registry.initial, Identified.of_maps ?_ ?_⟩
    · intro name id
      simp only [Tables.initial, reduceCtorEq, List.not_mem_nil]
    · intro name id
      simp only [Tables.initial, reduceCtorEq, List.not_mem_nil]
  · intro current call next _reached sound permitted taken
    obtain ⟨registry, identified⟩ := sound
    cases call with
    | register name =>
        change current.register name = some next at taken
        rw [Registrations.register] at taken
        cases done : lockdepRegister current.tables name with
        | returned tables id =>
            rw [done] at taken
            cases taken
            refine ⟨?_, (register_identified_iff registry identified done).mpr permitted⟩
            rw [count_cons]
            exact lockdepRegisterHeld_registry registry (lockdepRegister_returned done)
        | threw tables =>
            rw [done] at taken
            cases taken
            have kept := register_threw registry identified done
            exact kept
        | aborted | diverged =>
            rw [done] at taken
            cases taken
    | unregister name id =>
        change current.unregister name id = some next at taken
        rw [Registrations.unregister, Option.ite_none_right_eq_some] at taken
        obtain ⟨present, same⟩ := taken
        cases same
        refine ⟨?_, unregister_identified registry identified present⟩
        rw [count_erase present]
        exact lockdepUnregister_registry registry (count_pos present)

instance (state : Registrations) (name : Name) : Decidable (state.Clear name) :=
  inferInstanceAs (Decidable (_ ∨ _))

instance (state : Registrations) (call : RegistryCall) : Decidable (ClearNames state call) :=
  match call with
  | .register name => inferInstanceAs (Decidable (state.Clear name))
  | .unregister _ _ => inferInstanceAs (Decidable True)

/-- While the names are clear, two live registrations have one identifier exactly if
they have one name, and the two maps are the live registrations, read both ways. -/
theorem names_identify_locks {state : Registrations}
    (reached : Runs.Reachable registrations ClearNames state) : Identified state :=
  (registrations_sound reached).2

/-- Two locks of one name, one of another, and one with a NUL. -/
theorem names_identify_locks_shared :
    ∃ state, Runs.Reachable registrations ClearNames state ∧
      state.live = [([97], 0), ([98, 0], 1), ([97], 0)] ∧
      state.tables.nameToId [98, 0] = some 1 := by
  obtain ⟨state, reached, passed⟩ := Runs.exists_of_replay ClearNames
    (show registrations.initial { tables := Tables.initial, live := [] } from rfl)
    [.register [97], .register [98, 0], .register [97]]
    (fun state => decide (state.live = [([97], 0), ([98, 0], 1), ([97], 0)]))
    (by decide +kernel)
  have live := of_decide_eq_true passed
  refine ⟨state, reached, live, ((names_identify_locks reached).nameToId [98, 0] 1).mpr ?_⟩
  rw [live]
  decide

/-- A name with a NUL, registered twice, has two identifiers. -/
theorem names_identify_locks_nul :
    ∃ state, Runs.Reachable registrations (fun _ _ => True) state ∧
      ([97, 0, 98], 0) ∈ state.live ∧ ([97, 0, 98], 1) ∈ state.live ∧ ¬ Identified state := by
  obtain ⟨state, reached, passed⟩ := Runs.exists_of_replay (fun _ _ => True)
    (show registrations.initial { tables := Tables.initial, live := [] } from rfl)
    [.register [97, 0, 98], .register [97, 0, 98]]
    (fun state => decide (state.live = [([97, 0, 98], 1), ([97, 0, 98], 0)]))
    (by decide +kernel)
  have live := of_decide_eq_true passed
  have first : ([97, 0, 98], 0) ∈ state.live := by
    rw [live]
    decide
  have second : ([97, 0, 98], 1) ∈ state.live := by
    rw [live]
    decide
  refine ⟨state, reached, first, second, ?_⟩
  intro identified
  have same := (identified.distinct _ first _ second).mpr rfl
  cases same

end BlueThread.Lockdep
