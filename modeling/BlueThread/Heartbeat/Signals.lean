/-
Which thread the suicide signal reaches.

Pools of both kinds share one heartbeat map. `add_worker` stores what the worker
passes as its thread, and `_check` sends the signal there. A worker is named by
its pool and its place in it, and its handle is known by the worker that added
it. The identities of new threads are chosen by the system: they differ from those
of all threads that still run.
-/

import BlueThread.Heartbeat.Crews
import BlueThread.Heartbeat.History

namespace BlueThread.Heartbeat

open ThreadPool (Stage)

variable {α : Type}

/-- The pools over one map, with what `pthread_self()` returns in each worker. -/
structure Process (α : Type) where
  pools : List (Pool α)
  selves : Nat × Nat → Nat
  map : HeartbeatMap (Nat × Nat)

inductive ProcessAction (α : Type)
  | pool (index : Nat) (action : PoolAction α) (fresh : Nat → Nat)
  | resetTimeout (address : Nat × Nat) (now : Int64) (grace suicideGrace : UInt64)
  | clearTimeout (address : Nat × Nat) (now : Int64)
  | isHealthy (now : Int64)

namespace Process

def member? (process : Process α) (address : Nat × Nat) : Option (Stage × Nat) :=
  (process.pools[address.1]?).bind fun pool => pool.crew[address.2]?

/-- Between `add_worker` and `remove_worker`. -/
def Live (process : Process α) (address : Nat × Nat) : Prop :=
  ∃ index, process.member? address = some (.registered, index)

/-- Created, and not at its end. -/
def Running (process : Process α) (address : Nat × Nat) : Prop :=
  ∃ stage index, process.member? address = some (stage, index) ∧ stage ≠ .gone

def register (process : Process α) (pool : Nat) (before after : Pool α) :
    Option Nat → HeartbeatMap (Nat × Nat)
  | none => process.map
  | some worker =>
      match before.crew[worker]?, after.crew[worker]? with
      | some (.created, index), some (.registered, _) =>
          process.map.addWorker (pool, worker)
            (before.threadId (process.selves (pool, worker)) index)
      | some (.registered, _), some (.gone, _) => process.map.removeWorker (pool, worker)
      | _, _ => process.map

def selvesAfter (process : Process α) (pool : Nat) (before : Pool α) (fresh : Nat → Nat)
    (address : Nat × Nat) : Nat :=
  if address.1 = pool ∧ before.crew.length ≤ address.2 then fresh address.2
  else process.selves address

/-- A call of the map; one that ends the process is not a step. -/
def call (process : Process α) (call : Call (Nat × Nat)) : Option (Process α) :=
  match perform process.map call with
  | some (.ok after) => some { process with map := after }
  | _ => none

def step (process : Process α) : ProcessAction α → Option (Process α)
  | .pool index action fresh =>
      (process.pools[index]?).bind fun pool =>
        (pool.step action).map fun after =>
          { pools := process.pools.set index after
            selves := process.selvesAfter index pool fresh
            map := process.register index pool after action.actor }
  | .resetTimeout address now grace suicideGrace =>
      process.call (.resetTimeout address now grace suicideGrace)
  | .clearTimeout address now => process.call (.clearTimeout address now)
  | .isHealthy now => process.call (.isHealthy now)

end Process

def processes (α : Type) : Runs.System (Process α) (ProcessAction α) where
  initial process := (∀ pool ∈ process.pools, pool.Fresh) ∧ process.map = HeartbeatMap.initial
  step := Process.step

/-- A new thread is none of those that run, and no other new one. -/
def FreshSelves (process : Process α) : ProcessAction α → Prop
  | .pool index action fresh =>
      ∀ pool after, process.pools[index]? = some pool → pool.step action = some after →
        ∀ worker, pool.crew.length ≤ worker → worker < after.crew.length →
          (∀ address, process.Running address → process.selves address ≠ fresh worker) ∧
            ∀ other, pool.crew.length ≤ other → other < after.crew.length →
              fresh other = fresh worker → other = worker
  | _ => True

/-! ### The roster -/

section Owners

variable {ι : Type} {map : HeartbeatMap ι}

def HeartbeatMap.owners (map : HeartbeatMap ι) : List (ι × Nat) :=
  map.workers.map fun handle => (handle.address, handle.threadId)

structure Roster (owners : List (ι × Nat)) (live : ι → Prop) (passes : ι → Nat → Prop) :
    Prop where
  distinct : (owners.map Prod.fst).Nodup
  listed : ∀ address, address ∈ owners.map Prod.fst ↔ live address
  owned : ∀ entry ∈ owners, passes entry.1 entry.2

variable {owners : List (ι × Nat)} {live later : ι → Prop} {passes others : ι → Nat → Prop}
  {address : ι} {threadId : Nat}

theorem Roster.congr (roster : Roster owners live passes) (same : ∀ one, later one ↔ live one)
    (kept : ∀ one id, live one → passes one id → others one id) : Roster owners later others where
  distinct := roster.distinct
  listed one := (roster.listed one).trans (same one).symm
  owned entry member :=
    kept entry.1 entry.2 ((roster.listed entry.1).mp (List.mem_map_of_mem member))
      (roster.owned entry member)

theorem Roster.add (roster : Roster owners live passes) (absent : ¬live address)
    (own : passes address threadId) :
    Roster ((address, threadId) :: owners) (fun one => one = address ∨ live one) passes where
  distinct := by
    rw [List.map_cons, List.nodup_cons, roster.listed]
    exact ⟨absent, roster.distinct⟩
  listed one := by
    rw [List.map_cons, List.mem_cons, roster.listed]
  owned entry member := by
    rcases List.mem_cons.mp member with rfl | older
    · exact own
    · exact roster.owned entry older

variable [DecidableEq ι]

theorem Roster.remove (roster : Roster owners live passes) (address : ι) :
    Roster (owners.eraseP (·.1 = address)) (fun one => one ≠ address ∧ live one) passes := by
  have erased : (owners.eraseP (·.1 = address)).map Prod.fst =
      (owners.map Prod.fst).erase address := by
    rw [List.erase_eq_eraseP', List.eraseP_map]
    rfl
  refine ⟨?_, ?_, ?_⟩
  · rw [erased]
    exact roster.distinct.erase address
  · intro one
    rw [erased, roster.distinct.mem_erase_iff, roster.listed]
  · intro entry member
    exact roster.owned entry (List.mem_of_mem_eraseP member)

theorem removeWorker_owners :
    (map.removeWorker address).owners = map.owners.eraseP (·.1 = address) := by
  unfold HeartbeatMap.owners HeartbeatMap.removeWorker
  rw [List.eraseP_map]
  rfl

theorem update_owners {after : HeartbeatMap ι} {change : Handle ι → Except Nat (Handle ι)}
    (single : (map.owners.map Prod.fst).Nodup)
    (kept : ∀ handle result, change handle = .ok result →
      result.address = handle.address ∧ result.threadId = handle.threadId)
    (done : map.update address change = some (.ok after)) : after.owners = map.owners := by
  obtain ⟨handle, found, result⟩ := Option.map_eq_some_iff.mp done
  obtain ⟨present, atAddress⟩ := find?_eq_some found
  have addresses : (map.workers.map Handle.address).Nodup := by
    unfold HeartbeatMap.owners at single
    rwa [List.map_map] at single
  split at result
  · cases result
  · rename_i stored ran
    obtain ⟨sameAddress, sameThread⟩ := kept handle stored ran
    cases result
    unfold HeartbeatMap.owners
    rw [List.map_map]
    apply List.map_congr_left
    intro one member
    change ((if one.address = address then stored else one).address,
      (if one.address = address then stored else one).threadId) = _
    split
    · rename_i here
      have same : one = handle :=
        List.inj_on_of_nodup_map addresses member present (here.trans atAddress.symm)
      rw [sameAddress, sameThread, same]
    · rfl

end Owners

/-! ### Steps of a pool, seen from the process -/

section Members

variable {process : Process α} {index : Nat} {pool after : Pool α}
  {map : HeartbeatMap (Nat × Nat)}

theorem member?_elsewhere {address : Nat × Nat} {selves : Nat × Nat → Nat}
    (apart : address.1 ≠ index) :
    (Process.mk (process.pools.set index after) selves map).member? address =
      process.member? address := by
  unfold Process.member?
  rw [List.getElem?_set_ne (Ne.symm apart)]

theorem member?_changed {worker : Nat} {selves : Nat × Nat → Nat}
    (found : process.pools[index]? = some pool) :
    (Process.mk (process.pools.set index after) selves map).member? (index, worker) =
      after.crew[worker]? := by
  unfold Process.member?
  rw [Population.getElem?_set_found found]
  rfl

theorem member?_here {worker : Nat} (found : process.pools[index]? = some pool) :
    process.member? (index, worker) = pool.crew[worker]? := by
  unfold Process.member?
  rw [found]
  rfl

theorem selvesAfter_member (fresh : Nat → Nat) {address : Nat × Nat} {entry : Stage × Nat}
    (found : process.pools[index]? = some pool) (member : process.member? address = some entry) :
    process.selvesAfter index pool fresh address = process.selves address := by
  unfold Process.selvesAfter
  rw [if_neg]
  rintro ⟨rfl, beyond⟩
  rw [member?_here found] at member
  have inside := (List.getElem?_eq_some_iff.mp member).1
  omega

end Members

/-- What the worker passed to `add_worker`, or would pass. -/
def Process.Passes (process : Process α) (address : Nat × Nat) (threadId : Nat) : Prop :=
  ∃ pool stage index, process.pools[address.1]? = some pool ∧
    pool.crew[address.2]? = some (stage, index) ∧
    threadId = pool.threadId (process.selves address) index

structure Attended (process : Process α) : Prop where
  roster : Roster process.map.owners process.Live process.Passes
  apart : ∀ first second, process.Running first → process.Running second →
    process.selves first = process.selves second → first = second

section Crew

variable {crew after : List (Stage × Nat)} {actor : Option Nat} {worker index : Nat}

theorem CrewStep.keepsIndex (step : CrewStep crew actor after) {stage : Stage}
    (found : crew[worker]? = some (stage, index)) :
    ∃ later, after[worker]? = some (later, index) := by
  have moved {other place : Nat} {old new : Stage} (atOther : crew[other]? = some (old, place)) :
      ∃ later, (crew.set other (new, place))[worker]? = some (later, index) := by
    by_cases same : other = worker
    · subst same
      rw [found, Option.some.injEq, Prod.mk.injEq] at atOther
      obtain ⟨_, rfl⟩ := atOther
      exact ⟨new, Population.getElem?_set_found found⟩
    · exact ⟨stage, (List.getElem?_set_ne same).trans found⟩
  cases step with
  | hire new =>
      refine ⟨stage, ?_⟩
      rw [List.getElem?_append_left (List.getElem?_eq_some_iff.mp found).1]
      exact found
  | enter acts atOther => exact moved atOther
  | leave acts atOther => exact moved atOther

theorem CrewStep.wasRunning (step : CrewStep crew actor after) (below : worker < crew.length)
    {stage : Stage} (found : after[worker]? = some (stage, index)) (living : stage ≠ .gone) :
    ∃ earlier place, crew[worker]? = some (earlier, place) ∧ earlier ≠ .gone := by
  cases step with
  | hire new =>
      rw [List.getElem?_append_left below] at found
      exact ⟨stage, index, found, living⟩
  | enter acts atOther =>
      rcases Population.getElem?_set_cases atOther found with ⟨rfl, _⟩ | ⟨_, before⟩
      · exact ⟨_, _, atOther, nofun⟩
      · exact ⟨stage, index, before, living⟩
  | leave acts atOther =>
      rcases Population.getElem?_set_cases atOther found with ⟨rfl, _⟩ | ⟨_, before⟩
      · exact ⟨_, _, atOther, nofun⟩
      · exact ⟨stage, index, before, living⟩

def InLoop (crew : List (Stage × Nat)) (worker : Nat) : Prop :=
  ∃ index, crew[worker]? = some (.registered, index)

theorem hire_inLoop (new : List Nat) :
    InLoop (crew ++ new.map fun index => (Stage.created, index)) worker ↔
      InLoop crew worker := by
  constructor
  · rintro ⟨place, found⟩
    rcases Nat.lt_or_ge worker crew.length with below | above
    · rw [List.getElem?_append_left below] at found
      exact ⟨place, found⟩
    · rw [List.getElem?_append_right above, List.getElem?_map] at found
      obtain ⟨_, _, impossible⟩ := Option.map_eq_some_iff.mp found
      cases impossible
  · rintro ⟨place, found⟩
    refine ⟨place, ?_⟩
    rw [List.getElem?_append_left (List.getElem?_eq_some_iff.mp found).1]
    exact found

theorem enter_inLoop {position : Nat} (found : crew[position]? = some (.created, index)) :
    InLoop (crew.set position (Stage.registered, index)) worker ↔
      worker = position ∨ InLoop crew worker := by
  unfold InLoop
  by_cases same : position = worker
  · subst same
    rw [Population.getElem?_set_found found]
    exact ⟨fun _ => Or.inl rfl, fun _ => ⟨index, rfl⟩⟩
  · rw [List.getElem?_set_ne same]
    exact ⟨Or.inr, fun either => either.resolve_left (Ne.symm same)⟩

theorem leave_inLoop {position : Nat} (found : crew[position]? = some (.registered, index)) :
    InLoop (crew.set position (Stage.gone, index)) worker ↔
      worker ≠ position ∧ InLoop crew worker := by
  unfold InLoop
  by_cases same : position = worker
  · subst same
    rw [Population.getElem?_set_found found]
    constructor
    · rintro ⟨_, impossible⟩
      cases impossible
    · rintro ⟨other, _⟩
      exact absurd rfl other
  · rw [List.getElem?_set_ne same]
    exact ⟨fun live => ⟨Ne.symm same, live⟩, And.right⟩

end Crew

section Step

variable {process : Process α} {pool after : Pool α} {place : Nat} {fresh : Nat → Nat}
  {map : HeartbeatMap (Nat × Nat)}

theorem Passes.kept {actor : Option Nat} (found : process.pools[place]? = some pool)
    (crew : CrewStep pool.crew actor after.crew) (kind : after.threadId = pool.threadId)
    {address : Nat × Nat} {threadId : Nat} (passes : process.Passes address threadId) :
    (Process.mk (process.pools.set place after)
      (process.selvesAfter place pool fresh) map).Passes address threadId := by
  obtain ⟨before, stage, index, atPool, atCrew, rfl⟩ := passes
  have member : process.member? address = some (stage, index) := by
    unfold Process.member?
    rw [atPool]
    exact atCrew
  have same := selvesAfter_member fresh found member
  by_cases here : address.1 = place
  · subst here
    rw [found, Option.some.injEq] at atPool
    subst atPool
    obtain ⟨later, atLater⟩ := crew.keepsIndex atCrew
    refine ⟨after, later, index, Population.getElem?_set_found found, atLater, ?_⟩
    change _ = after.threadId (process.selvesAfter address.1 pool fresh address) index
    rw [same, kind]
  · refine ⟨before, stage, index, ?_, atCrew, ?_⟩
    · change (process.pools.set place after)[address.1]? = some before
      rw [List.getElem?_set_ne (Ne.symm here), atPool]
    · change _ = before.threadId (process.selvesAfter place pool fresh address) index
      rw [same]

theorem running_cases {actor : Option Nat} {selves : Nat × Nat → Nat} {address : Nat × Nat}
    (found : process.pools[place]? = some pool) (crew : CrewStep pool.crew actor after.crew)
    (running : (Process.mk (process.pools.set place after) selves map).Running address) :
    process.Running address ∨
      (address.1 = place ∧ pool.crew.length ≤ address.2 ∧ address.2 < after.crew.length) := by
  obtain ⟨stage, index, member, living⟩ := running
  by_cases here : address.1 = place
  · obtain ⟨one, worker⟩ := address
    cases here
    rw [member?_changed found] at member
    have inside := (List.getElem?_eq_some_iff.mp member).1
    rcases Nat.lt_or_ge worker pool.crew.length with below | above
    · left
      unfold Process.Running
      rw [member?_here found]
      exact crew.wasRunning below member living
    · exact Or.inr ⟨rfl, above, inside⟩
  · rw [member?_elsewhere here] at member
    exact Or.inl ⟨stage, index, member, living⟩

theorem register_same {actor : Option Nat}
    (same : ∀ worker < pool.crew.length, after.crew[worker]? = pool.crew[worker]?) :
    process.register place pool after actor = process.map := by
  cases actor with
  | none => rfl
  | some worker =>
      rcases Nat.lt_or_ge worker pool.crew.length with below | above
      · unfold Process.register
        simp only [same worker below]
        split
        · simp_all
        · simp_all
        · rfl
      · unfold Process.register
        simp only [List.getElem?_eq_none above]

theorem register_cases {actor : Option Nat} (crewStep : CrewStep pool.crew actor after.crew) :
    (process.register place pool after actor = process.map ∧
        ∀ worker, InLoop after.crew worker ↔ InLoop pool.crew worker) ∨
      (∃ worker index : Nat, pool.crew[worker]? = some (Stage.created, index) ∧
        process.register place pool after actor = process.map.addWorker (place, worker)
          (pool.threadId (process.selves (place, worker)) index) ∧
        ∀ other, InLoop after.crew other ↔ other = worker ∨ InLoop pool.crew other) ∨
      ∃ worker, process.register place pool after actor =
          process.map.removeWorker (place, worker) ∧
        ∀ other, InLoop after.crew other ↔ other ≠ worker ∧ InLoop pool.crew other := by
  generalize same : after.crew = crew at crewStep ⊢
  cases crewStep with
  | hire new =>
      refine Or.inl ⟨?_, fun worker => hire_inLoop new⟩
      apply register_same
      intro worker below
      rw [same, List.getElem?_append_left below]
  | @enter worker index acts found =>
      refine Or.inr (Or.inl ⟨worker, index, found, ?_, fun other => enter_inLoop found⟩)
      subst acts
      unfold Process.register
      simp only [found, same, Population.getElem?_set_found found]
  | @leave worker index acts found =>
      refine Or.inr (Or.inr ⟨worker, ?_, fun other => leave_inLoop found⟩)
      subst acts
      unfold Process.register
      simp only [found, same, Population.getElem?_set_found found]

theorem live_iff {selves : Nat × Nat → Nat} (change : Nat × Nat → Prop → Prop)
    (found : process.pools[place]? = some pool)
    (here : ∀ worker, InLoop after.crew worker ↔ change (place, worker) (InLoop pool.crew worker))
    (elsewhere : ∀ address was, address.1 ≠ place → (change address was ↔ was))
    (address : Nat × Nat) :
    (Process.mk (process.pools.set place after) selves map).Live address ↔
      change address (process.Live address) := by
  by_cases same : address.1 = place
  · obtain ⟨own, worker⟩ := address
    cases same
    have before : process.Live (own, worker) = InLoop pool.crew worker := by
      unfold Process.Live InLoop
      rw [member?_here found]
    have later : (Process.mk (process.pools.set own after) selves map).Live (own, worker) =
        InLoop after.crew worker := by
      unfold Process.Live InLoop
      rw [member?_changed found]
    rw [before, later]
    exact here worker
  · rw [elsewhere address _ same]
    unfold Process.Live
    rw [member?_elsewhere same]

theorem Roster.poolStep {action : PoolAction α}
    (roster : Roster process.map.owners process.Live process.Passes)
    (found : process.pools[place]? = some pool) (taken : pool.step action = some after) :
    Roster (process.register place pool after action.actor).owners
      (Process.mk (process.pools.set place after) (process.selvesAfter place pool fresh) map).Live
      (Process.mk (process.pools.set place after)
        (process.selvesAfter place pool fresh) map).Passes := by
  obtain ⟨crew, kind⟩ := step_crew taken
  rcases register_cases crew with ⟨same, loops⟩ | ⟨worker, index, created, added, loops⟩ |
    ⟨worker, removed, loops⟩
  · rw [same]
    exact roster.congr (live_iff (fun _ was => was) found loops fun _ _ _ => Iff.rfl)
      fun _ _ _ passes => Passes.kept found crew kind passes
  · rw [added]
    have absent : ¬process.Live (place, worker) := by
      rintro ⟨_, live⟩
      rw [member?_here found, created] at live
      cases live
    have own : process.Passes (place, worker)
        (pool.threadId (process.selves (place, worker)) index) :=
      ⟨pool, .created, index, found, created, rfl⟩
    refine (roster.add absent own).congr
      (live_iff (fun one was => one = (place, worker) ∨ was) found ?_ ?_)
      fun _ _ _ passes => Passes.kept found crew kind passes
    · intro other
      rw [loops, Prod.mk.injEq]
      simp
    · intro address was apart
      simp [Prod.ext_iff, apart]
  · rw [removed, removeWorker_owners]
    refine (roster.remove (place, worker)).congr
      (live_iff (fun one was => one ≠ (place, worker) ∧ was) found ?_ ?_)
      fun _ _ _ passes => Passes.kept found crew kind passes
    · intro other
      rw [loops, ne_eq, ne_eq, Prod.mk.injEq]
      simp
    · intro address was apart
      simp [Prod.ext_iff, apart]

theorem selvesAfter_new {address : Nat × Nat} (here : address.1 = place)
    (beyond : pool.crew.length ≤ address.2) :
    process.selvesAfter place pool fresh address = fresh address.2 :=
  if_pos ⟨here, beyond⟩

theorem selvesAfter_running {address : Nat × Nat} (found : process.pools[place]? = some pool)
    (running : process.Running address) :
    process.selvesAfter place pool fresh address = process.selves address := by
  obtain ⟨_, _, member, _⟩ := running
  exact selvesAfter_member fresh found member

theorem apart_poolStep {action : PoolAction α}
    (apart : ∀ first second, process.Running first → process.Running second →
      process.selves first = process.selves second → first = second)
    (new : FreshSelves process (.pool place action fresh))
    (found : process.pools[place]? = some pool) (taken : pool.step action = some after)
    (first second : Nat × Nat)
    (runs : (Process.mk (process.pools.set place after)
      (process.selvesAfter place pool fresh) map).Running first)
    (runsToo : (Process.mk (process.pools.set place after)
      (process.selvesAfter place pool fresh) map).Running second)
    (same : process.selvesAfter place pool fresh first =
      process.selvesAfter place pool fresh second) : first = second := by
  have crew := (step_crew taken).1
  rcases running_cases found crew runs with old | ⟨here, beyond, inside⟩
  · rcases running_cases found crew runsToo with oldToo | ⟨hereToo, beyondToo, insideToo⟩
    · rw [selvesAfter_running found old, selvesAfter_running found oldToo] at same
      exact apart first second old oldToo same
    · rw [selvesAfter_running found old, selvesAfter_new hereToo beyondToo] at same
      exact absurd same ((new pool after found taken second.2 beyondToo insideToo).1 first old)
  · rcases running_cases found crew runsToo with oldToo | ⟨hereToo, beyondToo, insideToo⟩
    · rw [selvesAfter_running found oldToo, selvesAfter_new here beyond] at same
      exact absurd same.symm ((new pool after found taken first.2 beyond inside).1 second oldToo)
    · rw [selvesAfter_new here beyond, selvesAfter_new hereToo beyondToo] at same
      have equal := (new pool after found taken second.2 beyondToo insideToo).2 first.2 beyond
        inside same
      exact Prod.ext (here.trans hereToo.symm) equal

theorem Attended.call {next : Process α} {call : Call (Nat × Nat)} (attended : Attended process)
    (kept : ∀ after, perform process.map call = some (.ok after) →
      after.owners = process.map.owners)
    (done : process.call call = some next) : Attended next := by
  unfold Process.call at done
  split at done
  · rename_i after performed
    cases done
    refine ⟨?_, attended.apart⟩
    change Roster after.owners process.Live process.Passes
    rw [kept after performed]
    exact attended.roster
  · cases done

theorem Attended.step {action : ProcessAction α} {next : Process α}
    (attended : Attended process) (new : FreshSelves process action)
    (taken : process.step action = some next) : Attended next := by
  cases action with
  | pool place action fresh =>
      obtain ⟨pool, found, result⟩ := Option.bind_eq_some_iff.mp taken
      obtain ⟨after, stepped, rfl⟩ := Option.map_eq_some_iff.mp result
      exact ⟨attended.roster.poolStep found stepped,
        apart_poolStep attended.apart new found stepped⟩
  | resetTimeout address now grace suicideGrace =>
      refine attended.call ?_ taken
      intro after done
      refine update_owners attended.roster.distinct ?_ done
      intro handle result checked
      cases checked_ok checked
      exact ⟨rfl, rfl⟩
  | clearTimeout address now =>
      refine attended.call ?_ taken
      intro after done
      refine update_owners attended.roster.distinct ?_ done
      intro handle result checked
      cases checked_ok checked
      exact ⟨rfl, rfl⟩
  | isHealthy now =>
      refine attended.call ?_ taken
      intro after done
      unfold HeartbeatMap.owners
      rw [isHealthy_workers (Option.some.inj done)]

end Step

theorem Pool.Fresh.crew {pool : Pool α} (fresh : pool.Fresh) : pool.crew = [] := by
  cases pool with
  | threadPool state =>
      obtain ⟨_, _, rfl⟩ := fresh
      rfl
  | sharded state =>
      obtain ⟨_, _, _, rfl⟩ := fresh
      rfl

theorem initial_member? {process : Process α} (initial : (processes α).initial process)
    (address : Nat × Nat) : process.member? address = none := by
  unfold Process.member?
  cases found : process.pools[address.1]? with
  | none => rfl
  | some pool =>
      change pool.crew[address.2]? = none
      rw [(initial.1 pool (List.mem_of_getElem? found)).crew]
      rfl

theorem Attended.initial {process : Process α} (initial : (processes α).initial process) :
    Attended process := by
  have nobody := initial_member? initial
  have empty : process.map.owners = [] := by
    rw [initial.2]
    rfl
  refine ⟨⟨?_, ?_, ?_⟩, ?_⟩
  · rw [empty]
    exact List.nodup_nil
  · intro address
    rw [empty]
    unfold Process.Live
    rw [nobody]
    simp
  · rw [empty]
    nofun
  · rintro first second ⟨_, _, member, _⟩
    rw [nobody] at member
    cases member

theorem reachable_attended {process : Process α}
    (reached : Runs.Reachable (processes α) FreshSelves process) : Attended process :=
  reached.invariant (fun _ initial => .initial initial)
    fun _ _ _ _ attended new taken => attended.step new taken

/-! ### The target of the signal -/

/-- Each live worker has one handle, the handles are those of live workers with their
own threads, and a check that kills signals the owner of the handle. -/
structure Targeted (process : Process α) : Prop where
  single : ∀ address, process.Live address →
    process.map.workers.countP (·.address = address) = 1
  own : ∀ handle ∈ process.map.workers, process.Live handle.address ∧
    handle.threadId = process.selves handle.address
  distinct : ∀ first ∈ process.map.workers, ∀ second ∈ process.map.workers,
    first.threadId = second.threadId → first.address = second.address
  signalled : ∀ handle ∈ process.map.workers, ∀ now target,
    (check handle now).kill = some target → target = process.selves handle.address

/-- The workers of sharded pools have the identities that they pass. -/
def SelfIndexed (process : Process α) : Prop :=
  ∀ address state index, process.pools[address.1]? = some (.sharded state) →
    process.member? address = some (.registered, index) → process.selves address = index

section Targets

variable {process : Process α}

theorem check_target {ι : Type} {handle : Handle ι} {now : Int64} {target : Nat}
    (killed : (check handle now).kill = some target) : target = handle.threadId := by
  unfold check at killed
  split at killed
  · cases killed
    rfl
  · cases killed

theorem Process.Live.running {address : Nat × Nat} (live : process.Live address) :
    process.Running address := by
  obtain ⟨index, member⟩ := live
  exact ⟨.registered, index, member, nofun⟩

theorem mem_owners {handle : Handle (Nat × Nat)} (member : handle ∈ process.map.workers) :
    (handle.address, handle.threadId) ∈ process.map.owners :=
  List.mem_map_of_mem member

theorem Attended.live (attended : Attended process) {handle : Handle (Nat × Nat)}
    (member : handle ∈ process.map.workers) : process.Live handle.address :=
  (attended.roster.listed _).mp (List.mem_map_of_mem (mem_owners member))

theorem Attended.single (attended : Attended process) {address : Nat × Nat}
    (live : process.Live address) :
    process.map.workers.countP (·.address = address) = 1 := by
  have once := List.count_eq_one_of_mem attended.roster.distinct
    ((attended.roster.listed address).mpr live)
  unfold HeartbeatMap.owners at once
  rw [List.map_map, List.count_eq_countP, List.countP_map] at once
  rw [← once]
  apply List.countP_congr
  intro handle _
  simp

theorem Attended.handle (attended : Attended process) {address : Nat × Nat}
    (live : process.Live address) : ∃ handle ∈ process.map.workers, handle.address = address := by
  have listed := (attended.roster.listed address).mpr live
  unfold HeartbeatMap.owners at listed
  rw [List.map_map] at listed
  exact List.mem_map.mp listed

theorem Attended.threadId (attended : Attended process) {handle : Handle (Nat × Nat)}
    (member : handle ∈ process.map.workers) :
    ∃ pool index, process.pools[handle.address.1]? = some pool ∧
      process.member? handle.address = some (.registered, index) ∧
      handle.threadId = pool.threadId (process.selves handle.address) index := by
  obtain ⟨pool, stage, index, found, atCrew, passed⟩ := attended.roster.owned _ (mem_owners member)
  obtain ⟨place, live⟩ := attended.live member
  have here : process.member? handle.address = some (stage, index) := by
    unfold Process.member?
    rw [found]
    exact atCrew
  rw [live, Option.some.injEq, Prod.mk.injEq] at here
  obtain ⟨_, rfl⟩ := here
  exact ⟨pool, place, found, live, passed⟩

end Targets

/-- The suicide signal reaches the thread that overran if and only if the live workers
of sharded pools, who pass their `thread_index`, happen to be the threads of these
numbers. -/
theorem suicide_signal_targets_iff {process : Process α}
    (reached : Runs.Reachable (processes α) FreshSelves process) :
    Targeted process ↔ SelfIndexed process := by
  have attended := reachable_attended reached
  constructor
  · intro targeted address state index found member
    obtain ⟨handle, present, rfl⟩ := attended.handle ⟨index, member⟩
    obtain ⟨pool, place, atPool, live, passed⟩ := attended.threadId present
    rw [found, Option.some.injEq] at atPool
    rw [member, Option.some.injEq, Prod.mk.injEq] at live
    obtain ⟨_, rfl⟩ := live
    subst atPool
    exact (targeted.own handle present).2.symm.trans passed
  · intro indexed
    have own : ∀ handle ∈ process.map.workers,
        handle.threadId = process.selves handle.address := by
      intro handle member
      obtain ⟨pool, place, found, live, passed⟩ := attended.threadId member
      cases pool with
      | threadPool state => exact passed
      | sharded state => exact passed.trans (indexed handle.address state place found live).symm
    refine ⟨fun address => attended.single, fun handle member =>
      ⟨attended.live member, own handle member⟩, ?_, ?_⟩
    · intro first member second memberToo same
      rw [own first member, own second memberToo] at same
      exact attended.apart _ _ (attended.live member).running (attended.live memberToo).running same
    · intro handle member now target killed
      exact (check_target killed).trans (own handle member)

theorem freshSelves_initial {process : Process α} (initial : (processes α).initial process)
    {place : Nat} {action : PoolAction α} {fresh : Nat → Nat} (distinct : fresh.Injective) :
    FreshSelves process (.pool place action fresh) := by
  intro pool after found taken worker beyond inside
  refine ⟨?_, fun other _ _ same => distinct same⟩
  rintro address ⟨_, _, member, _⟩
  rw [initial_member? initial] at member
  cases member

theorem freshSelves_same {process : Process α} {pool : Pool α} {place : Nat}
    {action : PoolAction α} {fresh : Nat → Nat} (found : process.pools[place]? = some pool)
    (same : (pool.step action).map (·.crew.length) = some pool.crew.length) :
    FreshSelves process (.pool place action fresh) := by
  intro other after foundToo taken worker beyond inside
  cases foundToo.symm.trans found
  rw [taken, Option.map_some, Option.some.injEq] at same
  omega

/-- Two workers of a plain pool, with different identities. -/
theorem suicide_signal_targets_two_workers :
    ∃ process : Process Nat, Runs.Reachable (processes Nat) FreshSelves process ∧
      process.map.workers.map Handle.threadId = [141, 140] ∧ Targeted process := by
  let first : Process Nat :=
    ⟨[.threadPool (ThreadPool.State.initial 2 1)], fun _ => 0, HeartbeatMap.initial⟩
  have initial : (processes Nat).initial first := by
    refine ⟨?_, rfl⟩
    intro pool member
    cases List.mem_singleton.mp member
    exact ⟨2, 1, rfl⟩
  have started := Runs.Reachable.next (.pool 0 (.threadPool .start) (140 + ·))
    (.start initial) (freshSelves_initial initial (add_right_injective 140)) rfl
  have entered := Runs.Reachable.next (.pool 0 (.threadPool (.work 0)) id)
    started (freshSelves_same rfl rfl) rfl
  have waits := Runs.Reachable.next (.pool 0 (.threadPool (.work 0)) id)
    entered (freshSelves_same rfl rfl) rfl
  have both := Runs.Reachable.next (.pool 0 (.threadPool (.work 1)) id)
    waits (freshSelves_same rfl rfl) rfl
  refine ⟨_, both, rfl, (suicide_signal_targets_iff both).mpr ?_⟩
  intro address state index found member
  have inside := List.mem_of_getElem? found
  cases List.mem_singleton.mp inside

/-- The worker of a sharded pool: the signal goes to the thread 0, and not to 140. -/
theorem sharded_signal_misses :
    ∃ process : Process Nat, Runs.Reachable (processes Nat) FreshSelves process ∧
      ¬Targeted process := by
  let first : Process Nat :=
    ⟨[.sharded (ShardedThreadPool.State.initial 1 1)], fun _ => 0, HeartbeatMap.initial⟩
  have initial : (processes Nat).initial first := by
    refine ⟨?_, rfl⟩
    intro pool member
    cases List.mem_singleton.mp member
    exact ⟨1, 1, by decide, rfl⟩
  have started := Runs.Reachable.next (.pool 0 (.sharded .start) (140 + ·))
    (.start initial) (freshSelves_initial initial (add_right_injective 140)) rfl
  have given := Runs.Reachable.next (.pool 0 (.sharded .setWq) id)
    started (freshSelves_same rfl rfl) rfl
  have entered := Runs.Reachable.next (.pool 0 (.sharded (.work 0)) id)
    given (freshSelves_same rfl rfl) rfl
  refine ⟨_, entered, ?_⟩
  intro targeted
  have own := (targeted.own (Handle.new (0, 0) 0) (List.mem_singleton.mpr rfl)).2
  revert own
  decide

end BlueThread.Heartbeat
