/-
The map remembers the calls that were made on it.

What a health check has to find is said about the history of calls alone: which
handles are registered, when each of them was last reset and with which graces,
and whether that was undone. The map agrees with every history whose deadlines
fit the clock, up to the first abort.
-/

import BlueThread.Heartbeat.Deadlines

namespace BlueThread.Heartbeat

open Instants

variable {ι : Type} [DecidableEq ι]

/-! ### Histories -/

/-- The registered handles, after calls of which the latest comes first. -/
def registered : List (Call ι) → List ι
  | [] => []
  | .addWorker address _ :: past => address :: registered past
  | .removeWorker address :: past => (registered past).erase address
  | .resetTimeout _ _ _ _ :: past => registered past
  | .clearTimeout _ _ :: past => registered past
  | .isHealthy _ :: past => registered past

/-- A `reset_timeout`: its clock reading and its graces. -/
structure Reset where
  since : Int64
  grace : UInt64
  suicideGrace : UInt64
deriving DecidableEq

def lastReset (address : ι) : List (Call ι) → Option Reset
  | [] => none
  | .addWorker other _ :: past => if other = address then none else lastReset address past
  | .removeWorker other :: past => if other = address then none else lastReset address past
  | .resetTimeout other now grace suicideGrace :: past =>
      if other = address then some ⟨now, grace, suicideGrace⟩ else lastReset address past
  | .clearTimeout other _ :: past => if other = address then none else lastReset address past
  | .isHealthy _ :: past => lastReset address past

/-- The handle was due before this reading. -/
def Overdue (past : List (Call ι)) (now : Int64) (address : ι) : Prop :=
  ∃ reset ∈ lastReset address past, reset.since.toInt + reset.grace.toNat < now.toInt

/-- The handle had to be reset before this reading for the process to go on. -/
def Doomed (past : List (Call ι)) (now : Int64) (address : ι) : Prop :=
  ∃ reset ∈ lastReset address past, 0 < reset.suicideGrace ∧
    reset.since.toInt + reset.suicideGrace.toNat < now.toInt

instance (past : List (Call ι)) (now : Int64) (address : ι) :
    Decidable (Overdue past now address) :=
  inferInstanceAs (Decidable (∃ reset ∈ lastReset address past, _))

instance (past : List (Call ι)) (now : Int64) (address : ι) :
    Decidable (Doomed past now address) :=
  inferInstanceAs (Decidable (∃ reset ∈ lastReset address past, _))

def Reset.Fits (reset : Reset) : Prop :=
  0 ≤ reset.since.toInt ∧ reset.since.toInt + reset.grace.toNat < 2 ^ 63 ∧
    reset.since.toInt + reset.suicideGrace.toNat < 2 ^ 63

instance (reset : Reset) : Decidable reset.Fits :=
  inferInstanceAs (Decidable (_ ∧ _ ∧ _))

/-- The deadlines of a call fit the clock. -/
def Call.Fits : Call ι → Prop
  | .resetTimeout _ now grace suicideGrace => Reset.Fits ⟨now, grace, suicideGrace⟩
  | _ => True

instance (call : Call ι) : Decidable call.Fits :=
  match call with
  | .resetTimeout _ now grace suicideGrace =>
      inferInstanceAs (Decidable (Reset.Fits ⟨now, grace, suicideGrace⟩))
  | .addWorker _ _ | .removeWorker _ | .clearTimeout _ _ | .isHealthy _ =>
      inferInstanceAs (Decidable True)

/-! ### What a handle shows of its history -/

def Handle.Reflects (handle : Handle ι) : Option Reset → Prop
  | none => handle.timeout = Int64.minValue ∧ handle.suicideTimeout = Int64.minValue
  | some reset => reset.Fits ∧ handle.timeout = plus reset.since reset.grace ∧
      handle.suicideTimeout =
        if 0 < reset.suicideGrace then plus reset.since reset.suicideGrace else Int64.minValue

structure Faithful (past : List (Call ι)) (map : HeartbeatMap ι) : Prop where
  addresses : map.workers.map Handle.address = registered past
  distinct : (registered past).Nodup
  reflects : ∀ handle ∈ map.workers, handle.Reflects (lastReset handle.address past)

section Handles

variable {past : List (Call ι)} {map : HeartbeatMap ι} {handle : Handle ι}

theorem Handle.Reflects.unhealthy_iff
    (reflects : handle.Reflects (lastReset handle.address past)) (now : Int64) :
    (check handle now).healthy = false ↔ Overdue past now handle.address := by
  rw [check_unhealthy, Overdue]
  cases last : lastReset handle.address past with
  | none =>
      rw [last] at reflects
      rw [reflects.1, expired_minValue]
      simp
  | some reset =>
      rw [last] at reflects
      obtain ⟨fits, timeout, _⟩ := reflects
      rw [timeout, expired_plus_iff fits.1 (Int.le_of_lt fits.2.1)]
      simp

theorem Handle.Reflects.kill_iff (reflects : handle.Reflects (lastReset handle.address past))
    (now : Int64) :
    (check handle now).kill ≠ none ↔ Doomed past now handle.address := by
  rw [ne_eq, check_kill, Bool.not_eq_false, Doomed]
  cases last : lastReset handle.address past with
  | none =>
      rw [last] at reflects
      rw [reflects.2, expired_minValue]
      simp
  | some reset =>
      rw [last] at reflects
      obtain ⟨fits, _, suicide⟩ := reflects
      rw [suicide]
      by_cases positive : 0 < reset.suicideGrace
      · rw [if_pos positive, expired_plus_iff fits.1 (Int.le_of_lt fits.2.2)]
        simp [positive]
      · rw [if_neg positive, expired_minValue]
        simp [positive]

theorem find?_eq_some {address : ι} (found : map.find? address = some handle) :
    handle ∈ map.workers ∧ handle.address = address := by
  unfold HeartbeatMap.find? at found
  have same := List.find?_some found
  exact ⟨List.mem_of_find?_eq_some found, of_decide_eq_true same⟩

theorem mem_addresses {address : ι} :
    address ∈ map.workers.map Handle.address ↔ (map.find? address).isSome = true := by
  rw [HeartbeatMap.find?, List.find?_isSome, List.mem_map]
  simp

theorem Faithful.find (faithful : Faithful past map) {address : ι}
    (member : address ∈ registered past) :
    ∃ handle ∈ map.workers, handle.address = address ∧ map.find? address = some handle := by
  rw [← faithful.addresses, mem_addresses, Option.isSome_iff_exists] at member
  obtain ⟨handle, found⟩ := member
  obtain ⟨present, same⟩ := find?_eq_some found
  exact ⟨handle, present, same, found⟩

end Handles

/-! ### Calls keep the map faithful -/

section Steps

variable {past : List (Call ι)} {map : HeartbeatMap ι}

theorem Faithful.initial : Faithful ([] : List (Call ι)) HeartbeatMap.initial :=
  ⟨rfl, List.nodup_nil, nofun⟩

theorem Faithful.addWorker (faithful : Faithful past map) {address : ι} (threadId : Nat)
    (fresh : map.find? address = none) :
    Faithful (.addWorker address threadId :: past) (map.addWorker address threadId) := by
  have absent : address ∉ map.workers.map Handle.address := by
    rw [mem_addresses, fresh]
    exact nofun
  refine ⟨congrArg (address :: ·) faithful.addresses, ?_, ?_⟩
  · rw [registered, List.nodup_cons, ← faithful.addresses]
    exact ⟨absent, faithful.addresses ▸ faithful.distinct⟩
  · intro handle member
    rcases List.mem_cons.mp member with rfl | older
    · change Handle.Reflects _ (lastReset address (.addWorker address threadId :: past))
      rw [lastReset, if_pos rfl]
      exact ⟨rfl, rfl⟩
    · rw [lastReset, if_neg]
      · exact faithful.reflects handle older
      · rintro rfl
        exact absent (List.mem_map_of_mem older)

theorem Faithful.removeWorker (faithful : Faithful past map) (address : ι) :
    Faithful (.removeWorker address :: past) (map.removeWorker address) := by
  have erased : (map.removeWorker address).workers.map Handle.address =
      (registered past).erase address := by
    rw [← faithful.addresses, List.erase_eq_eraseP', List.eraseP_map]
    rfl
  refine ⟨erased, faithful.distinct.erase address, ?_⟩
  intro handle member
  have kept : handle.address ∈ (registered past).erase address := by
    rw [← erased]
    exact List.mem_map_of_mem member
  rw [lastReset, if_neg]
  · exact faithful.reflects handle (List.mem_of_mem_eraseP member)
  · intro same
    exact (faithful.distinct.mem_erase_iff.mp kept).1 same.symm

theorem Faithful.update (faithful : Faithful past map) {address : ι} {call : Call ι}
    {after : HeartbeatMap ι} {change : Handle ι → Except Nat (Handle ι)}
    (done : map.update address change = some (.ok after))
    (names : registered (call :: past) = registered past)
    (others : ∀ other, other ≠ address → lastReset other (call :: past) = lastReset other past)
    (changed : ∀ handle result, change handle = .ok result → handle.address = address →
      result.address = address ∧ result.Reflects (lastReset address (call :: past))) :
    Faithful (call :: past) after := by
  obtain ⟨handle, found, result⟩ := Option.map_eq_some_iff.mp done
  obtain ⟨_, atAddress⟩ := find?_eq_some found
  split at result
  · cases result
  · rename_i stored ran
    obtain ⟨same, reflects⟩ := changed handle stored ran atAddress
    cases result
    refine ⟨?_, names ▸ faithful.distinct, ?_⟩
    · rw [names, ← faithful.addresses, List.map_map]
      apply List.map_congr_left
      intro one _
      change (if one.address = address then stored else one).address = one.address
      split
      · rename_i here
        rw [same, here]
      · rfl
    · intro one member
      obtain ⟨before, present, rfl⟩ := List.mem_map.mp member
      split
      · rw [same]
        exact reflects
      · rename_i elsewhere
        rw [others before.address elsewhere]
        exact faithful.reflects before present

omit [DecidableEq ι] in
theorem isHealthy_workers {now : Int64} {after : HeartbeatMap ι}
    (done : (map.isHealthy now).map Prod.fst = .ok after) : after.workers = map.workers := by
  unfold HeartbeatMap.isHealthy at done
  split at done
  · cases done
  · cases done
    rfl

theorem Faithful.perform (faithful : Faithful past map) {call : Call ι} {after : HeartbeatMap ι}
    (fits : call.Fits) (done : Heartbeat.perform map call = some (.ok after)) :
    Faithful (call :: past) after := by
  cases call with
  | addWorker address threadId =>
      rw [Heartbeat.perform] at done
      split at done
      · rename_i fresh
        cases done
        exact faithful.addWorker threadId (Option.isNone_iff_eq_none.mp fresh)
      · cases done
  | removeWorker address =>
      rw [Heartbeat.perform] at done
      split at done
      · cases done
        exact faithful.removeWorker address
      · cases done
  | resetTimeout address now grace suicideGrace =>
      apply faithful.update done rfl
      · intro other apart
        rw [lastReset, if_neg (Ne.symm apart)]
      · intro handle result ran atAddress
        rw [checked_ok ran, lastReset, if_pos rfl]
        exact ⟨atAddress, fits, rfl, rfl⟩
  | clearTimeout address now =>
      apply faithful.update done rfl
      · intro other apart
        rw [lastReset, if_neg (Ne.symm apart)]
      · intro handle result ran atAddress
        rw [checked_ok ran, lastReset, if_pos rfl]
        exact ⟨atAddress, rfl, rfl⟩
  | isHealthy now =>
      rw [Heartbeat.perform, Option.some.injEq] at done
      have same := isHealthy_workers done
      refine ⟨?_, faithful.distinct, ?_⟩
      · rw [same]
        exact faithful.addresses
      · rw [same]
        exact faithful.reflects

theorem recorded_faithful {discipline : HeartbeatMap ι → Call ι → Prop}
    (fits : ∀ map call, discipline map call → call.Fits)
    (run : Runs.Recorded (system ι) discipline past map) : Faithful past map := by
  apply run.invariant
  · rintro current rfl
    exact .initial
  · intro past current call following _ faithful permitted taken
    unfold system at taken
    dsimp only at taken
    split at taken
    · rename_i after done
      cases taken
      exact faithful.perform (fits current call permitted) done
    · cases taken

end Steps

/-! ### What the checks find -/

omit [DecidableEq ι] in
theorem checkAll_spec (now : Int64) (handles : List (Handle ι)) (healthy : Bool)
    (unhealthy total : Nat) :
    match checkAll now handles healthy unhealthy total with
    | .error threadId => ∃ handle ∈ handles, (check handle now).kill = some threadId
    | .ok (result, failed, counted) =>
        (∀ handle ∈ handles, (check handle now).kill = none) ∧
          result = (healthy && handles.all fun handle => (check handle now).healthy) ∧
          failed = unhealthy + handles.countP (fun handle => !(check handle now).healthy) ∧
          counted = total + handles.length := by
  induction handles generalizing healthy unhealthy total with
  | nil => simp [checkAll]
  | cons handle rest ih =>
      rw [checkAll]
      cases kill : (check handle now).kill with
      | some threadId => exact ⟨handle, List.mem_cons_self, kill⟩
      | none =>
          simp only
          cases fine : (check handle now).healthy with
          | true =>
              rw [if_pos rfl]
              have spec := ih healthy unhealthy (total + 1)
              split at spec
              · obtain ⟨other, member, killed⟩ := spec
                exact ⟨other, List.mem_cons_of_mem handle member, killed⟩
              · obtain ⟨alive, result, failed, counted⟩ := spec
                refine ⟨List.forall_mem_cons.mpr ⟨kill, alive⟩, ?_, ?_, ?_⟩
                · rw [result, List.all_cons, fine, Bool.true_and]
                · rw [failed, List.countP_cons, fine]
                  simp
                · rw [counted, List.length_cons]
                  omega
          | false =>
              rw [if_neg (by simp)]
              have spec := ih false (unhealthy + 1) (total + 1)
              split at spec
              · obtain ⟨other, member, killed⟩ := spec
                exact ⟨other, List.mem_cons_of_mem handle member, killed⟩
              · obtain ⟨alive, result, failed, counted⟩ := spec
                refine ⟨List.forall_mem_cons.mpr ⟨kill, alive⟩, ?_, ?_, ?_⟩
                · rw [result, List.all_cons, fine]
                  simp
                · rw [failed, List.countP_cons, fine]
                  simp
                  omega
                · rw [counted, List.length_cons]
                  omega

section Verdicts

variable {past : List (Call ι)} {map : HeartbeatMap ι} {now : Int64}

theorem Faithful.countP (faithful : Faithful past map) :
    map.workers.countP (fun handle => !(check handle now).healthy) =
      (registered past).countP (fun address => decide (Overdue past now address)) := by
  rw [← faithful.addresses, List.countP_map]
  apply List.countP_congr
  intro handle member
  change (!(check handle now).healthy) = true ↔ decide (Overdue past now handle.address) = true
  rw [Bool.not_eq_true', decide_eq_true_eq]
  exact (faithful.reflects handle member).unhealthy_iff now

theorem Faithful.exists_iff (faithful : Faithful past map) {found : Handle ι → Prop}
    {told : ι → Prop} (same : ∀ handle ∈ map.workers, found handle ↔ told handle.address) :
    (∃ handle ∈ map.workers, found handle) ↔ ∃ address ∈ registered past, told address := by
  rw [← faithful.addresses]
  simp only [List.mem_map]
  constructor
  · rintro ⟨handle, member, finds⟩
    exact ⟨handle.address, ⟨handle, member, rfl⟩, (same handle member).mp finds⟩
  · rintro ⟨_, ⟨handle, member, rfl⟩, tells⟩
    exact ⟨handle, member, (same handle member).mpr tells⟩

theorem Faithful.update_aborts_iff (faithful : Faithful past map) {address : ι}
    (member : address ∈ registered past) (after : Handle ι → Handle ι) :
    (∃ threadId, map.update address (fun handle => handle.checked now (after handle)) =
        some (.error threadId)) ↔ Doomed past now address := by
  obtain ⟨handle, present, rfl, found⟩ := faithful.find member
  rw [← (faithful.reflects handle present).kill_iff now, HeartbeatMap.update, found]
  simp only [Option.map_some, Option.some.injEq, Handle.checked]
  cases (check handle now).kill with
  | none => simp
  | some threadId => simp

end Verdicts

/-- Whatever was called before, a health check finds exactly the handles whose last
reset ran out, and a check ends the process exactly if it looks at a handle whose
last reset ran out for good. -/
theorem heartbeat_history {past : List (Call ι)} {map : HeartbeatMap ι}
    (run : Runs.Recorded (system ι) (fun _ call => call.Fits) past map) (now : Int64) :
    (match map.isHealthy now with
      | .error _ => ∃ address ∈ registered past, Doomed past now address
      | .ok (after, healthy) =>
          (∀ address ∈ registered past, ¬Doomed past now address) ∧
            (healthy = false ↔ ∃ address ∈ registered past, Overdue past now address) ∧
            after.unhealthyWorkers =
              (registered past).countP (fun address => decide (Overdue past now address)) ∧
            after.totalWorkers = (registered past).length) ∧
      ∀ address ∈ registered past,
        (∀ grace suicideGrace, (∃ threadId, perform map
            (.resetTimeout address now grace suicideGrace) = some (.error threadId)) ↔
          Doomed past now address) ∧
        ((∃ threadId, perform map (.clearTimeout address now) = some (.error threadId)) ↔
          Doomed past now address) := by
  have faithful := recorded_faithful (fun _ _ fits => fits) run
  have kills := faithful.exists_iff
    (fun handle member => (faithful.reflects handle member).kill_iff now)
  have reports := faithful.exists_iff
    (fun handle member => (faithful.reflects handle member).unhealthy_iff now)
  constructor
  · have spec := checkAll_spec now map.workers true 0 0
    unfold HeartbeatMap.isHealthy
    generalize checkAll now map.workers true 0 0 = outcome at spec ⊢
    cases outcome with
    | error threadId =>
        obtain ⟨handle, member, killed⟩ := spec
        exact kills.mp ⟨handle, member, by rw [killed]; nofun⟩
    | ok counts =>
        obtain ⟨result, failed, counted⟩ := counts
        obtain ⟨alive, healthy, unhealthy, total⟩ := spec
        refine ⟨?_, ?_, ?_, ?_⟩
        · intro address member doomed
          obtain ⟨handle, present, killed⟩ := kills.mpr ⟨address, member, doomed⟩
          exact killed (alive handle present)
        · rw [← reports, healthy, Bool.true_and, List.all_eq_false]
          simp
        · rw [← faithful.countP]
          simpa using unhealthy
        · rw [← faithful.addresses, List.length_map]
          simpa using total
  · intro address member
    exact ⟨fun grace suicideGrace => faithful.update_aborts_iff member _,
      faithful.update_aborts_iff member _⟩

/-- One of two workers is overdue. -/
theorem heartbeat_history_two_workers :
    ∃ (past : List (Call Nat)) (map after : HeartbeatMap Nat),
      Runs.Recorded (system Nat) (fun _ call => call.Fits) past map ∧
        map.isHealthy 7 = .ok (after, false) ∧ after.unhealthyWorkers = 1 ∧
        after.totalWorkers = 2 := by
  have run := Runs.replay_recorded
    (.start (rfl : (system Nat).initial HeartbeatMap.initial))
    (rfl : Runs.replay (system Nat) (fun _ call => call.Fits) HeartbeatMap.initial
      [.addWorker 0 10, .addWorker 1 11, .resetTimeout 0 0 5 0, .resetTimeout 1 1 100 200] =
        some _)
  have checked := (heartbeat_history run 7).1
  refine ⟨_, _, _, run, rfl, ?_, ?_⟩
  · exact checked.2.2.1.trans (by decide +kernel)
  · exact checked.2.2.2

end BlueThread.Heartbeat
