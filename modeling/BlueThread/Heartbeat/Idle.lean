/-
A worker of `ThreadPool` that finds nothing to do.

Each round of its loop resets the handle with the graces of the pool and waits for
ten seconds, or less if it is woken. Both calls read the clock for themselves, and so
does the next reset, after the worker has looked through the queues again. How long the
worker takes from a reset to its wait, and from the end of the wait to the next reset,
is given for every round. Another thread may check the handle at any time.
-/

import BlueThread.Heartbeat.Deadlines

namespace BlueThread.Heartbeat

open Instants

/-- `std::chrono::seconds(10)`, in nanoseconds. -/
def waitInterval : Nat := 10000000000

inductive Phase
  | fresh
  | armed
  | waiting
  | looking
deriving DecidableEq

/-- The clock is the reading that brought the worker to where it is. -/
structure Idler where
  handle : Handle Unit
  phase : Phase
  clock : Int64
  round : Nat
  killed : Option Nat
deriving DecidableEq

inductive IdleAction
  | resetTimeout (now : Int64)
  | waitFor (begun : Int64)
  | wake (woken : Int64)
  | isHealthy (now : Int64)
deriving DecidableEq

def Idler.goTo (idler : Idler) (phase : Phase) (clock : Int64) : Idler :=
  { idler with phase := phase, clock := clock }

/-- `reset_timeout`, at the beginning of a given round. -/
def Idler.reset (tpGrace tpSuicideGrace : UInt64) (idler : Idler) (now : Int64) (round : Nat) :
    Idler :=
  match idler.handle.resetTimeout now tpGrace tpSuicideGrace with
  | .error threadId => { idler with killed := some threadId }
  | .ok handle =>
      { handle := handle
        phase := .armed
        clock := now
        round := round
        killed := none }

/-- The loop without an item, and the checks from outside. -/
def Idler.step (tpGrace tpSuicideGrace : UInt64) (idler : Idler) (action : IdleAction) :
    Option Idler :=
  if idler.killed.isSome then none
  else
    match action, idler.phase with
    | .resetTimeout now, .fresh => some (idler.reset tpGrace tpSuicideGrace now idler.round)
    | .resetTimeout now, .looking =>
        some (idler.reset tpGrace tpSuicideGrace now (idler.round + 1))
    | .waitFor begun, .armed => some (idler.goTo .waiting begun)
    | .wake woken, .waiting => some (idler.goTo .looking woken)
    | .isHealthy now, _ => some { idler with killed := (check idler.handle now).kill }
    | _, _ => none

def Idler.initial (threadId : Nat) (clock : Int64) : Idler :=
  { handle := Handle.new () threadId
    phase := .fresh
    clock := clock
    round := 0
    killed := none }

/-- A worker that was just registered. -/
def idleSystem (tpGrace tpSuicideGrace : UInt64) : Runs.System Idler IdleAction where
  initial idler := ∃ threadId clock, 0 ≤ clock.toInt ∧ idler = Idler.initial threadId clock
  step := Idler.step tpGrace tpSuicideGrace

/-! ### Time -/

/-- How long the worker stays where it is. A wait ends at the first reading after its
deadline or earlier; the other two times are those of the round. -/
def Idler.slack (lead lag : Nat → Nat) (idler : Idler) : Nat :=
  match idler.phase with
  | .fresh => 0
  | .armed => lead idler.round
  | .waiting => waitInterval + 1
  | .looking => lag idler.round

def Idler.OnTime (lead lag : Nat → Nat) (idler : Idler) (now : Int64) : Prop :=
  idler.phase = .fresh ∨ now.toInt ≤ idler.clock.toInt + idler.slack lead lag

instance (lead lag : Nat → Nat) (idler : Idler) (now : Int64) :
    Decidable (idler.OnTime lead lag now) :=
  inferInstanceAs (Decidable (_ ∨ _))

/-- What the clock and the scheduler do; the deadlines fit the clock. -/
def Timely (lead lag : Nat → Nat) (tpSuicideGrace : UInt64) (idler : Idler) :
    IdleAction → Prop
  | .resetTimeout now => idler.OnTime lead lag now ∧ idler.clock.toInt ≤ now.toInt ∧
      now.toInt + tpSuicideGrace.toNat < 2 ^ 63
  | .waitFor begun => idler.OnTime lead lag begun ∧ idler.clock.toInt ≤ begun.toInt
  | .wake woken => idler.OnTime lead lag woken ∧ idler.clock.toInt ≤ woken.toInt
  | .isHealthy now => idler.OnTime lead lag now

instance (lead lag : Nat → Nat) (tpSuicideGrace : UInt64) (idler : Idler) (action : IdleAction) :
    Decidable (Timely lead lag tpSuicideGrace idler action) :=
  match action with
  | .resetTimeout _ => inferInstanceAs (Decidable (_ ∧ _))
  | .waitFor _ | .wake _ => inferInstanceAs (Decidable (_ ∧ _))
  | .isHealthy now => inferInstanceAs (Decidable (idler.OnTime lead lag now))

/-- Every round fits into the grace, from its reset to the next one. The last time that
the clock can show is never after a deadline. -/
def Roomy (lead lag : Nat → Nat) (tpSuicideGrace : UInt64) : Prop :=
  tpSuicideGrace = 0 ∨ 2 ^ 63 - 1 ≤ tpSuicideGrace.toNat ∨
    ∀ round, lead round + waitInterval + lag round < tpSuicideGrace.toNat

/-! ### The invariant -/

def Idler.used (lead : Nat → Nat) (idler : Idler) : Nat :=
  match idler.phase with
  | .fresh | .armed => 0
  | .waiting => lead idler.round
  | .looking => lead idler.round + waitInterval + 1

structure Idler.Safe (lead : Nat → Nat) (tpGrace tpSuicideGrace : UInt64) (idler : Idler) :
    Prop where
  alive : idler.killed = none
  past : 0 ≤ idler.clock.toInt
  covered : (idler.phase = .fresh ∧ idler.handle.suicideTimeout = Int64.minValue) ∨
    ∃ (handle : Handle Unit) (since : Int64), idler.phase ≠ .fresh ∧ 0 ≤ since.toInt ∧
      since.toInt + tpSuicideGrace.toNat < 2 ^ 63 ∧
      idler.handle = handle.arm since tpGrace tpSuicideGrace ∧
      idler.clock.toInt ≤ since.toInt + idler.used lead

section Rounds

variable {lead lag : Nat → Nat} {tpGrace tpSuicideGrace : UInt64} {idler next : Idler}
  {action : IdleAction} {now : Int64}

theorem used_add_slack_le (lead lag : Nat → Nat) (idler : Idler) :
    idler.used lead + idler.slack lead lag ≤
      lead idler.round + waitInterval + 1 + lag idler.round := by
  unfold Idler.used Idler.slack
  cases idler.phase <;> dsimp only <;> omega

theorem Idler.Safe.check_kill (safe : idler.Safe lead tpGrace tpSuicideGrace)
    (roomy : Roomy lead lag tpSuicideGrace) (onTime : idler.OnTime lead lag now) :
    (check idler.handle now).kill = none := by
  rcases safe.covered with ⟨_, disarmed⟩ | ⟨handle, since, begun, past, fits, armed, elapsed⟩
  · rw [Heartbeat.check_kill, disarmed]
    exact expired_minValue
  · rw [armed, arm_kill_iff past (Int.le_of_lt fits)]
    rcases roomy with zero | large | room
    · exact Or.inl zero
    · right
      have below := now.toInt_lt
      omega
    · right
      have last := onTime.resolve_left begun
      have whole := used_add_slack_le lead lag idler
      have fitsRound := room idler.round
      omega

theorem reset_eq (alive : (check idler.handle now).kill = none) (round : Nat) :
    idler.reset tpGrace tpSuicideGrace now round =
      { handle := idler.handle.arm now tpGrace tpSuicideGrace
        phase := .armed
        clock := now
        round := round
        killed := none } := by
  rw [Idler.reset, Handle.resetTimeout, Handle.checked, alive]

theorem Idler.Safe.reset (safe : idler.Safe lead tpGrace tpSuicideGrace)
    (roomy : Roomy lead lag tpSuicideGrace) (onTime : idler.OnTime lead lag now)
    (forward : idler.clock.toInt ≤ now.toInt)
    (fits : now.toInt + tpSuicideGrace.toNat < 2 ^ 63) (round : Nat) :
    (idler.reset tpGrace tpSuicideGrace now round).Safe lead tpGrace tpSuicideGrace := by
  have past : 0 ≤ now.toInt := Int.le_trans safe.past forward
  rw [reset_eq (safe.check_kill roomy onTime)]
  refine ⟨rfl, past, Or.inr ⟨idler.handle, now, ?_, past, fits, rfl, ?_⟩⟩
  · intro impossible
    cases impossible
  · exact Int.le_add_of_nonneg_right (Int.natCast_nonneg _)

theorem Idler.Safe.goTo (safe : idler.Safe lead tpGrace tpSuicideGrace)
    (onTime : idler.OnTime lead lag now) (forward : idler.clock.toInt ≤ now.toInt) {phase : Phase}
    (begun : idler.phase ≠ .fresh) (later : phase ≠ .fresh)
    (elapsed : idler.used lead + idler.slack lead lag ≤ (idler.goTo phase now).used lead) :
    (idler.goTo phase now).Safe lead tpGrace tpSuicideGrace := by
  refine ⟨safe.alive, Int.le_trans safe.past forward, Or.inr ?_⟩
  rcases safe.covered with ⟨fresh, _⟩ | ⟨handle, since, _, past, fits, armed, entered⟩
  · exact absurd fresh begun
  · have last := onTime.resolve_left begun
    refine ⟨handle, since, later, past, fits, armed, ?_⟩
    change now.toInt ≤ _
    omega

theorem Idler.Safe.step (safe : idler.Safe lead tpGrace tpSuicideGrace)
    (roomy : Roomy lead lag tpSuicideGrace) (timely : Timely lead lag tpSuicideGrace idler action)
    (taken : idler.step tpGrace tpSuicideGrace action = some next) :
    next.Safe lead tpGrace tpSuicideGrace := by
  unfold Idler.step at taken
  rw [safe.alive, Option.isSome_none, if_neg Bool.false_ne_true] at taken
  cases action with
  | resetTimeout now =>
      obtain ⟨onTime, forward, fits⟩ := timely
      cases phase : idler.phase with
      | fresh | looking =>
          rw [phase] at taken
          cases taken
          exact safe.reset roomy onTime forward fits _
      | armed | waiting =>
          rw [phase] at taken
          cases taken
  | waitFor begun =>
      cases phase : idler.phase with
      | armed =>
          rw [phase] at taken
          cases taken
          refine safe.goTo timely.1 timely.2 (by rw [phase]; decide) (by decide) ?_
          simp only [Idler.used, Idler.slack, Idler.goTo, phase]
          omega
      | fresh | waiting | looking =>
          rw [phase] at taken
          cases taken
  | wake woken =>
      cases phase : idler.phase with
      | waiting =>
          rw [phase] at taken
          cases taken
          refine safe.goTo timely.1 timely.2 (by rw [phase]; decide) (by decide) ?_
          simp only [Idler.used, Idler.slack, Idler.goTo, phase]
          omega
      | fresh | armed | looking =>
          rw [phase] at taken
          cases taken
  | isHealthy now =>
      cases taken
      exact ⟨safe.check_kill roomy timely, safe.past, safe.covered⟩

theorem idlers_safe (roomy : Roomy lead lag tpSuicideGrace)
    (reached : Runs.Reachable (idleSystem tpGrace tpSuicideGrace)
      (Timely lead lag tpSuicideGrace) idler) : idler.Safe lead tpGrace tpSuicideGrace := by
  apply reached.invariant
  · rintro current ⟨threadId, clock, past, rfl⟩
    exact ⟨rfl, past, Or.inl ⟨rfl, rfl⟩⟩
  · intro current action following _ safe permitted taken
    exact safe.step roomy permitted taken

end Rounds

/-! ### A round that does not fit -/

/-- Armed at the beginning of the clock, in a given round. -/
def Idler.atStart (tpGrace tpSuicideGrace : UInt64) (round : Nat) (handle : Handle Unit) : Idler :=
  { handle := handle.arm 0 tpGrace tpSuicideGrace
    phase := .armed
    clock := 0
    round := round
    killed := none }

section Late

variable (lead lag : Nat → Nat) (tpGrace : UInt64) {tpSuicideGrace : UInt64}

theorem exists_atStart (small : tpSuicideGrace.toNat < 2 ^ 63) (round : Nat) :
    ∃ handle, Runs.Reachable (idleSystem tpGrace tpSuicideGrace) (Timely lead lag tpSuicideGrace)
      (Idler.atStart tpGrace tpSuicideGrace round handle) := by
  have soon {elapsed : Nat} : (0 : Int64).toInt ≤ (0 : Int64).toInt + elapsed := by
    rw [Int64.toInt_zero]
    omega
  have fits : (0 : Int64).toInt + tpSuicideGrace.toNat < 2 ^ 63 := by
    rw [Int64.toInt_zero]
    omega
  induction round with
  | zero =>
      exact ⟨Handle.new () 0, .next (IdleAction.resetTimeout 0)
        (.start ⟨0, 0, Int.le_refl _, rfl⟩) ⟨Or.inl rfl, Int.le_refl _, fits⟩ rfl⟩
  | succ round ih =>
      obtain ⟨handle, reached⟩ := ih
      have waits := reached.next (IdleAction.waitFor 0) ⟨Or.inr soon, Int.le_refl _⟩ rfl
      have looks := waits.next (IdleAction.wake 0) ⟨Or.inr soon, Int.le_refl _⟩ rfl
      refine ⟨handle.arm 0 tpGrace tpSuicideGrace,
        looks.next (IdleAction.resetTimeout 0) ⟨Or.inr soon, Int.le_refl _, fits⟩ ?_⟩
      have alive : (check (handle.arm 0 tpGrace tpSuicideGrace) 0).kill = none :=
        (arm_kill_iff (Int.le_refl _) (Int.le_of_lt fits)).mpr (Or.inr soon)
      exact congrArg some (reset_eq alive (round + 1))

theorem exists_killed (positive : tpSuicideGrace ≠ 0)
    (small : tpSuicideGrace.toNat < 2 ^ 63 - 1) {round : Nat}
    (long : tpSuicideGrace.toNat ≤ lead round + waitInterval + lag round) :
    ∃ idler, Runs.Reachable (idleSystem tpGrace tpSuicideGrace)
      (Timely lead lag tpSuicideGrace) idler ∧ idler.killed ≠ none := by
  have reading {instant : Nat} (inside : instant ≤ tpSuicideGrace.toNat + 1) :
      (Int64.ofNat instant).toInt = instant := by
    apply Int64.toInt_ofNat_of_lt
    omega
  have room : tpSuicideGrace.toNat < 2 ^ 63 := by omega
  obtain ⟨handle, reached⟩ := exists_atStart lead lag tpGrace room round
  let late := tpSuicideGrace.toNat + 1
  let begun := min (lead round) late
  let woken := min (begun + waitInterval + 1) late
  have atBegun : (Int64.ofNat begun).toInt = begun := reading (Nat.min_le_right _ _)
  have atWoken : (Int64.ofNat woken).toInt = woken := reading (Nat.min_le_right _ _)
  have atLate : (Int64.ofNat late).toInt = late := reading (Nat.le_refl _)
  have begins : (0 : Int64).toInt ≤ (Int64.ofNat begun).toInt := by
    rw [Int64.toInt_zero]
    omega
  have beginsInTime : (Int64.ofNat begun).toInt ≤ (0 : Int64).toInt + lead round := by
    rw [Int64.toInt_zero]
    omega
  have wakes : (Int64.ofNat begun).toInt ≤ (Int64.ofNat woken).toInt := by omega
  have wakesInTime :
      (Int64.ofNat woken).toInt ≤ (Int64.ofNat begun).toInt + (waitInterval + 1 : Nat) := by
    omega
  have checkedInTime : (Int64.ofNat late).toInt ≤ (Int64.ofNat woken).toInt + lag round := by
    omega
  have waits := reached.next (IdleAction.waitFor (Int64.ofNat begun))
    ⟨Or.inr beginsInTime, begins⟩ rfl
  have looks := waits.next (IdleAction.wake (Int64.ofNat woken)) ⟨Or.inr wakesInTime, wakes⟩ rfl
  have ends := looks.next (IdleAction.isHealthy (Int64.ofNat late)) (Or.inr checkedInTime) rfl
  refine ⟨_, ends, ?_⟩
  intro alive
  have fits : (0 : Int64).toInt + tpSuicideGrace.toNat ≤ 2 ^ 63 := by
    rw [Int64.toInt_zero]
    omega
  rcases (arm_kill_iff (Int.le_refl _) fits).mp alive with zero | early
  · exact positive zero
  · rw [atLate, Int64.toInt_zero] at early
    omega

end Late

/-- Idling ends nobody exactly if every round fits into the grace: the time from the reset
to the wait, the ten seconds, and the time from the end of the wait to the next reset. -/
theorem idling_survives_iff (lead lag : Nat → Nat) (tpGrace tpSuicideGrace : UInt64) :
    (∀ idler, Runs.Reachable (idleSystem tpGrace tpSuicideGrace)
        (Timely lead lag tpSuicideGrace) idler → idler.killed = none) ↔
      Roomy lead lag tpSuicideGrace := by
  constructor
  · intro survives
    by_contra short
    rw [Roomy, not_or, not_or, Nat.not_le, not_forall] at short
    obtain ⟨positive, small, round, long⟩ := short
    obtain ⟨idler, reached, killed⟩ :=
      exists_killed lead lag tpGrace positive small (Nat.not_lt.mp long)
    exact killed (survives idler reached)
  · intro roomy idler reached
    exact (idlers_safe roomy reached).alive

/-- A grace of fifteen seconds, as in the first test, for a worker that takes up to two
seconds before and after each wait. -/
theorem idling_survives_fifteen_seconds :
    ∃ idler : Idler, Runs.Reachable (idleSystem 5000000000 15000000000)
        (Timely (fun _ => 2000000000) (fun _ => 2000000000) 15000000000) idler ∧
      idler.round = 1 ∧ idler.clock = 13500000001 ∧ idler.killed = none := by
  obtain ⟨idler, reached, passed⟩ := Runs.exists_of_replay
    (Timely (fun _ => 2000000000) (fun _ => 2000000000) 15000000000)
    (show (idleSystem 5000000000 15000000000).initial (Idler.initial 7 0) from
      ⟨7, 0, by decide, rfl⟩)
    [.resetTimeout 0, .waitFor 1500000000, .isHealthy 9000000000, .wake 11500000001,
      .resetTimeout 13500000001]
    (fun idler => decide (idler.round = 1 ∧ idler.clock = 13500000001)) (by decide +kernel)
  obtain ⟨round, clock⟩ := of_decide_eq_true passed
  have roomy : Roomy (fun _ => 2000000000) (fun _ => 2000000000) 15000000000 := by
    refine Or.inr (Or.inr ?_)
    intro round
    change 2000000000 + 10000000000 + 2000000000 < 15000000000
    decide
  exact ⟨idler, reached, round, clock, (idling_survives_iff _ _ _ _).mpr roomy idler reached⟩

/-- With the ten seconds of the other tests, the first idle round is the last, even for a
worker that loses no time. -/
theorem idling_kills_after_ten_seconds :
    ∃ idler : Idler, Runs.Reachable (idleSystem 5000000000 10000000000)
        (Timely (fun _ => 0) (fun _ => 0) 10000000000) idler ∧ idler.killed = some 7 := by
  obtain ⟨idler, reached, passed⟩ := Runs.exists_of_replay
    (Timely (fun _ => 0) (fun _ => 0) 10000000000)
    (show (idleSystem 5000000000 10000000000).initial (Idler.initial 7 0) from
      ⟨7, 0, by decide, rfl⟩)
    [.resetTimeout 0, .waitFor 0, .wake 10000000001, .resetTimeout 10000000001]
    (fun idler => decide (idler.killed = some 7)) (by decide +kernel)
  exact ⟨idler, reached, of_decide_eq_true passed⟩

end BlueThread.Heartbeat
