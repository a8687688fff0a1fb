/-
When an armed deadline counts as over.

A deadline is the sum of a clock reading and a grace. Sums that fit the clock are
compared as integers. The first sum that does not fit is the least time point,
which means that nothing is armed; no reading is later than that sum, so the
check is right about it. Every greater sum lies before the reading it was armed
at, and the check takes it for over at once.
-/

import BlueThread.Heartbeat.Model

namespace BlueThread.Heartbeat

open Instants

section Expiry

variable {was now later : Int64} {span : UInt64}

theorem expired_iff : expired was now = true ↔ was ≠ Int64.minValue ∧ was.toInt < now.toInt := by
  unfold expired
  rw [Bool.and_eq_true, decide_eq_true_eq, decide_eq_true_eq, Int64.lt_iff_toInt_lt]

@[simp] theorem expired_minValue : expired Int64.minValue now = false := by
  rw [Bool.eq_false_iff]
  intro armed
  exact (expired_iff.mp armed).1 rfl

theorem expired_plus_iff (past : 0 ≤ now.toInt) (fits : now.toInt + span.toNat ≤ 2 ^ 63) :
    expired (plus now span) later = true ↔ now.toInt + span.toNat < later.toInt := by
  have below := later.toInt_lt
  rcases Int.lt_or_eq_of_le fits with inside | full
  · rw [expired_iff, plus_exact past inside]
    constructor
    · exact And.right
    · intro passed
      refine ⟨?_, passed⟩
      intro least
      have exact := plus_exact past inside
      rw [least, Int64.toInt_minValue] at exact
      omega
  · rw [plus_end full, expired_minValue]
    constructor
    · exact nofun
    · intro passed
      omega

theorem expired_plus_wrapped (past : 0 ≤ now.toInt) (large : 2 ^ 63 < now.toInt + span.toNat)
    (after : now.toInt ≤ later.toInt) : expired (plus now span) later = true := by
  obtain ⟨early, armed⟩ := plus_wraps past large
  exact expired_iff.mpr ⟨armed, by omega⟩

end Expiry

section Checks

variable {ι : Type} {handle after result : Handle ι} {now later : Int64}
  {grace suicideGrace : UInt64}

theorem checked_ok (done : handle.checked now after = .ok result) : result = after := by
  unfold Handle.checked at done
  split at done
  · cases done
  · cases done
    rfl

theorem check_healthy : (check handle now).healthy = true ↔ expired handle.timeout now = false := by
  change (!expired handle.timeout now) = true ↔ _
  rw [Bool.not_eq_true']

theorem check_unhealthy :
    (check handle now).healthy = false ↔ expired handle.timeout now = true := by
  change (!expired handle.timeout now) = false ↔ _
  rw [Bool.not_eq_false']

theorem check_kill :
    (check handle now).kill = none ↔ expired handle.suicideTimeout now = false := by
  unfold check
  cases expired handle.suicideTimeout now <;> simp

theorem arm_suicideTimeout (positive : 0 < suicideGrace) :
    (handle.arm now grace suicideGrace).suicideTimeout = plus now suicideGrace :=
  if_pos positive

theorem arm_disabled (zero : ¬0 < suicideGrace) :
    (handle.arm now grace suicideGrace).suicideTimeout = Int64.minValue :=
  if_neg zero

theorem arm_kill_iff (past : 0 ≤ now.toInt) (fits : now.toInt + suicideGrace.toNat ≤ 2 ^ 63) :
    (check (handle.arm now grace suicideGrace) later).kill = none ↔
      suicideGrace = 0 ∨ later.toInt ≤ now.toInt + suicideGrace.toNat := by
  rw [check_kill]
  by_cases positive : 0 < suicideGrace
  · have nonzero : suicideGrace ≠ 0 := by
      rintro rfl
      exact absurd positive (by decide)
    rw [arm_suicideTimeout positive, Bool.eq_false_iff, ne_eq, expired_plus_iff past fits]
    simp only [nonzero, false_or, Int.not_lt]
  · have zero : suicideGrace = 0 := by
      rw [UInt64.lt_iff_toNat_lt, UInt64.toNat_zero] at positive
      rw [← UInt64.toNat_inj, UInt64.toNat_zero]
      omega
    rw [arm_disabled positive]
    simp [zero]

theorem arm_healthy_iff (past : 0 ≤ now.toInt) (fits : now.toInt + grace.toNat ≤ 2 ^ 63) :
    (check (handle.arm now grace suicideGrace) later).healthy = true ↔
      later.toInt ≤ now.toInt + grace.toNat := by
  rw [check_healthy, Bool.eq_false_iff, ne_eq]
  change ¬expired (plus now grace) later = true ↔ _
  rw [expired_plus_iff past fits, Int.not_lt]

end Checks

/-- The deadlines are right at every later reading exactly if neither of them is
beyond the end of the clock. -/
theorem deadlines_exact_iff {ι : Type} {handle after : Handle ι} {now : Int64}
    {grace suicideGrace : UInt64} (past : 0 ≤ now.toInt)
    (reset : handle.resetTimeout now grace suicideGrace = .ok after) :
    (∀ later : Int64, now ≤ later →
      (later.toInt - now.toInt ≤ grace.toNat → (check after later).healthy = true) ∧
        (later.toInt - now.toInt ≤ suicideGrace.toNat → (check after later).kill = none) ∧
        (grace.toNat < later.toInt - now.toInt → (check after later).healthy = false)) ↔
      now.toInt + grace.toNat ≤ 2 ^ 63 ∧ now.toInt + suicideGrace.toNat ≤ 2 ^ 63 := by
  obtain rfl := checked_ok reset
  constructor
  · intro exact
    obtain ⟨healthy, alive, _⟩ := exact now (Int64.le_refl now)
    constructor
    · by_contra large
      have wrapped : expired (plus now grace) now = true :=
        expired_plus_wrapped past (by omega) (Int.le_refl _)
      have stands := check_healthy.mp (healthy (by omega))
      change expired (plus now grace) now = false at stands
      rw [wrapped] at stands
      cases stands
    · by_contra large
      have positive : 0 < suicideGrace := by
        rw [UInt64.lt_iff_toNat_lt, UInt64.toNat_zero]
        have below := now.toInt_lt
        omega
      have wrapped : expired (plus now suicideGrace) now = true :=
        expired_plus_wrapped past (by omega) (Int.le_refl _)
      have stands := check_kill.mp (alive (by omega))
      rw [arm_suicideTimeout positive, wrapped] at stands
      cases stands
  · rintro ⟨graceFits, suicideFits⟩ later _
    refine ⟨?_, ?_, ?_⟩
    · intro early
      exact (arm_healthy_iff past graceFits).mpr (by omega)
    · intro early
      exact (arm_kill_iff past suicideFits).mpr (Or.inr (by omega))
    · intro late
      rw [← Bool.not_eq_true, arm_healthy_iff past graceFits]
      omega

/-- Deadlines of an ordinary size. -/
theorem deadlines_exact_ordinary :
    (Handle.new 0 7).resetTimeout 5 1000 2000 = .ok ((Handle.new 0 7).arm 5 1000 2000) ∧
      (check ((Handle.new 0 7).arm 5 1000 2000) 1005).healthy = true ∧
      (check ((Handle.new 0 7).arm 5 1000 2000) 1006).healthy = false ∧
      (check ((Handle.new 0 7).arm 5 1000 2000) 2005).kill = none := by
  have reset : (Handle.new 0 7).resetTimeout 5 1000 2000 =
      .ok ((Handle.new 0 7).arm 5 1000 2000) := by
    decide
  have exact := (deadlines_exact_iff (by decide) reset).mpr (by decide)
  exact ⟨reset, (exact 1005 (by decide)).1 (by decide), (exact 1006 (by decide)).2.2 (by decide),
    (exact 2005 (by decide)).2.1 (by decide)⟩

/-- The greatest grace, `duration::max()`, is over when it is armed. -/
theorem greatest_grace_is_over :
    ∃ after : Handle Nat, (Handle.new 0 7).resetTimeout 1 18446744073709551615 0 = .ok after ∧
      (2 : Int64).toInt - (1 : Int64).toInt ≤ (18446744073709551615 : UInt64).toNat ∧
      (check after 2).healthy = false := by
  exact ⟨_, rfl, by decide, by decide⟩

end BlueThread.Heartbeat
