import Bcm.Drivers
import Bcm.Lib.Stopwatch
import Bcm.Lib.Runs

/-!
# The software timer against the time

What a timer does is a function of the period it was started with and of the time since, however the
time was cut into calls. A one-shot timer expires in the call with which the time comes to the
period. A periodic one expires in every call with which the time comes to, or past, another multiple
of the period, and what it has left is the time to the next.
-/

namespace Bcm.SoftTimer

open Stopwatch

/-! ### One-shot -/

/-- A one-shot timer, some time after it was started. -/
structure Shot (periodMs elapsedMs : Nat) (t : SoftTimer) : Prop where
  periodic : t.periodic = false
  running : t.running = decide (elapsedMs < periodMs)
  remaining : elapsedMs < periodMs → t.remaining = periodMs - elapsedMs

namespace Shot

variable {periodMs elapsedMs : Nat} {t : SoftTimer}

theorem start (t : SoftTimer) (periodMs : Nat) : Shot periodMs 0 (t.start periodMs) :=
  ⟨rfl, rfl, fun _ => rfl⟩

theorem expires_iff (h : Shot periodMs elapsedMs t) (dtMs : Nat) :
    t.expires dtMs = true ↔ elapsedMs < periodMs ∧ periodMs ≤ elapsedMs + dtMs := by
  rw [expires_eq_true_iff, h.running, decide_eq_true_eq]
  apply and_congr_right
  intro hbefore
  rw [h.remaining hbefore]
  omega

theorem advance (h : Shot periodMs elapsedMs t) (dtMs : Nat) :
    Shot periodMs (elapsedMs + dtMs) (t.advance dtMs) := by
  have hrunning := advance_running h.periodic dtMs
  refine ⟨by rw [advance_periodic, h.periodic], ?_, fun hlater => ?_⟩
  · rw [hrunning, Bool.eq_iff_iff, Bool.and_eq_true, Bool.not_eq_true', ← Bool.not_eq_true,
      h.expires_iff, h.running, decide_eq_true_eq, decide_eq_true_eq]
    omega
  · have hran : t.running = true := by
      rw [h.running]
      exact decide_eq_true (by omega)
    have hquiet : t.expires dtMs = false := by
      rw [← Bool.not_eq_true, h.expires_iff]
      omega
    rw [advance_of_not_expires hran hquiet]
    have hleft := h.remaining (by omega)
    dsimp only
    omega

theorem run (h : Shot periodMs elapsedMs t) (dts : List Nat) :
    Shot periodMs (elapsedMs + dts.sum) (Runs.run SoftTimer.advance t dts) := by
  induction dts generalizing elapsedMs t with
  | nil => exact h
  | cons dtMs dts ih =>
      rw [List.sum_cons, ← Nat.add_assoc]
      exact ih (h.advance dtMs)

end Shot

/-! ### Periodic -/

/-- A periodic timer, some time after it was started. -/
structure Periodic (periodMs elapsedMs : Nat) (t : SoftTimer) : Prop where
  period : t.period = periodMs
  periodic : t.periodic = true
  running : t.running = true
  remaining : t.remaining = periodMs - elapsedMs % periodMs

namespace Periodic

variable {periodMs elapsedMs : Nat} {t : SoftTimer}

theorem start (t : SoftTimer) (hperiod : 0 < periodMs) :
    Periodic periodMs 0 (t.start periodMs true) := by
  refine ⟨rfl, rfl, ?_, ?_⟩
  · rw [start_running]
    exact decide_eq_true hperiod
  · rw [start_remaining, Nat.zero_mod, Nat.sub_zero]

theorem remaining_pos (h : Periodic periodMs elapsedMs t) (hperiod : 0 < periodMs) :
    1 ≤ t.remaining ∧ t.remaining ≤ periodMs := by
  have hmod : elapsedMs % periodMs < periodMs := Nat.mod_lt elapsedMs hperiod
  rw [h.remaining]
  omega

/-- The time left ends at the next multiple of the period. -/
theorem elapsed_add_remaining (h : Periodic periodMs elapsedMs t) (hperiod : 0 < periodMs) :
    elapsedMs + t.remaining = (elapsedMs / periodMs + 1) * periodMs := by
  have hmod : elapsedMs % periodMs < periodMs := Nat.mod_lt elapsedMs hperiod
  have hdiv : elapsedMs / periodMs * periodMs + elapsedMs % periodMs = elapsedMs :=
    Nat.div_add_mod' elapsedMs periodMs
  rw [h.remaining, Nat.add_mul, Nat.one_mul]
  omega

theorem expires_iff (h : Periodic periodMs elapsedMs t) (hperiod : 0 < periodMs) (dtMs : Nat) :
    t.expires dtMs = true ↔
      ∃ count, elapsedMs < count * periodMs ∧ count * periodMs ≤ elapsedMs + dtMs := by
  have hnext := h.elapsed_add_remaining hperiod
  have hpos := h.remaining_pos hperiod
  rw [expires_eq_true_iff, h.running]
  constructor
  · rintro ⟨-, hle⟩
    exact ⟨elapsedMs / periodMs + 1, by omega, by omega⟩
  · rintro ⟨count, hlt, hle⟩
    have hcount : elapsedMs / periodMs < count := (Nat.div_lt_iff_lt_mul hperiod).mpr hlt
    have hmultiple : (elapsedMs / periodMs + 1) * periodMs ≤ count * periodMs :=
      Nat.mul_le_mul_right periodMs hcount
    exact ⟨rfl, by omega⟩

theorem advance (h : Periodic periodMs elapsedMs t) (hperiod : 0 < periodMs) (dtMs : Nat) :
    Periodic periodMs (elapsedMs + dtMs) (t.advance dtMs) := by
  have hnext := h.elapsed_add_remaining hperiod
  by_cases hle : t.remaining ≤ dtMs
  · -- the overshoot is the time since the last multiple
    have hadvance : t.advance dtMs =
        { t with remaining := t.period - (dtMs - t.remaining) % t.period } := by
      simp [SoftTimer.advance, update, h.running, h.periodic, h.period, hle, hperiod]
    have hsince : elapsedMs + dtMs =
        dtMs - t.remaining + (elapsedMs / periodMs + 1) * periodMs := by omega
    rw [hadvance]
    refine ⟨h.period, h.periodic, h.running, ?_⟩
    rw [hsince, Nat.add_mul_mod_self_right, h.period]
  · have hquiet : t.expires dtMs = false := by
      rw [← Bool.not_eq_true, expires_eq_true_iff]
      exact fun hexpires => hle hexpires.2
    have hmod : elapsedMs % periodMs < periodMs := Nat.mod_lt elapsedMs hperiod
    have hleft := h.remaining
    have hwithin : elapsedMs % periodMs + dtMs < periodMs := by omega
    rw [advance_of_not_expires h.running hquiet]
    refine ⟨h.period, h.periodic, h.running, ?_⟩
    rw [← Nat.mod_add_mod, Nat.mod_eq_of_lt hwithin]
    dsimp only
    omega

theorem run (h : Periodic periodMs elapsedMs t) (hperiod : 0 < periodMs) (dts : List Nat) :
    Periodic periodMs (elapsedMs + dts.sum) (Runs.run SoftTimer.advance t dts) := by
  induction dts generalizing elapsedMs t with
  | nil => exact h
  | cons dtMs dts ih =>
      rw [List.sum_cons, ← Nat.add_assoc]
      exact ih (h.advance hperiod dtMs)

end Periodic

/-- **The timer neither drifts nor misfires.** After any calls, for the next one. -/
theorem run_start {periodMs : Nat} (hperiod : 0 < periodMs) (t : SoftTimer) (dts : List Nat)
    (dtMs : Nat) :
    (((Runs.run advance (t.start periodMs) dts).expires dtMs = true ↔
          dts.sum < periodMs ∧ periodMs ≤ dts.sum + dtMs) ∧
        (Runs.run advance (t.start periodMs) dts).running = decide (dts.sum < periodMs)) ∧
      ((Runs.run advance (t.start periodMs true) dts).expires dtMs = true ↔
          ∃ count, dts.sum < count * periodMs ∧ count * periodMs ≤ dts.sum + dtMs) ∧
        1 ≤ (Runs.run advance (t.start periodMs true) dts).remaining ∧
        (Runs.run advance (t.start periodMs true) dts).remaining ≤ periodMs ∧
        (Runs.run advance (t.start periodMs true) dts).remaining =
          periodMs - dts.sum % periodMs := by
  have hshot := (Shot.start t periodMs).run dts
  have hperiodic := (Periodic.start t hperiod).run hperiod dts
  rw [Nat.zero_add] at hshot hperiodic
  obtain ⟨hpos, hle⟩ := hperiodic.remaining_pos hperiod
  exact ⟨⟨hshot.expires_iff dtMs, hshot.running⟩, hperiodic.expires_iff hperiod dtMs, hpos, hle,
    hperiodic.remaining⟩

/-- Two calls that take the time to two periods and a half. -/
theorem run_start_overshoot :
    (Runs.run advance (new.start 100 true) [60, 190]).remaining = 50 :=
  (run_start (by decide) .new [60, 190] 0).2.2.2.2

end Bcm.SoftTimer
