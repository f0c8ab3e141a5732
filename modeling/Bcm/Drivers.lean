import Bcm.Types

/-!
# Timers and filters

The hardware-free pieces of the driver layer the managers are built on: the software timer
(`soft_timer.h`), the Schmitt trigger and the low-pass filter (`filter.h`), and the filtered
analog channel (`drv_adc.h`).
-/

namespace Bcm

structure SoftTimer where
  period : Nat
  remaining : Nat
  periodic : Bool
  running : Bool
  deriving DecidableEq, Repr

namespace SoftTimer

def new : SoftTimer := ⟨0, 0, false, false⟩

/-- `start(period_ms, periodic)`. A period of zero leaves the timer stopped. -/
def start (_t : SoftTimer) (periodMs : Nat) (periodic : Bool := false) : SoftTimer where
  period := periodMs
  remaining := periodMs
  periodic := periodic
  running := decide (0 < periodMs)

def stop (t : SoftTimer) : SoftTimer := { t with running := false }

def update (t : SoftTimer) (dtMs : Nat) : Bool × SoftTimer :=
  if !t.running then (false, t)
  else if t.remaining ≤ dtMs then
    if t.periodic && decide (0 < t.period) then
      -- the overshoot is carried over, so that periods do not drift
      (true, { t with remaining := t.period - (dtMs - t.remaining) % t.period })
    else
      (true, { t with remaining := 0, running := false })
  else (false, { t with remaining := t.remaining - dtMs })

def expires (t : SoftTimer) (dtMs : Nat) : Bool := (t.update dtMs).1

def advance (t : SoftTimer) (dtMs : Nat) : SoftTimer := (t.update dtMs).2

theorem expires_of_stopped {t : SoftTimer} (h : t.running = false) (dtMs : Nat) :
    t.expires dtMs = false := by
  simp [expires, update, h]

theorem advance_of_stopped {t : SoftTimer} (h : t.running = false) (dtMs : Nat) :
    t.advance dtMs = t := by
  simp [advance, update, h]

theorem expires_eq_true_iff {t : SoftTimer} {dtMs : Nat} :
    t.expires dtMs = true ↔ t.running = true ∧ t.remaining ≤ dtMs := by
  unfold expires update
  by_cases hrunning : t.running = true
  · by_cases hle : t.remaining ≤ dtMs
    · cases t.periodic && decide (0 < t.period) <;> simp [hrunning, hle]
    · simp [hrunning, hle]
  · simp [hrunning]

theorem advance_of_not_expires {t : SoftTimer} {dtMs : Nat} (hrunning : t.running = true)
    (h : t.expires dtMs = false) :
    t.advance dtMs = { t with remaining := t.remaining - dtMs } := by
  have hlt : ¬ t.remaining ≤ dtMs := by
    intro hle
    have := expires_eq_true_iff.mpr ⟨hrunning, hle⟩
    simp [h] at this
  simp [advance, update, hrunning, hlt]

theorem advance_of_expires {t : SoftTimer} {dtMs : Nat} (hshot : t.periodic = false)
    (h : t.expires dtMs = true) : t.advance dtMs = { t with remaining := 0, running := false } := by
  obtain ⟨hrunning, hle⟩ := expires_eq_true_iff.mp h
  simp [advance, update, hrunning, hle, hshot]

@[simp]
theorem start_running (t : SoftTimer) (periodMs : Nat) (periodic : Bool) :
    (t.start periodMs periodic).running = decide (0 < periodMs) := rfl

@[simp]
theorem start_remaining (t : SoftTimer) (periodMs : Nat) (periodic : Bool) :
    (t.start periodMs periodic).remaining = periodMs := rfl

@[simp]
theorem start_periodic (t : SoftTimer) (periodMs : Nat) (periodic : Bool) :
    (t.start periodMs periodic).periodic = periodic := rfl

@[simp]
theorem stop_running (t : SoftTimer) : t.stop.running = false := rfl

@[simp]
theorem stop_periodic (t : SoftTimer) : t.stop.periodic = t.periodic := rfl

@[simp]
theorem advance_periodic (t : SoftTimer) (dtMs : Nat) :
    (t.advance dtMs).periodic = t.periodic := by
  unfold advance update
  split
  · rfl
  · split
    · split
      · rfl
      · rfl
    · rfl

/-- A one-shot timer runs until it expires. -/
theorem advance_running {t : SoftTimer} (hshot : t.periodic = false) (dtMs : Nat) :
    (t.advance dtMs).running = (t.running && !t.expires dtMs) := by
  cases hrunning : t.running with
  | false => rw [advance_of_stopped hrunning, hrunning, Bool.false_and]
  | true =>
      cases hexpires : t.expires dtMs with
      | false => rw [advance_of_not_expires hrunning hexpires, hrunning]; rfl
      | true => rw [advance_of_expires hshot hexpires]; rfl

end SoftTimer

/-- A Schmitt trigger: true from `high` up, false again from `low` down, held in between. -/
structure Hysteresis where
  low : Nat
  high : Nat
  state : Bool
  deriving DecidableEq, Repr

namespace Hysteresis

def update (h : Hysteresis) (value : Nat) : Bool × Hysteresis :=
  let state :=
    if !h.state && decide (h.high ≤ value) then true
    else if h.state && decide (value ≤ h.low) then false
    else h.state
  (state, { h with state := state })

/-- What a trigger makes of a value, from either state. -/
def verdict (low high v : Nat) (state : Bool) : Bool :=
  if state then decide (low < v) else decide (high ≤ v)

theorem update_eq (h : Hysteresis) (v : Nat) :
    h.update v = (verdict h.low h.high v h.state,
      { h with state := verdict h.low h.high v h.state }) := by
  unfold update verdict
  cases h.state with
  | true => by_cases hle : v ≤ h.low <;> simp [hle, Nat.not_lt.mpr, Nat.not_le.mp]
  | false => by_cases hle : h.high ≤ v <;> simp [hle]

end Hysteresis

structure ExpFilter where
  shift : Nat
  acc : BitVec 32
  primed : Bool
  deriving DecidableEq, Repr

namespace ExpFilter

def new (shift : Nat := 3) : ExpFilter := ⟨shift, 0, false⟩

/-- The accumulator without its fraction bits, cut to 16 bits. -/
def value (f : ExpFilter) : BitVec 16 := (f.acc >>> f.shift).setWidth 16

def update (f : ExpFilter) (sample : BitVec 16) : BitVec 16 × ExpFilter :=
  let f' : ExpFilter :=
    if !f.primed then
      { f with acc := sample.setWidth 32 <<< f.shift, primed := true }
    else { f with acc := f.acc - (f.acc >>> f.shift) + sample.setWidth 32 }
  (f'.value, f')

def reset (f : ExpFilter) : ExpFilter := { f with acc := 0, primed := false }

end ExpFilter

/-- One filtered analog channel. The conversion itself is the hardware's, so a sample is the raw
reading it returned. -/
structure AnalogInput where
  channel : Nat
  filter : ExpFilter
  deriving DecidableEq, Repr

namespace AnalogInput

def fullScale : Nat := 4095

/-- `sample()`, with the raw reading the conversion returned. -/
def sample (a : AnalogInput) (raw : BitVec 16) : BitVec 16 × AnalogInput :=
  ((a.filter.update raw).1, { a with filter := (a.filter.update raw).2 })

def reset (a : AnalogInput) : AnalogInput := { a with filter := a.filter.reset }

/-- The filtered value per mille of full scale, `static_cast<uint16_t>(value * 1000 / 4095)`. -/
def permille (a : AnalogInput) : BitVec 16 :=
  BitVec.ofNat 16 (a.filter.value.toNat * 1000 / fullScale)

end AnalogInput

end Bcm
