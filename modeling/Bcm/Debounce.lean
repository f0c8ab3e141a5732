import Bcm.Types

/-!
# Switch debouncing

The filter between the raw switch levels and the state machines (`debounce.h`). A level is accepted
once it has held for `stableMs`.
-/

namespace Bcm

structure Debouncer where
  stableMs : Nat
  elapsed : Nat
  state : Bool
  candidate : Bool
  rising : Bool
  falling : Bool
  deriving DecidableEq, Repr

namespace Debouncer

def new (stableMs : Nat := 20) (initial : Bool := false) : Debouncer :=
  ⟨stableMs, 0, initial, initial, false, false⟩

/-- `update(raw, dt_ms)`. -/
def update (d : Debouncer) (raw : Bool) (dtMs : Nat) : Bool × Debouncer :=
  let d := { d with rising := false, falling := false }
  if raw != d.candidate then (false, { d with candidate := raw, elapsed := 0 })
  else if d.candidate == d.state then (false, { d with elapsed := 0 })
  else
    -- a long step must not wrap and lose the change
    let elapsed := saturate16 (d.elapsed + dtMs)
    if d.stableMs ≤ elapsed then
      (true,
        { d with
          state := d.candidate
          elapsed := 0
          rising := d.candidate
          falling := !d.candidate })
    else (false, { d with elapsed := elapsed })

def reset (d : Debouncer) (level : Bool) : Debouncer :=
  { d with state := level, candidate := level, elapsed := 0, rising := false, falling := false }

/-! ### What one update does -/

section Update

variable {d : Debouncer} {raw : Bool}

theorem update_of_moved (h : raw ≠ d.candidate) (dtMs : Nat) :
    d.update raw dtMs =
      (false, { d with candidate := raw, elapsed := 0, rising := false, falling := false }) := by
  simp [update, h]

theorem update_of_settled (hraw : raw = d.candidate) (h : d.candidate = d.state) (dtMs : Nat) :
    d.update raw dtMs = (false, { d with elapsed := 0, rising := false, falling := false }) := by
  simp [update, hraw, h]

/-- A level that is not yet accepted has held for a while longer. -/
theorem update_of_held (hraw : raw = d.candidate) (h : d.candidate ≠ d.state) (dtMs : Nat) :
    d.update raw dtMs =
      if d.stableMs ≤ min 0xFFFF (d.elapsed + dtMs) then
        (true,
          { d with
            state := d.candidate
            elapsed := 0
            rising := d.candidate
            falling := !d.candidate })
      else
        (false,
          { d with
            elapsed := min 0xFFFF (d.elapsed + dtMs)
            rising := false
            falling := false }) := by
  simp [update, hraw, h, saturate16_eq_min]

end Update

end Debouncer

end Bcm
