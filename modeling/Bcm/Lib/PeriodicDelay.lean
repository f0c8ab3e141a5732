import Mathlib.Order.Basic
import Mathlib.Order.Lattice

/-!
# Periodic delays

The delay by which a task runs with a fixed period: from the time it was last due and the time now
the kernel gives the time it is due next, and the time at which it goes on. A task that is late goes
on at once, and its periods are counted from when it was due.
-/

/-- The operation a kernel offers. The result is when the task was due, and when it goes on. -/
structure PeriodicDelay where
  delayUntil : (last period now : Nat) → Nat × Nat

namespace PeriodicDelay

/-- The documented behaviour. -/
structure Lawful (K : PeriodicDelay) : Prop where
  due : ∀ last period now, (K.delayUntil last period now).1 = last + period
  goesOn : ∀ last period now, (K.delayUntil last period now).2 = max now (last + period)

/-- The delay by itself. -/
def plain : PeriodicDelay := ⟨fun last period now => (last + period, max now (last + period))⟩

theorem plain_lawful : plain.Lawful := ⟨fun _ _ _ => rfl, fun _ _ _ => rfl⟩

end PeriodicDelay
