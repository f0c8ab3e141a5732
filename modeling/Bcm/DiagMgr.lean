import Mathlib.Data.List.Basic
import Mathlib.Logic.Function.Basic

/-!
# Health

The running health of the subsystems and its aggregate (`diag_mgr.h`, `diag_mgr.cpp`). Of the
power-on self test only what it seeds the health with is here.
-/

namespace Bcm

inductive Subsystem where
  | clock
  | gpio
  | adc
  | uart
  | config
  deriving DecidableEq, Repr

/-- Every subsystem, in the order of the source's loops. -/
def Subsystem.all : List Subsystem := [clock, gpio, adc, uart, config]

theorem Subsystem.mem_all (sys : Subsystem) : sys ∈ all := by
  cases sys <;> decide

inductive Health where
  | unknown
  | ok
  | degraded
  | failed
  deriving DecidableEq, Repr

structure DiagMgr where
  health : Subsystem → Health

namespace DiagMgr

def new : DiagMgr := ⟨fun _ => .unknown⟩

def setHealth (d : DiagMgr) (sys : Subsystem) (state : Health) : DiagMgr :=
  ⟨Function.update d.health sys state⟩

/-- `post_result(sys, passed)`: a subsystem that failed at startup is not healthy. -/
def postResult (d : DiagMgr) (sys : Subsystem) (passed : Bool) : DiagMgr :=
  d.setHealth sys (if passed then .ok else .failed)

/-- The loop of `overall()`, with the worst health so far. -/
def worstOf : List Health → Health → Health
  | [], worst => worst
  | .failed :: _, _ => .failed
  | .degraded :: rest, _ => worstOf rest .degraded
  | .unknown :: rest, worst => worstOf rest (if worst = .ok then .unknown else worst)
  | .ok :: rest, worst => worstOf rest worst

def overall (d : DiagMgr) : Health := worstOf (Subsystem.all.map d.health) .ok

def healthy (d : DiagMgr) : Bool := decide (d.overall ≠ .failed)

theorem worstOf_eq_failed_iff (healths : List Health) {worst : Health} (hworst : worst ≠ .failed) :
    worstOf healths worst = .failed ↔ .failed ∈ healths := by
  induction healths generalizing worst with
  | nil => simpa [worstOf] using hworst
  | cons health rest ih =>
      cases health with
      | failed => simp [worstOf]
      | degraded => rw [worstOf, ih (by decide)]; simp
      | ok => rw [worstOf, ih hworst]; simp
      | unknown =>
          have hnext : (if worst = .ok then Health.unknown else worst) ≠ .failed := by
            split
            · decide
            · exact hworst
          rw [worstOf, ih hnext]
          simp

/-- The supervisor's gate is open exactly while no subsystem has failed. -/
theorem healthy_iff (d : DiagMgr) : d.healthy = true ↔ ∀ sys, d.health sys ≠ .failed := by
  have hok : Health.ok ≠ .failed := by decide
  have hfailed := worstOf_eq_failed_iff (Subsystem.all.map d.health) hok
  rw [healthy, decide_eq_true_eq, ne_eq, overall, hfailed, List.mem_map]
  constructor
  · intro hnone sys hsys
    exact hnone ⟨sys, sys.mem_all, hsys⟩
  · rintro hgood ⟨sys, -, hsys⟩
    exact hgood sys hsys

end DiagMgr

end Bcm
