import Bcm.DiagMgr
import Bcm.Lib.EventGroup
import Bcm.Lib.Runs

/-!
# The watchdog supervisor

The check-ins of the supervised tasks and the task that refreshes the watchdog (`rtos_app.cpp`). The
event group is the kernel's. Each action below runs to its end before the next: a check-in, a health
update, and what the watchdog task does between the end of a wait and the next wait. It has the
highest priority, so a check-in that satisfies its wait is followed by the decision at once.
-/

namespace Bcm

inductive TaskId where
  | control
  | sensor
  | logger
  | monitor
  deriving DecidableEq, Repr

namespace TaskId

def toNat : TaskId → Nat
  | control => 0
  | sensor => 1
  | logger => 2
  | monitor => 3

/-- `1U << id`. -/
def bit (id : TaskId) : BitVec 32 := 1#32 <<< id.toNat

end TaskId

def kCheckInAll : BitVec 32 :=
  TaskId.control.bit ||| TaskId.sensor.bit ||| TaskId.logger.bit ||| TaskId.monitor.bit

/-- The supervisor's part of the application. `waiting` says that the watchdog task is blocked on
the event group, and `refreshes` counts the calls of `Watchdog::refresh`. -/
structure RtosApp (G : Type) where
  checkin : G
  diag : DiagMgr
  waiting : Bool
  refreshes : Nat

namespace RtosApp

inductive Action where
  | checkIn (id : TaskId)
  | setHealth (sys : Subsystem) (state : Health)
  | postResult (sys : Subsystem) (passed : Bool)
  /-- The watchdog task comes to its wait. -/
  | wait
  /-- `kWatchdogPeriod` is up. -/
  | timeOut
  deriving DecidableEq, Repr

variable {G : Type} (E : EventGroup G 32)

/-- `rtos_start()`, with the event group the kernel has created. -/
def start (g : G) : RtosApp G := ⟨g, .new, false, 0⟩

/-- Every bit the watchdog task waits for is there. -/
def AllIn (a : RtosApp G) : Prop := E.value a.checkin &&& kCheckInAll = kCheckInAll

instance (a : RtosApp G) : Decidable (a.AllIn E) :=
  inferInstanceAs (Decidable (E.value a.checkin &&& kCheckInAll = kCheckInAll))

/-- The wait returns, satisfied or timed out, and `task_watchdog` decides. -/
def decideRefresh (a : RtosApp G) : RtosApp G :=
  let (bits, checkin) := E.waitBits a.checkin kCheckInAll
  if bits &&& kCheckInAll = kCheckInAll ∧ a.diag.healthy = true then
    { a with checkin := checkin, waiting := false, refreshes := a.refreshes + 1 }
  else { a with checkin := checkin, waiting := false }

def exec (a : RtosApp G) : Action → RtosApp G
  | .checkIn id =>
      let a := { a with checkin := E.setBits a.checkin id.bit }
      if a.waiting = true ∧ a.AllIn E then a.decideRefresh E else a
  | .setHealth sys state => { a with diag := a.diag.setHealth sys state }
  | .postResult sys passed => { a with diag := a.diag.postResult sys passed }
  | .wait =>
      if a.waiting then a
      else if a.AllIn E then a.decideRefresh E
      else { a with waiting := true }
  | .timeOut => if a.waiting then a.decideRefresh E else a

def run (g : G) (actions : List Action) : RtosApp G := Runs.run (exec E) (start g) actions

end RtosApp

end Bcm
