import Bcm.Lib.PeriodicDelay
import Bcm.RtosApp

/-!
# The watchdog in time

The watchdog driver (`drv_watchdog.h`, `drv_watchdog.cpp`), and the supervisor of `rtos_app.cpp`
with the clock: its task waits for the check-ins for at most `kWatchdogPeriod`, decides, and is
delayed until the next period. A tick is a millisecond. The delay and the event group are the
kernel's. The task has the highest priority, so it goes on in the tick in which it may.
-/

namespace Bcm

namespace Watchdog

def kLsiHz : UInt32 := 40000

def kPrescalerDiv : UInt32 := 256

def kReloadMax : UInt32 := 0x0FFF

/-- The reload value that `start(timeout_ms)` gives the counter. -/
def reload (timeoutMs : UInt32) : UInt32 :=
  let reload := timeoutMs * (kLsiHz / kPrescalerDiv) / 1000
  let reload := if reload = 0 then 1 else reload
  if kReloadMax < reload then kReloadMax else reload

/-- The first whole millisecond by which a counter that is not refreshed has run from its reload
value below zero, at the nominal rate of the oscillator. -/
def windowMs (reload : UInt32) : Nat :=
  ((reload.toNat + 1) * kPrescalerDiv.toNat * 1000 + (kLsiHz.toNat - 1)) / kLsiHz.toNat

end Watchdog

def kWatchdogPeriod : Nat := 200

def kWatchdogTimeoutMs : UInt32 := 1000

/-- The supervisor in time. `last` is the variable of `task_watchdog`, and `wakeAt` is when its wait
times out, or when its delay is over. The last two fields only record what has happened. -/
structure WatchdogClock (G : Type) where
  app : RtosApp G
  now : Nat
  last : Nat
  wakeAt : Nat
  refreshedAt : Nat
  checkedAt : TaskId → Nat

namespace WatchdogClock

inductive Action where
  | tick
  | checkIn (id : TaskId)
  | setHealth (sys : Subsystem) (state : Health)
  deriving DecidableEq, Repr

variable {G : Type} (E : EventGroup G 32) (K : PeriodicDelay)

/-- The wait has ended in this state of the application, and `vTaskDelayUntil` follows. -/
def endWait (s : WatchdogClock G) (app : RtosApp G) : WatchdogClock G :=
  let (last, wakeAt) := K.delayUntil s.last kWatchdogPeriod s.now
  { s with
    app := app
    last := last
    wakeAt := wakeAt
    refreshedAt := if app.refreshes = s.app.refreshes then s.refreshedAt else s.now }

/-- The task comes to its wait, which may be over at once. -/
def startWait (s : WatchdogClock G) : WatchdogClock G :=
  let app := s.app.exec E .wait
  if app.waiting then { s with app := app, wakeAt := s.now + kWatchdogPeriod } else s.endWait K app

/-- The wait times out. -/
def timeOut (s : WatchdogClock G) : WatchdogClock G :=
  if s.app.waiting ∧ s.wakeAt ≤ s.now then s.endWait K (s.app.exec E .timeOut) else s

/-- The delay is over. -/
def resume (s : WatchdogClock G) : WatchdogClock G :=
  if !s.app.waiting ∧ s.wakeAt ≤ s.now then s.startWait E K else s

def exec (s : WatchdogClock G) : Action → WatchdogClock G
  | .tick => (timeOut E K { s with now := s.now + 1 }).resume E K
  | .checkIn id =>
      let app := s.app.exec E (.checkIn id)
      let s := { s with checkedAt := Function.update s.checkedAt id s.now }
      if s.app.waiting ∧ !app.waiting then s.endWait K app else { s with app := app }
  | .setHealth sys state => { s with app := s.app.exec E (.setHealth sys state) }

/-- `task_watchdog` at its first wait, the watchdog just started. -/
def start (app : RtosApp G) : WatchdogClock G :=
  startWait E K ⟨{ app with waiting := false }, 0, 0, 0, 0, fun _ => 0⟩

def run (app : RtosApp G) (actions : List Action) : WatchdogClock G :=
  Runs.run (exec E K) (start E K app) actions

/-- For how long the watchdog has not been refreshed. -/
def starved (s : WatchdogClock G) : Nat := s.now - s.refreshedAt

end WatchdogClock

end Bcm
