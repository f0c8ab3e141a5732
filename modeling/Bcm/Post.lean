import Bcm.DiagMgr

/-!
# The power-on self test

What `DiagMgr` keeps of the self test beside the running health (`diag_mgr.h`, `diag_mgr.cpp`), and
the two places that report to it (`run_post` and `task_monitor` of `rtos_app.cpp`). A subsystem is
always one of the five, so the range checks of the source never act.
-/

namespace Bcm

namespace Subsystem

/-- The number of a subsystem, which is also its bit in the mask of the failures. -/
def toNat : Subsystem → Nat
  | clock => 0
  | gpio => 1
  | adc => 2
  | uart => 3
  | config => 4

end Subsystem

/-- `DiagMgr` with the results of the self test. -/
structure SelfTest extends DiagMgr where
  postTested : Subsystem → Bool
  postOk : Subsystem → Bool
  postDone : Bool

namespace SelfTest

/-- The state after the constructor, and after `reset()`. -/
def new : SelfTest := ⟨.new, fun _ => false, fun _ => false, false⟩

def postResult (d : SelfTest) (sys : Subsystem) (passed : Bool) : SelfTest where
  toDiagMgr := d.toDiagMgr.postResult sys passed
  postTested := Function.update d.postTested sys true
  postOk := Function.update d.postOk sys passed
  postDone := d.postDone

def postComplete (d : SelfTest) : SelfTest := { d with postDone := true }

def setHealth (d : SelfTest) (sys : Subsystem) (state : Health) : SelfTest :=
  { d with toDiagMgr := d.toDiagMgr.setHealth sys state }

/-- The condition under which the loops of `post_passed` and `post_failures` take a subsystem for
failed. -/
def failed (d : SelfTest) (sys : Subsystem) : Bool := !d.postTested sys || !d.postOk sys

def postPassed (d : SelfTest) : Bool :=
  if !d.postDone then false else Subsystem.all.all fun sys => !d.failed sys

def postFailures (d : SelfTest) : BitVec 8 :=
  Subsystem.all.foldl
    (fun mask sys => if d.failed sys then mask ||| (1#8 <<< sys.toNat) else mask) 0#8

/-- What the hardware says of itself: that the PLL has reached its 72 MHz, and that the two drivers
are ready. -/
structure Hardware where
  clockAtSpeed : Bool
  adcReady : Bool
  uartReady : Bool
  deriving DecidableEq, Repr

/-- The results of `run_post`, before it completes the test. -/
def postResults (hw : Hardware) : List (Subsystem × Bool) :=
  [(.clock, hw.clockAtSpeed), (.gpio, true), (.adc, hw.adcReady), (.uart, hw.uartReady),
    (.config, true)]

/-- `run_post()`, up to its log record. -/
def runPost (hw : Hardware) (d : SelfTest) : SelfTest :=
  ((postResults hw).foldl (fun d result => d.postResult result.1 result.2) d).postComplete

/-- What one pass of `task_monitor` reports. -/
def monitorReports (hw : Hardware) : List (Subsystem × Health) :=
  [(.uart, if hw.uartReady then .ok else .failed), (.adc, if hw.adcReady then .ok else .failed),
    (.clock, if hw.clockAtSpeed then .ok else .degraded)]

end SelfTest

end Bcm
