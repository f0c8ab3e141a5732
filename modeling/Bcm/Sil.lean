import Bcm.CoreRun
import Bcm.Lib.Script

/-!
# The virtual vehicle

`SilRunner` of the software-in-the-loop harness (`sil_runner.h`, `sil_runner.cpp`): a core with the
switches and sensors around it, run in cycles of virtual time, and the checks a scenario records. A
scenario is a program that calls the runner and looks at the core, and so a script here.
-/

namespace Bcm.Sil

/-- One recorded check within a scenario. -/
structure CheckResult where
  description : String
  detail : String
  atMs : UInt32
  passed : Bool
  deriving DecidableEq

structure ScenarioResult where
  name : String
  requirement : String
  checks : List CheckResult
  deriving DecidableEq

def ScenarioResult.new : ScenarioResult := ⟨"", "", []⟩

def kCyclePeriodMs : Nat := 5

/-- `dt` along the loop of `advance`: whole periods, and at the end what remains. -/
def cycleTimes : Nat → List Nat
  | 0 => []
  | remaining + 5 => kCyclePeriodMs :: cycleTimes remaining
  | remaining => [remaining]

/-! ### The names in the texts -/

def lampName : LampId → String
  | .ignition => "Ignition"
  | .drl => "DRL"
  | .lowBeam => "LowBeam"
  | .highBeam => "HighBeam"
  | .indLeft => "IndLeft"
  | .indRight => "IndRight"
  | .hazard => "Hazard"
  | .brake => "Brake"
  | .reverse => "Reverse"
  | .doorLock => "DoorLock"

def driveName : LampDrive → String
  | .on => "On"
  | .blink => "Blink"
  | .off => "Off"

def lightName : LightState → String
  | .off => "Off"
  | .parking => "Parking"
  | .drl => "Drl"
  | .lowBeam => "LowBeam"
  | .highBeam => "HighBeam"

def indName : IndState → String
  | .idle => "Idle"
  | .left => "Left"
  | .right => "Right"
  | .hazard => "Hazard"

def doorName : DoorState → String
  | .locked => "Locked"
  | .unlocked => "Unlocked"
  | .welcome => "Welcome"

def powerName : PowerState → String
  | .sleep => "Sleep"
  | .wake => "Wake"
  | .run => "Run"
  | .shutdown => "Shutdown"

/-- `std::hex` of a code. -/
def hexCode (code : Dtc) : String := String.ofList (Nat.toDigits 16 code.toNat)

/-! ### The runner -/

/-- The virtual vehicle. Its configuration is a parameter. -/
structure SilRunner where
  core : BcmCore
  inputs : Inputs
  nowMs : UInt32
  current : ScenarioResult
  deriving DecidableEq

/-- A vehicle at rest: battery healthy, daylight, doors shut. -/
def resting : Inputs := { Inputs.initial with batteryPermille := 800, ambientPermille := 900 }

/-- `control_ptr`, with `none` for the null pointer: the member that the name is for. -/
def controlPtr (control : String) : Option (Bool → Inputs → Inputs) :=
  if control = "ignition" then some fun on inputs => { inputs with ignition := on }
  else if control = "left" then some fun on inputs => { inputs with indLeft := on }
  else if control = "right" then some fun on inputs => { inputs with indRight := on }
  else if control = "hazard" then some fun on inputs => { inputs with hazard := on }
  else if control = "brake" then some fun on inputs => { inputs with brake := on }
  else if control = "lock" then some fun on inputs => { inputs with doorLock := on }
  else none

namespace SilRunner

def new (cfg : Config) : SilRunner := ⟨.new cfg, resting, 0, .new⟩

/-- The body of the loop of `advance`. -/
def cycle (cfg : Config) (dtMs : Nat) (r : SilRunner) : SilRunner :=
  { r with
    core := (r.core.setInputs r.inputs).step cfg dtMs
    nowMs := r.nowMs + UInt32.ofNat dtMs }

/-- `advance`, one cycle for each step of its loop. -/
def advance (cfg : Config) (ms : Nat) (r : SilRunner) : SilRunner :=
  (cycleTimes ms).foldl (fun r dtMs => r.cycle cfg dtMs) r

def record (passed : Bool) (description detail : String) (r : SilRunner) : SilRunner :=
  { r with
    current := { r.current with
      checks := r.current.checks ++ [⟨description, detail, r.nowMs, passed⟩] } }

/-- `press` and `release`. -/
def setControl (on : Bool) (cfg : Config) (control : String) (r : SilRunner) : SilRunner :=
  match controlPtr control with
  | none => r.record false ("unknown control '" ++ control ++ "'") ""
  | some set => { r with inputs := set on r.inputs }.advance cfg kCyclePeriodMs

def press : Config → String → SilRunner → SilRunner := setControl true

def release : Config → String → SilRunner → SilRunner := setControl false

def tap (cfg : Config) (control : String) (holdMs : Nat) (r : SilRunner) : SilRunner :=
  ((r.press cfg control).advance cfg holdMs).release cfg control

def nextLightMode (cfg : Config) (r : SilRunner) : SilRunner :=
  { r with core := r.core.requestLightMode }.advance cfg 10

def expectLamp (id : LampId) (lit : Bool) (what : String) (r : SilRunner) : SilRunner :=
  let d := r.core.lamps.get id
  let actual := decide (d ≠ .off)
  let detail :=
    if actual ≠ lit then
      lampName id ++ " is " ++ driveName d ++ ", expected " ++ (if lit then "lit" else "off")
    else ""
  r.record (actual = lit) what detail

def expectLampBlinking (id : LampId) (what : String) (r : SilRunner) : SilRunner :=
  let d := r.core.lamps.get id
  let detail :=
    if d ≠ .blink then lampName id ++ " is " ++ driveName d ++ ", expected Blink" else ""
  r.record (d = .blink) what detail

/-- The checks of a state machine, by what it is called and the names of its states. -/
def expectState {S : Type} [DecidableEq S] (subject : String) (name : S → String)
    (actual state : S) (what : String) (r : SilRunner) : SilRunner :=
  let detail :=
    if actual ≠ state then subject ++ " is " ++ name actual ++ ", expected " ++ name state else ""
  r.record (actual = state) what detail

def expectLightState (state : LightState) (what : String) (r : SilRunner) : SilRunner :=
  r.expectState "lighting" lightName r.core.lighting.lightState state what

def expectIndicator (state : IndState) (what : String) (r : SilRunner) : SilRunner :=
  r.expectState "indicator" indName r.core.lighting.indicatorState state what

def expectDoor (state : DoorState) (what : String) (r : SilRunner) : SilRunner :=
  r.expectState "door" doorName r.core.door.state state what

def expectPower (state : PowerState) (what : String) (r : SilRunner) : SilRunner :=
  r.expectState "power" powerName r.core.power.state state what

def expectDtc (code : Dtc) (active : Bool) (what : String) (r : SilRunner) : SilRunner :=
  let actual := r.core.faults.isActive code
  let word (on : Bool) : String := if on then "active" else "inactive"
  let detail :=
    if actual ≠ active then
      "DTC 0x" ++ hexCode code ++ " is " ++ word actual ++ ", expected " ++ word active
    else ""
  r.record (actual = active) what detail

def expect (condition : Bool) (what : String) (r : SilRunner) : SilRunner :=
  r.record condition what (if condition then "" else "condition was false")

def begin (cfg : Config) (name requirement : String) (r : SilRunner) : SilRunner :=
  advance cfg 20 ⟨r.core.reset, resting, 0, ⟨name, requirement, []⟩⟩

end SilRunner

/-- The calls of a scenario. Those from `core` on go through `core()`, and the last three are calls of
its store and its log that no other part of the repository makes on a core. -/
inductive SilOp where
  | press (control : String)
  | release (control : String)
  | tap (control : String) (holdMs : Nat)
  | setReverseGear (engaged : Bool)
  | setDoorOpen (isOpen : Bool)
  | setBattery (permille : Nat)
  | setAmbient (permille : Nat)
  | setCommsLost (lost : Bool)
  | nextLightMode
  | advance (ms : Nat)
  | expectLamp (id : LampId) (lit : Bool) (what : String)
  | expectLampBlinking (id : LampId) (what : String)
  | expectLightState (state : LightState) (what : String)
  | expectIndicator (state : IndState) (what : String)
  | expectDoor (state : DoorState) (what : String)
  | expectPower (state : PowerState) (what : String)
  | expectDtc (code : Dtc) (active : Bool) (what : String)
  | expect (condition : Bool) (what : String)
  | begin (name requirement : String)
  | core (op : CoreOp)
  | clearFault (code : Dtc)
  | log (timestampMs : Nat) (event : LogEvent) (arg : Nat)
  | clearLog

/-- What a scenario may look at: the outputs and the states of `core()`, its faults, the size of its
log with what a `pop` of it gives and what it has dropped, and `now_ms()`. -/
structure View where
  lamps : LampState
  horn : Bool
  light : LightState
  indicator : IndState
  door : DoorState
  power : PowerState
  loadShed : Bool
  faults : FaultMgr
  popped : Option LogRecord
  logSize : Nat
  dropped : Nat
  nowMs : UInt32

namespace SilRunner

def exec (cfg : Config) (r : SilRunner) : SilOp → SilRunner
  | .press control => r.press cfg control
  | .release control => r.release cfg control
  | .tap control holdMs => r.tap cfg control holdMs
  | .setReverseGear engaged => { r with inputs := { r.inputs with reverseGear := engaged } }
  | .setDoorOpen isOpen => { r with inputs := { r.inputs with doorOpen := isOpen } }
  | .setBattery permille => { r with inputs := { r.inputs with batteryPermille := permille } }
  | .setAmbient permille => { r with inputs := { r.inputs with ambientPermille := permille } }
  | .setCommsLost lost => { r with core := r.core.setCommsLost lost }
  | .nextLightMode => r.nextLightMode cfg
  | .advance ms => r.advance cfg ms
  | .expectLamp id lit what => r.expectLamp id lit what
  | .expectLampBlinking id what => r.expectLampBlinking id what
  | .expectLightState state what => r.expectLightState state what
  | .expectIndicator state what => r.expectIndicator state what
  | .expectDoor state what => r.expectDoor state what
  | .expectPower state what => r.expectPower state what
  | .expectDtc code active what => r.expectDtc code active what
  | .expect condition what => r.expect condition what
  | .begin name requirement => r.begin cfg name requirement
  | .core op => { r with core := r.core.exec cfg op }
  | .clearFault code => { r with core := { r.core with faults := r.core.faults.clear code } }
  | .log timestampMs event arg =>
      { r with core := { r.core with log := r.core.log.log timestampMs event arg } }
  | .clearLog => { r with core := { r.core with log := r.core.log.clear } }

def view (r : SilRunner) : View where
  lamps := r.core.lamps
  horn := r.core.horn.output
  light := r.core.lighting.lightState
  indicator := r.core.lighting.indicatorState
  door := r.core.door.state
  power := r.core.power.state
  loadShed := r.core.power.loadShed
  faults := r.core.faults
  popped := r.core.log.pop.1
  logSize := r.core.log.count
  dropped := r.core.log.dropped
  nowMs := r.nowMs

end SilRunner

abbrev Scenario : Type := Script SilOp View

def Scenario.run (cfg : Config) (s : Scenario) (r : SilRunner) : SilRunner :=
  Script.run (SilRunner.exec cfg) SilRunner.view s r

end Bcm.Sil
