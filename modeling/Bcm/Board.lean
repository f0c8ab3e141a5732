import Bcm.Types

/-!
# The board

The switches of the board and what is wired to which pin (`bsp.h`, `bsp.cpp`, `board_config.h`), with
the polarity that a pin applies (`drv_gpio.cpp`). An output port is the level last written to each of
its pins. Of the pins that carry no lamp and no switch only the buzzer's and the heartbeat's are
here.
-/

namespace Bcm

/-- The discrete inputs, in the order of their bits in the switch bitmap. -/
inductive Switch where
  | ignition
  | indLeft
  | indRight
  | hazard
  | brake
  | doorLock
  deriving DecidableEq, Repr

namespace Switch

def toNat : Switch → Nat
  | ignition => 0
  | indLeft => 1
  | indRight => 2
  | hazard => 3
  | brake => 4
  | doorLock => 5

/-- Every switch, in the order of the source's loops over `0 .. Count`. -/
def all : List Switch := [ignition, indLeft, indRight, hazard, brake, doorLock]

end Switch

namespace Bsp

inductive Port where
  | a
  | b
  | c
  deriving DecidableEq, Repr

/-- A pin of a port, with its polarity. -/
structure GpioPin where
  port : Port
  pin : Nat
  activeLow : Bool
  deriving DecidableEq, Repr

/-- The levels of the output pins. -/
abbrev Levels : Type := Port → Nat → Bool

namespace GpioPin

def write (p : GpioPin) (levels : Levels) (asserted : Bool) : Levels :=
  Function.update levels p.port
    (Function.update (levels p.port) p.pin (if p.activeLow then !asserted else asserted))

/-- `read()`, of the levels at the input pins. -/
def read (p : GpioPin) (levels : Levels) : Bool :=
  if p.activeLow then !levels p.port p.pin else levels p.port p.pin

end GpioPin

/-- `BCM_LAMP_ACTIVE_LOW`. -/
def kLampActiveLow : Bool := false

/-- `BCM_SW_ACTIVE_LOW`. -/
def kSwitchActiveLow : Bool := false

def lampPin : LampId → GpioPin
  | .ignition => ⟨.b, 0, kLampActiveLow⟩
  | .drl => ⟨.b, 1, kLampActiveLow⟩
  | .lowBeam => ⟨.b, 10, kLampActiveLow⟩
  | .highBeam => ⟨.b, 11, kLampActiveLow⟩
  | .indLeft => ⟨.b, 12, kLampActiveLow⟩
  | .indRight => ⟨.b, 13, kLampActiveLow⟩
  | .hazard => ⟨.b, 14, kLampActiveLow⟩
  | .brake => ⟨.b, 15, kLampActiveLow⟩
  | .reverse => ⟨.a, 8, kLampActiveLow⟩
  | .doorLock => ⟨.a, 9, kLampActiveLow⟩

def switchPin : Switch → GpioPin
  | .ignition => ⟨.a, 0, kSwitchActiveLow⟩
  | .indLeft => ⟨.a, 1, kSwitchActiveLow⟩
  | .indRight => ⟨.a, 2, kSwitchActiveLow⟩
  | .hazard => ⟨.a, 3, kSwitchActiveLow⟩
  | .brake => ⟨.a, 4, kSwitchActiveLow⟩
  | .doorLock => ⟨.a, 5, kSwitchActiveLow⟩

def buzzerPin : GpioPin := ⟨.b, 8, false⟩

def heartbeatPin : GpioPin := ⟨.c, 13, true⟩

end Bsp

end Bcm
