import Bcm.Types

/-!
# Lamp patterns

The lamp pattern generator (`blink.h`), the lamp that binds it to a pin (`drv_led.h`) and the stage
of the cycle that drives every lamp as the core wants it (`bcm_app.cpp`). A pin is the level last
written to it.
-/

namespace Bcm

inductive BlinkMode where
  | off
  | on
  | blink
  deriving DecidableEq, Repr

@[ext]
structure Blinker where
  mode : BlinkMode
  onMs : Nat
  offMs : Nat
  elapsed : Nat
  output : Bool
  deriving DecidableEq, Repr

namespace Blinker

def new : Blinker := ⟨.off, 0, 0, 0, false⟩

def setOff (b : Blinker) : Blinker := { b with mode := .off, output := false, elapsed := 0 }

def setOn (b : Blinker) : Blinker := { b with mode := .on, output := true, elapsed := 0 }

/-- `set_blink(on_ms, off_ms, start_on)`. The times it already blinks with do not restart it. -/
def setBlink (b : Blinker) (onMs offMs : Nat) (startOn : Bool := true) : Blinker :=
  if b.mode = .blink ∧ onMs = b.onMs ∧ offMs = b.offMs then b
  else ⟨.blink, onMs, offMs, 0, startOn⟩

/-- How long the present phase lasts. -/
def limit (b : Blinker) : Nat := if b.output then b.onMs else b.offMs

/-- Where the loop of `update` breaks. -/
def CaughtUp (b : Blinker) : Prop := b.limit = 0 ∨ b.elapsed < b.limit

instance (b : Blinker) : Decidable b.CaughtUp := inferInstanceAs (Decidable (_ ∨ _))

/-- One pass of the loop. -/
def toggle (b : Blinker) : Blinker :=
  { b with elapsed := b.elapsed - b.limit, output := !b.output }

/-- The loop of `update`, for at most `fuel` passes. -/
def catchUp : Nat → Blinker → Blinker
  | 0, b => b
  | fuel + 1, b => if b.CaughtUp then b else catchUp fuel b.toggle

/-- `update(dt_ms)`. Each pass of the loop takes a millisecond or more from `elapsed`, so as many
passes as it has are enough. -/
def update (b : Blinker) (dtMs : Nat) : Bool × Blinker :=
  if b.mode ≠ .blink then (b.output, b)
  else
    let elapsed := saturate16 (b.elapsed + dtMs)
    let b := catchUp elapsed { b with elapsed := elapsed }
    (b.output, b)

end Blinker

structure Led where
  pin : Bool
  blinker : Blinker
  deriving DecidableEq, Repr

namespace Led

def new : Led := ⟨false, .new⟩

def init (l : Led) : Led := { l with pin := false, blinker := l.blinker.setOff }

def on (l : Led) : Led := { l with pin := true, blinker := l.blinker.setOn }

def off (l : Led) : Led := { l with pin := false, blinker := l.blinker.setOff }

def blink (l : Led) (onMs offMs : Nat) : Led :=
  let blinker := l.blinker.setBlink onMs offMs true
  { l with pin := blinker.output, blinker := blinker }

def update (l : Led) (dtMs : Nat) : Led :=
  let (level, blinker) := l.blinker.update dtMs
  { l with pin := level, blinker := blinker }

/-- What one pass of the loop of `drive_outputs` does to its lamp. -/
def drive (cfg : Config) (l : Led) (wanted : LampDrive) (dtMs : Nat) : Led :=
  let l :=
    match wanted with
    | .on => l.on
    | .blink => l.blink cfg.indicatorOnMs cfg.indicatorOffMs
    | .off => l.off
  l.update dtMs

end Led

/-- What `drive_outputs` writes: the lamps, the state it reports as the actual one, and the buzzer's
pin. -/
structure OutputStage where
  lamps : LampId → Led
  actual : LampState
  buzzer : Bool

namespace OutputStage

/-- After `init()`. -/
def init : OutputStage where
  lamps := fun _ => Led.new.init
  actual := .dark
  buzzer := false

/-- `drive_outputs(dt_ms)`, of the lamps and the horn as the core has them. Each pass of its loop is
about a lamp of its own. -/
def driveOutputs (cfg : Config) (o : OutputStage) (wanted : LampState) (horn : Bool) (dtMs : Nat) :
    OutputStage where
  lamps := fun id => (o.lamps id).drive cfg (wanted.drive id) dtMs
  actual := wanted
  buzzer := horn

end OutputStage

end Bcm
