import Bcm.App
import Bcm.Blink
import Bcm.Board
import Bcm.CommMgr
import Bcm.Debounce
import Bcm.Lib.PartialRuns
import Bcm.Line
import Bcm.LogTask
import Bcm.Proof.StepRecords

/-!
# The firmware on its board

The tasks of `rtos_app.cpp` and the interrupt around one `BcmApp`, its pins, its UART and the log
queue. An action is a piece of what a task does: a control cycle up to the poll of the link, one byte
of that poll, its end, a sample, one record of the monitor's drain, one half of a pass of the logger.
They come in any order here. What the supervisor adds is apart (`RtosApp`).

That each action runs to its end is an assumption, and the source does not ensure it. The monitor has
the higher priority and may drain the log while a cycle is at work on it, the control task may read a
sample half taken, and the interrupt may come in between the accesses of `Uart::read` and
`take_overrun` (`UartSteps`). Nothing is said here of runs in which one of these happens.

A run ends where a requested reset restarts the controller, and where a handler leaves the bounds of
a payload array: no action follows.
-/

namespace Bcm

/-- The last four fields only record what has happened: what the core has passed to its log, what
`queue_log` has been called with, and the bytes that have come in and been read. -/
structure Firmware (Q : Type) where
  app : BcmApp
  parser : FrameParser
  linkTimer : SoftTimer
  linkLost : Bool
  txFailures : UInt32
  line : Line
  buttons : Switch → Debouncer
  outputs : OutputStage
  levels : Bsp.Levels
  batteryPermille : BitVec 16
  queue : Q
  held : Option LogRecord
  logged : List LogRecord
  offered : List LogRecord
  received : List UInt8
  consumed : List UInt8

namespace Firmware

/-- `kControlPeriod`. -/
def kControlMs : Nat := 5

/-- `UartTransport::write`. -/
def writeLine (bytes : List UInt8) (line : Line) : Bool × Line :=
  ((line.uart.write (some bytes)).1, line.exec (.write (some bytes)))

variable {Q : Type}

/-! ### The control task -/

/-- `gather_inputs`, as far as the pins go. The reverse gear and the doors are not wired, and no
light sensor is fitted. -/
def readButtons (pins : Bsp.Levels) (dtMs : Nat) (f : Firmware Q) : Firmware Q :=
  { f with
    buttons := fun id => ((f.buttons id).update ((Bsp.switchPin id).read pins) dtMs).2 }

def inputs (f : Firmware Q) : Inputs where
  ignition := (f.buttons .ignition).state
  indLeft := (f.buttons .indLeft).state
  indRight := (f.buttons .indRight).state
  hazard := (f.buttons .hazard).state
  brake := (f.buttons .brake).state
  doorLock := (f.buttons .doorLock).state
  reverseGear := false
  doorOpen := false
  batteryPermille := f.batteryPermille.toNat
  ambientPermille := 1000

def switchBitmap (f : Firmware Q) : UInt8 :=
  Switch.all.foldl
    (fun bitmap id =>
      if (f.buttons id).state then bitmap ||| (1 <<< UInt8.ofNat id.toNat) else bitmap) 0

/-- What the cycle finds. -/
def snapshot (f : Firmware Q) : Snapshot :=
  ⟨f.inputs, f.switchBitmap, f.linkLost, f.line.uart.overrun⟩

/-- The pins that `drive_outputs` writes: each lamp's, and the buzzer's. -/
def writePins (outputs : OutputStage) (levels : Bsp.Levels) : Bsp.Levels :=
  Bsp.buzzerPin.write
    (LampId.all.foldl (fun levels id => (Bsp.lampPin id).write levels (outputs.lamps id).pin) levels)
    outputs.buzzer

/-- `BcmApp::step`, up to the poll, with no drain of the log in between. -/
def cycle (cfg : Config) (pins : Bsp.Levels) (f : Firmware Q) : Firmware Q :=
  let f := f.readButtons pins kControlMs
  let app := f.app.cycle cfg f.snapshot kControlMs
  let outputs := f.outputs.driveOutputs cfg app.core.lamps app.core.horn.output kControlMs
  { f with
    app := app
    line := f.line.exec .takeOverrun
    outputs := outputs
    levels := writePins outputs f.levels
    logged := f.logged ++ (f.app.gatherInputs f.snapshot).core.records cfg kControlMs }

/-- The command context with the fault store lent to it. -/
def lentContext (f : Firmware Q) : CommandContext :=
  { f.app.cmdCtx with faults := f.app.cmdCtx.faults.map fun _ => f.app.core.faults }

/-- The communication manager, with the transport and the dispatcher it refers to. -/
def comm (f : Firmware Q) : CommMgr (Option CommandContext) Line where
  transport := f.line
  dispatcher := f.app.dispatcher
  context := some f.lentContext
  parser := f.parser
  linkTimer := f.linkTimer
  timeoutMs := CommMgr.kDefaultTimeoutMs
  txFailures := f.txFailures
  linkLost := f.linkLost

/-- The firmware after the manager has run. -/
def withComm (f : Firmware Q) (m : CommMgr (Option CommandContext) Line) : Firmware Q :=
  let ctx := m.context.getD f.lentContext
  { f with
    app :=
      { core := { f.app.core with faults := ctx.faults.getD f.app.core.faults }
        dispatcher := m.dispatcher
        cmdCtx := ctx }
    parser := m.parser
    linkTimer := m.linkTimer
    linkLost := m.linkLost
    txFailures := m.txFailures
    line := m.transport }

/-- One pass of the loop of `poll`. -/
def pollByte (f : Firmware Q) : Option (Firmware Q) :=
  match f.line.uart.read.1 with
  | none => some { f with line := f.line.exec .read }
  | some byte => do
      let f := { f with line := f.line.exec .read, consumed := f.consumed ++ [byte] }
      let (_, m) ← CommMgr.receive writeLine Commands.commandTable (0, f.comm) byte
      return f.withComm m

/-- The end of `poll`. -/
def pollEnd (f : Firmware Q) : Firmware Q := f.withComm (f.comm.superviseLink kControlMs)

/-! ### The other tasks -/

/-- The sensor task, with what the conversion returned. -/
def sample (raw : BitVec 16) (f : Firmware Q) : Firmware Q :=
  let app := f.app.sampleBattery raw
  { f with
    app := app
    batteryPermille := (app.cmdCtx.battery.map AnalogInput.permille).getD 0 }

variable (M : MessageQueue Q LogRecord)

/-- One pass of the monitor's drain, at a tick. -/
def drain (tick : UInt32) (f : Firmware Q) : Firmware Q :=
  match f.app.core.log.pop.1 with
  | none => { f with app := f.app.takeLogEvent }
  | some r =>
      let record := queuedRecord tick r.event r.arg
      { f with
        app := f.app.takeLogEvent
        queue := M.send f.queue record
        offered := f.offered ++ [record] }

/-- The logger task comes out of its wait for a record. -/
def takeRecord (f : Firmware Q) : Firmware Q :=
  if f.held.isSome then f
  else { f with held := (M.receive f.queue).1, queue := (M.receive f.queue).2 }

/-- And writes the frame of the record it has. -/
def writeRecord (f : Firmware Q) : Firmware Q :=
  match f.held with
  | none => f
  | some r =>
      match (logFrame r).encode true kMaxFrameSize with
      | none => { f with held := none }
      | some bytes => { f with held := none, line := f.line.exec (.write (some bytes)) }

inductive Action where
  | cycle (pins : Bsp.Levels)
  | pollByte
  | pollEnd
  | sample (raw : BitVec 16)
  | drain (tick : UInt32)
  | heartbeat
  | takeRecord
  | writeRecord
  | irq (irq : Uart.Irq)

def exec (cfg : Config) (f : Firmware Q) : Action → Option (Firmware Q)
  | .cycle pins => if f.app.cmdCtx.resetRequested then none else some (f.cycle cfg pins)
  | .pollByte => f.pollByte
  | .pollEnd => some f.pollEnd
  | .sample raw => some (f.sample raw)
  | .drain tick => some (f.drain M tick)
  | .heartbeat =>
      some { f with
        levels := Bsp.heartbeatPin.write f.levels (!Bsp.heartbeatPin.read f.levels) }
  | .takeRecord => some (f.takeRecord M)
  | .writeRecord => some f.writeRecord
  | .irq irq =>
      some { f with
        line := f.line.exec (.irq irq)
        received := f.received ++ irq.received.toList }

/-- What the board and the kernel are like when `rtos_start()` begins. -/
structure PowerUp (Q : Type) where
  uart : Uart
  pins : Bsp.Levels
  levels : Bsp.Levels
  wasWatchdog : Bool
  hw : SelfTest.Hardware
  queue : Q

/-- Nothing is pressed, and every part passes its test. -/
def PowerUp.quiet : PowerUp (List LogRecord) where
  uart := .new (Vector.replicate kTxCapacity 0) (Vector.replicate kRxCapacity 0)
  pins := fun _ _ => false
  levels := fun _ _ => false
  wasWatchdog := false
  hw := ⟨true, true, true⟩
  queue := []

/-- `rtos_start()`, up to the start of the scheduler. -/
def start (cfg : Config) (up : PowerUp Q) : Firmware Q where
  app := (BcmApp.new cfg).init up.wasWatchdog
  parser := .new
  linkTimer := SoftTimer.new.start CommMgr.kDefaultTimeoutMs
  linkLost := false
  txFailures := 0
  line := Line.start up.uart
  buttons := fun id => Debouncer.new.reset ((Bsp.switchPin id).read up.pins)
  outputs := .init
  levels := writePins .init up.levels
  batteryPermille := 0
  queue := (startupRecords up.hw).foldl M.send up.queue
  held := none
  logged := []
  offered := startupRecords up.hw
  received := []
  consumed := []

def run (cfg : Config) (up : PowerUp Q) (actions : List Action) : Option (Firmware Q) :=
  PartialRuns.run (exec M cfg) (start M cfg up) actions

variable {M} {cfg : Config} {up : PowerUp Q}

/-- What holds at power up and after one more action, along with the actions so far. -/
theorem history_of_run {I : List Action → Firmware Q → Prop} (hstart : I [] (start M cfg up))
    (hstep : ∀ actions a s t, run M cfg up actions = some s → I actions s →
      exec M cfg s a = some t → I (actions ++ [a]) t)
    {actions : List Action} {f : Firmware Q} (h : run M cfg up actions = some f) : I actions f :=
  PartialRuns.run_history hstart (fun actions a s t hs _ => hstep actions a s t hs)
    (PartialRuns.along_true _ _) h

end Firmware

end Bcm
