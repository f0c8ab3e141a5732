import Bcm.DesktopClient
import Bcm.FrameCodec
import Bcm.Lib.MessageQueue
import Bcm.Post
import Bcm.Records

/-!
# Event frames

How a log record travels: `queue_log`, the start and the logger task of `rtos_app.cpp` on the one
side, and `DispatchEvent` of the desktop tool on the other (`BcmClient.cs`, `Frame.cs`). The log
queue is the kernel's.
-/

namespace Bcm

namespace LogEvent

/-- `static_cast<uint8_t>(event)`. -/
def toUInt8 : LogEvent → UInt8
  | none => 0
  | startup => 1
  | postPassed => 2
  | postFailed => 3
  | ignitionOn => 4
  | ignitionOff => 5
  | lightMode => 6
  | indicatorLeft => 7
  | indicatorRight => 8
  | hazardOn => 9
  | hazardOff => 10
  | brakeApplied => 11
  | brakeReleased => 12
  | doorLocked => 13
  | doorUnlocked => 14
  | lockRefused => 15
  | autoLocked => 16
  | batteryLow => 17
  | batteryOk => 18
  | commsLost => 19
  | commsRestored => 20
  | watchdogReset => 21
  | loadShed => 22

end LogEvent

def kLogQueueLength : Nat := 16

/-- The record that `queue_log(event, arg)` sends at a tick. A tick is a millisecond. -/
def queuedRecord (tick : UInt32) (event : LogEvent) (arg : Nat) : LogRecord :=
  ⟨tick.toNat, event, arg⟩

/-- The records queued before the scheduler starts: the verdict of the self test, with its mask of
failures, and the startup. -/
def startupRecords (hw : SelfTest.Hardware) : List LogRecord :=
  let diag := SelfTest.runPost hw .new
  [queuedRecord 0 (if diag.postPassed then .postPassed else .postFailed) diag.postFailures.toNat,
    queuedRecord 0 .startup 0]

/-- The frame that `task_logger` makes of a record. -/
def logFrame (r : LogRecord) : Frame where
  cmd := Cmd.logEvent.toUInt8 ||| kResponseFlag
  len := 6
  payload :=
    (((((Frame.new.payload.setIfInBounds 0 (UInt8.ofNat (r.timestampMs >>> 24))).setIfInBounds 1
      (UInt8.ofNat (r.timestampMs >>> 16))).setIfInBounds 2
      (UInt8.ofNat (r.timestampMs >>> 8))).setIfInBounds 3
      (UInt8.ofNat r.timestampMs)).setIfInBounds 4 r.event.toUInt8).setIfInBounds 5
      (UInt8.ofNat r.arg)

namespace Desktop

/-- `ReadUInt32`, big-endian. -/
def Frame.readUInt32 (f : Frame) (offset : Nat) (h : offset + 3 < f.payload.length) : BitVec 32 :=
  (f.payload[offset].toBitVec.setWidth 32 <<< 24) |||
    (f.payload[offset + 1].toBitVec.setWidth 32 <<< 16) |||
    (f.payload[offset + 2].toBitVec.setWidth 32 <<< 8) |||
    f.payload[offset + 3].toBitVec.setWidth 32

structure BcmEventArgs where
  timestampMs : BitVec 32
  event : UInt8
  arg : UInt8
  deriving DecidableEq, Repr

/-- `DispatchEvent`, with `none` for a frame it ignores. -/
def dispatchEvent (f : Frame) : Option BcmEventArgs :=
  if h : f.payload.length < 6 then none
  else some ⟨f.readUInt32 0 (by omega), f.payload[4], f.payload[5]⟩

/-- What `ReadLoop` raises for a complete frame. -/
def eventOf (f : Frame) : Option BcmEventArgs :=
  if f.cmd = logEventCmd then dispatchEvent f else none

end Desktop

end Bcm
