import Bcm.Commands
import Bcm.Core

/-!
# The application

`BcmApp` (`bcm_app.h`, `bcm_app.cpp`): a cycle forwards what the diagnostic host asked for to the
core and steps it, and then the requests that have arrived are dispatched. What a cycle reads from
the hardware is a snapshot here. The board has not wired every one of its inputs, and a snapshot may
say anything of any of them.

The host's lamp request and the copy of the lamps are where the command context points, so they are
fields of it. The fault store belongs to the core and is lent to the context for each dispatch.
-/

namespace Bcm

def PowerState.toUInt8 : PowerState → UInt8
  | sleep => 0
  | wake => 1
  | run => 2
  | shutdown => 3

/-- What a cycle finds on the pins, on the link and in the UART. -/
structure Snapshot where
  inputs : Inputs
  switchBitmap : UInt8
  linkLost : Bool
  overrun : Bool

structure BcmApp where
  core : BcmCore
  dispatcher : Dispatcher
  cmdCtx : CommandContext

namespace BcmApp

def batteryChannel : Nat := 6

def new (cfg : Config) : BcmApp := ⟨.new cfg, .new, .new⟩

/-- `init()`, with the cause of the last restart. -/
def init (a : BcmApp) (wasWatchdog : Bool := false) : BcmApp :=
  let core :=
    if wasWatchdog then { a.core with faults := a.core.faults.set Dtc.watchdogReset } else a.core
  { a with
    core := core
    cmdCtx :=
      { a.cmdCtx with
        hostRequest := some .dark
        actual := some .dark
        battery := some ⟨batteryChannel, .new⟩
        faults := some core.faults } }

def gatherInputs (board : Snapshot) (a : BcmApp) : BcmApp :=
  let core := (a.core.setInputs board.inputs).setCommsLost board.linkLost
  let ctx :=
    { a.cmdCtx with
      switchBitmap := board.switchBitmap
      powerState := core.power.state.toUInt8 }
  let core := core.setHostRequest (ctx.hostRequest.getD .dark) ctx.hostMask
  let core := if ctx.doorLockRequested then core.requestDoorLock else core
  let core := if ctx.doorUnlockRequested then core.requestDoorUnlock else core
  let ctx := { ctx with doorLockRequested := false, doorUnlockRequested := false }
  let core :=
    if board.overrun then { core with faults := core.faults.set Dtc.uartOverrun } else core
  { a with core := core, cmdCtx := ctx }

/-- `drive_outputs`, of which the diagnostic link sees the copy of the lamps. -/
def driveOutputs (a : BcmApp) : BcmApp :=
  { a with cmdCtx := { a.cmdCtx with actual := a.cmdCtx.actual.map fun _ => a.core.lamps } }

/-- The control cycle, up to the poll of the link. -/
def cycle (cfg : Config) (board : Snapshot) (dtMs : Nat) (a : BcmApp) : BcmApp :=
  let a := a.gatherInputs board
  { a with core := a.core.step cfg dtMs }.driveOutputs

/-- The dispatch of one request: whether to reply, and with what. -/
def serve (a : BcmApp) (request : Frame) : Option (Bool × Frame × BcmApp) := do
  let lent := { a.cmdCtx with faults := a.cmdCtx.faults.map fun _ => a.core.faults }
  let (reply, response, dispatcher, ctx) ←
    a.dispatcher.dispatch Commands.commandTable request .new (some lent)
  let ctx := ctx.getD lent
  return (reply, response,
    { core := { a.core with faults := ctx.faults.getD a.core.faults }
      dispatcher := dispatcher
      cmdCtx := ctx })

/-- The requests of one poll, with the replies to them. -/
def serveAll (a : BcmApp) : List Frame → Option (List Frame × BcmApp)
  | [] => some ([], a)
  | request :: requests => do
      let (reply, response, a) ← a.serve request
      let (responses, a) ← a.serveAll requests
      return (if reply then response :: responses else responses, a)

/-- `step(dt_ms)`. A requested reset restarts the controller once the poll is over. -/
def step (cfg : Config) (board : Snapshot) (dtMs : Nat) (requests : List Frame) (a : BcmApp) :
    Option BcmApp := do
  let (_, a) ← (a.cycle cfg board dtMs).serveAll requests
  return if a.cmdCtx.resetRequested then (new cfg).init else a

end BcmApp

/-- What the tasks do to the application. -/
inductive AppOp where
  | step (board : Snapshot) (dtMs : Nat) (requests : List Frame)
  | sampleBattery (sample : BitVec 16)
  | takeLogEvent

namespace BcmApp

def sampleBattery (sample : BitVec 16) (a : BcmApp) : BcmApp :=
  { a with
    cmdCtx :=
      { a.cmdCtx with
        battery := a.cmdCtx.battery.map fun b => { b with filter := (b.filter.update sample).2 } } }

def takeLogEvent (a : BcmApp) : BcmApp :=
  { a with core := { a.core with log := a.core.log.pop.2 } }

def exec (cfg : Config) (a : BcmApp) : AppOp → Option BcmApp
  | .step board dtMs requests => a.step cfg board dtMs requests
  | .sampleBattery sample => some (a.sampleBattery sample)
  | .takeLogEvent => some a.takeLogEvent

def run (cfg : Config) (ops : List AppOp) : Option BcmApp :=
  ops.foldlM (exec cfg) ((new cfg).init)

end BcmApp

end Bcm
