import Bcm.Arbiter
import Bcm.Dispatcher
import Bcm.Records

/-!
# The command handlers

The handlers of the diagnostic protocol and their table (`commands.h`, `commands.cpp`). A pointer of
the context is an `Option` here, and so is the pointer to the context itself.
-/

namespace Bcm

/-- Everything the handlers are allowed to touch. -/
structure CommandContext where
  hostRequest : Option LampState
  hostMask : BitVec 16
  actual : Option LampState
  battery : Option AnalogInput
  faults : Option FaultMgr
  switchBitmap : UInt8
  powerState : UInt8
  resetRequested : Bool
  doorLockRequested : Bool
  doorUnlockRequested : Bool

namespace CommandContext

def new : CommandContext where
  hostRequest := none
  hostMask := 0
  actual := none
  battery := none
  faults := none
  switchBitmap := 0
  powerState := 0
  resetRequested := false
  doorLockRequested := false
  doorUnlockRequested := false

end CommandContext

namespace Commands

/-- `static_cast<uint8_t>((word >> 8) & 0xFF)`. -/
def highByte (word : BitVec 16) : UInt8 := ⟨(word >>> 8).setWidth 8⟩

/-- `static_cast<uint8_t>(word & 0xFF)`. -/
def lowByte (word : BitVec 16) : UInt8 := ⟨word.setWidth 8⟩

/-- The loop of a handler that copies `count` bytes into the payload from `start` on. -/
def copyPayload (read : Nat → Option UInt8) (start count : Nat) (response : Frame) : Option Frame :=
  (List.range count).foldlM
    (fun response i => do response.write (start + i) (← read i)) response

abbrev Handler : Type := CommandHandler (Option CommandContext)

def handlePing : Handler := fun request response context => do
  let response := { response with len := 1 + request.len }
  let response ← copyPayload request.read 1 request.len.toNat response
  return (true, response, context)

def handleGetVersion : Handler := fun _ response context => do
  let response := { response with len := 4 }
  let response ← response.write 1 kVersionMajor
  let response ← response.write 2 kVersionMinor
  let response ← response.write 3 kVersionPatch
  return (true, response, context)

def handleGetStatus : Handler := fun _ response context => do
  let lamps := ((context.bind (·.actual)).map LampState.bitmap).getD 0
  let response := { response with len := 5 }
  let response ← response.write 1 (highByte lamps)
  let response ← response.write 2 (lowByte lamps)
  let response ← response.write 3 ((context.map (·.switchBitmap)).getD 0)
  let response ← response.write 4 ((context.map (·.powerState)).getD 0)
  return (true, response, context)

def badParameter : Handler := fun _ response context => do
  let response ← response.write 0 Status.badParameter.toUInt8
  return (true, response, context)

/-- SET_LAMP records a host request, which arbitration may still refuse. -/
def handleSetLamp : Handler := fun request response context => do
  let id ← request.read 0
  match LampId.ofNat? id.toNat, context, context.bind (·.hostRequest) with
  | some lamp, some c, some hostRequest =>
      let on ← request.read 1
      let drive := if on ≠ 0 then LampDrive.on else LampDrive.off
      let c :=
        { c with
          hostRequest := some (hostRequest.set lamp drive)
          hostMask := c.hostMask ||| (1#16 <<< lamp.toNat) }
      return (true, response, some c)
  | _, _, _ => badParameter request response context

def handleGetLamp : Handler := fun request response context => do
  let id ← request.read 0
  match LampId.ofNat? id.toNat, context.bind (·.actual) with
  | some lamp, some actual =>
      let response := { response with len := 2 }
      let response ← response.write 1 (if actual.get lamp ≠ .off then 1 else 0)
      return (true, response, context)
  | _, _ => badParameter request response context

def handleGetBattery : Handler := fun _ response context => do
  let permille := ((context.bind (·.battery)).map AnalogInput.permille).getD 0
  let response := { response with len := 3 }
  let response ← response.write 1 (highByte permille)
  let response ← response.write 2 (lowByte permille)
  return (true, response, context)

/-- GET_DTC answers with the count and the active codes, as many as fit after status and count. -/
def handleGetDtc : Handler := fun _ response context =>
  match context.bind (·.faults) with
  | none => do
      let response := { response with len := 2 }
      let response ← response.write 1 0
      return (true, response, context)
  | some faults => do
      let codes := faults.activeCodes (kMaxPayload.toNat - 2)
      let response := { response with len := 2 + UInt8.ofNat codes.length }
      let response ← response.write 1 (UInt8.ofNat codes.length)
      let response ← copyPayload (codes[·]?) 2 codes.length response
      return (true, response, context)

def handleClearDtc : Handler := fun _ response context =>
  some (true, response, context.map fun c => { c with faults := c.faults.map FaultMgr.clearAll })

/-- RESET is flagged, and the main loop performs it after the reply. -/
def handleReset : Handler := fun _ response context =>
  some (true, response, context.map fun c => { c with resetRequested := true })

def handleHeartbeat : Handler := fun _ response context => some (true, response, context)

/-- A door command raises a request; the door machine may still refuse it. -/
def requestDoor (raise : CommandContext → CommandContext) : Handler :=
  fun request response context =>
    match context with
    | none => badParameter request response none
    | some c => some (true, response, some (raise c))

def handleDoorLock : Handler := requestDoor fun c => { c with doorLockRequested := true }

def handleDoorUnlock : Handler := requestDoor fun c => { c with doorUnlockRequested := true }

def commandTable : List (CommandEntry (Option CommandContext)) :=
  [⟨Cmd.ping.toUInt8, some handlePing, 0⟩,
    ⟨Cmd.getVersion.toUInt8, some handleGetVersion, 0⟩,
    ⟨Cmd.getStatus.toUInt8, some handleGetStatus, 0⟩,
    ⟨Cmd.setLamp.toUInt8, some handleSetLamp, 2⟩,
    ⟨Cmd.getLamp.toUInt8, some handleGetLamp, 1⟩,
    ⟨Cmd.doorLock.toUInt8, some handleDoorLock, 0⟩,
    ⟨Cmd.doorUnlock.toUInt8, some handleDoorUnlock, 0⟩,
    ⟨Cmd.getBattery.toUInt8, some handleGetBattery, 0⟩,
    ⟨Cmd.getDtc.toUInt8, some handleGetDtc, 0⟩,
    ⟨Cmd.clearDtc.toUInt8, some handleClearDtc, 0⟩,
    ⟨Cmd.reset.toUInt8, some handleReset, 0⟩,
    ⟨Cmd.heartbeat.toUInt8, some handleHeartbeat, 0⟩]

end Commands

end Bcm
