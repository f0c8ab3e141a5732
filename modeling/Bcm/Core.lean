import Bcm.Arbiter
import Bcm.Door
import Bcm.Lighting
import Bcm.Power
import Bcm.Records

/-!
# The control cycle

`BcmCore` of `bcm_core.h` and `bcm_core.cpp`: one cycle takes a snapshot of the inputs, runs every
state machine, merges the diagnostic host's requests, arbitrates, and publishes the lamps.

The body of the source is a sequence of blocks. Each block is a function on the core here, and the
cycle is the list of them in source order, so the states between two blocks can be spoken of
(`BcmCore.trail`).
-/

namespace Bcm

structure BcmCore where
  lighting : LightingMgr
  door : DoorMgr
  power : PowerMgr
  horn : HornMgr
  faults : FaultMgr
  log : Logger
  inputs : Inputs
  previous : Inputs
  lamps : LampState
  hostRequest : LampState
  hostMask : BitVec 16
  commsLost : Bool
  hostLock : Bool
  hostUnlock : Bool
  hostLightMode : Bool
  ignitionHeldMs : Nat
  longPressFired : Bool
  prevLoadShed : Bool
  prevCommsLost : Bool
  prevDoor : DoorState
  firstCycle : Bool
  deriving DecidableEq

namespace BcmCore

def new (cfg : Config) : BcmCore where
  lighting := .new cfg
  door := .new
  power := .new cfg
  horn := .new
  faults := .new
  log := .new
  inputs := .initial
  previous := .initial
  lamps := .dark
  hostRequest := .dark
  hostMask := 0
  commsLost := false
  hostLock := false
  hostUnlock := false
  hostLightMode := false
  ignitionHeldMs := 0
  longPressFired := false
  prevLoadShed := false
  prevCommsLost := false
  prevDoor := .locked
  firstCycle := true

def setInputs (s : BcmCore) (inputs : Inputs) : BcmCore := { s with inputs := inputs }

def setCommsLost (s : BcmCore) (lost : Bool) : BcmCore := { s with commsLost := lost }

def setHostRequest (s : BcmCore) (request : LampState) (mask : BitVec 16) : BcmCore :=
  { s with hostRequest := request, hostMask := mask }

def requestDoorLock (s : BcmCore) : BcmCore := { s with hostLock := true }

def requestDoorUnlock (s : BcmCore) : BcmCore := { s with hostUnlock := true }

def requestLightMode (s : BcmCore) : BcmCore := { s with hostLightMode := true }

/-- `log_.log(0U, event, arg)`: the core stamps every record with zero. -/
def logEvent (s : BcmCore) (event : LogEvent) (arg : Nat := 0) : BcmCore :=
  { s with log := s.log.log 0 event arg }

/-! ### `apply_edges`, block by block -/

/-- On the first cycle the history is seeded, so that no input looks like an edge. -/
def seedHistory (s : BcmCore) : BcmCore := { s with previous := s.inputs, firstCycle := false }

/-- Ignition held: the 16-bit hold time, and the long press that steps the lights once a hold. -/
def holdIgnition (cfg : Config) (dtMs : Nat) (s : BcmCore) : BcmCore :=
  if s.inputs.ignition then
    let s := { s with ignitionHeldMs := (s.ignitionHeldMs + dtMs) % 2 ^ 16 }
    if !s.longPressFired && decide (cfg.longPressMs ≤ s.ignitionHeldMs) then
      let s := { s with longPressFired := true, lighting := s.lighting.nextMode }
      s.logEvent .lightMode s.lighting.lightState.toNat
    else s
  else s

/-- Ignition released: a short press toggles the power state. -/
def releaseIgnition (cfg : Config) (s : BcmCore) : BcmCore :=
  if !s.inputs.ignition && s.previous.ignition then
    let s :=
      if !s.longPressFired then
        if s.power.running then
          let s := { s with power := s.power.ignitionOff }
          let s := s.logEvent .ignitionOff
          { s with lighting := s.lighting.allOff }
        else
          let s := { s with power := s.power.ignitionOn cfg }
          s.logEvent .ignitionOn
      else s
    { s with ignitionHeldMs := 0, longPressFired := false }
  else s

def pressIndicatorLeft (s : BcmCore) : BcmCore :=
  if s.inputs.indLeft && !s.previous.indLeft then
    let s := { s with lighting := s.lighting.indicatorLeft }
    s.logEvent .indicatorLeft
  else s

def pressIndicatorRight (s : BcmCore) : BcmCore :=
  if s.inputs.indRight && !s.previous.indRight then
    let s := { s with lighting := s.lighting.indicatorRight }
    s.logEvent .indicatorRight
  else s

def pressHazard (s : BcmCore) : BcmCore :=
  if s.inputs.hazard && !s.previous.hazard then
    let s := { s with lighting := s.lighting.indicatorHazard }
    s.logEvent (if s.lighting.indicatorState = .hazard then .hazardOn else .hazardOff)
  else s

def readDoorOpen (s : BcmCore) : BcmCore := { s with door := s.door.setDoorOpen s.inputs.doorOpen }

def pressDoorLock (cfg : Config) (s : BcmCore) : BcmCore :=
  if s.inputs.doorLock && !s.previous.doorLock then
    if s.door.locked then { s with door := s.door.requestUnlock cfg }
    else { s with door := s.door.requestLock }
  else s

def takeHostLock (s : BcmCore) : BcmCore :=
  if s.hostLock then { s with hostLock := false, door := s.door.requestLock } else s

def takeHostUnlock (cfg : Config) (s : BcmCore) : BcmCore :=
  if s.hostUnlock then { s with hostUnlock := false, door := s.door.requestUnlock cfg } else s

def takeHostLightMode (s : BcmCore) : BcmCore :=
  if s.hostLightMode then { s with hostLightMode := false, lighting := s.lighting.nextMode } else s

def logBrakeChange (s : BcmCore) : BcmCore :=
  if s.inputs.brake ≠ s.previous.brake then
    s.logEvent (if s.inputs.brake then .brakeApplied else .brakeReleased)
  else s

def rememberInputs (s : BcmCore) : BcmCore := { s with previous := s.inputs }

/-- The blocks of `apply_edges` after its early return. -/
def edgeBlocks (cfg : Config) (dtMs : Nat) : List (BcmCore → BcmCore) :=
  [holdIgnition cfg dtMs, releaseIgnition cfg, pressIndicatorLeft, pressIndicatorRight,
    pressHazard, readDoorOpen, pressDoorLock cfg, takeHostLock, takeHostUnlock cfg,
    takeHostLightMode, logBrakeChange, rememberInputs]

/-! ### `step`, block by block -/

def readSensors (s : BcmCore) : BcmCore :=
  { s with
    lighting := s.lighting.updateAmbient s.inputs.ambientPermille
    power := s.power.updateBattery s.inputs.batteryPermille }

def updatePower (cfg : Config) (dtMs : Nat) (s : BcmCore) : BcmCore :=
  { s with power := s.power.update cfg dtMs }

def updateDoorWelcome (cfg : Config) (dtMs : Nat) (s : BcmCore) : BcmCore :=
  { s with door := s.door.updateWelcome cfg dtMs }

def updateDoorAutoLock (cfg : Config) (dtMs : Nat) (s : BcmCore) : BcmCore :=
  { s with door := s.door.updateAutoLock cfg dtMs }

def reportLockRefused (s : BcmCore) : BcmCore :=
  let (refused, door) := s.door.takeLockRefused
  let s := { s with door := door }
  if refused then
    let s := { s with faults := s.faults.set Dtc.lockRefusedDoorOpen }
    s.logEvent .lockRefused
  else s

def chirpHorn (cfg : Config) (s : BcmCore) : BcmCore :=
  let (lock, door) := s.door.takeChirpLock
  let s := { s with door := door, horn := if lock then s.horn.chirp cfg 1 else s.horn }
  let (unlock, door) := s.door.takeChirpUnlock
  { s with door := door, horn := if unlock then s.horn.chirp cfg 2 else s.horn }

def reportFaults (s : BcmCore) : BcmCore :=
  let faults :=
    if s.power.loadShed then s.faults.set Dtc.batteryLow else s.faults.clear Dtc.batteryLow
  { s with
    faults := if s.commsLost then faults.set Dtc.commsLost else faults.clear Dtc.commsLost }

def logLoadShedChange (s : BcmCore) : BcmCore :=
  if s.power.loadShed ≠ s.prevLoadShed then
    let s := { s with prevLoadShed := s.power.loadShed }
    s.logEvent (if s.prevLoadShed then .batteryLow else .batteryOk)
  else s

def logCommsChange (s : BcmCore) : BcmCore :=
  if s.commsLost ≠ s.prevCommsLost then
    let s := { s with prevCommsLost := s.commsLost }
    s.logEvent (if s.prevCommsLost then .commsLost else .commsRestored)
  else s

def logDoorChange (s : BcmCore) : BcmCore :=
  if s.door.state ≠ s.prevDoor then
    let s := { s with prevDoor := s.door.state }
    s.logEvent (if s.prevDoor = .locked then .doorLocked else .doorUnlocked)
  else s

def wanted (s : BcmCore) : LampState := s.door.apply (s.lighting.apply (s.power.apply .dark))

def mergeHost (request : LampState) (mask : BitVec 16) (lamps : LampState) : LampState :=
  ⟨fun id => if mask.getLsbD id.toNat then request.drive id else lamps.drive id⟩

def arbiterInputs (s : BcmCore) : ArbiterInputs where
  brakePressed := s.inputs.brake
  reverseGear := s.inputs.reverseGear
  lampsPermitted := s.power.lampsPermitted
  loadShed := s.power.loadShed
  commsLost := s.commsLost

def driveLamps (s : BcmCore) : BcmCore :=
  { s with
    lamps := LampArbiter.arbitrate (mergeHost s.hostRequest s.hostMask s.wanted) s.arbiterInputs }

def updateHorn (cfg : Config) (dtMs : Nat) (s : BcmCore) : BcmCore :=
  { s with horn := s.horn.update cfg dtMs }

def cycleBlocks (cfg : Config) (dtMs : Nat) : List (BcmCore → BcmCore) :=
  [readSensors, updatePower cfg dtMs, updateDoorWelcome cfg dtMs, updateDoorAutoLock cfg dtMs,
    reportLockRefused, chirpHorn cfg, reportFaults, logLoadShedChange, logCommsChange,
    logDoorChange, driveLamps, updateHorn cfg dtMs]

/-! ### Running the blocks -/

def runBlocks (blocks : List (BcmCore → BcmCore)) (s : BcmCore) : BcmCore :=
  blocks.foldl (fun s block => block s) s

def applyEdges (cfg : Config) (dtMs : Nat) (s : BcmCore) : BcmCore :=
  if s.firstCycle then s.seedHistory else runBlocks (edgeBlocks cfg dtMs) s

def step (cfg : Config) (dtMs : Nat) (s : BcmCore) : BcmCore :=
  runBlocks (cycleBlocks cfg dtMs) (s.applyEdges cfg dtMs)

/-- The blocks one cycle runs from a state. -/
def blocksFrom (cfg : Config) (dtMs : Nat) (s : BcmCore) : List (BcmCore → BcmCore) :=
  (if s.firstCycle then [seedHistory] else edgeBlocks cfg dtMs) ++ cycleBlocks cfg dtMs

/-- Every state of the core during one cycle, between its blocks, first and last included. -/
def trail (cfg : Config) (dtMs : Nat) (s : BcmCore) : List BcmCore :=
  (s.blocksFrom cfg dtMs).scanl (fun s block => block s) s

/-- `reset()` keeps the host's lamp request and clears only its mask. -/
def reset (s : BcmCore) : BcmCore :=
  { s with
    lighting := s.lighting.reset
    door := s.door.reset
    power := s.power.reset
    horn := s.horn.reset
    faults := s.faults.clearAll
    log := s.log.clear
    inputs := .initial
    previous := .initial
    lamps := .dark
    hostMask := 0
    commsLost := false
    hostLock := false
    hostUnlock := false
    hostLightMode := false
    ignitionHeldMs := 0
    longPressFired := false
    prevLoadShed := false
    prevCommsLost := false
    prevDoor := .locked
    firstCycle := true }

end BcmCore

end Bcm
