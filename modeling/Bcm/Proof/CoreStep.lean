import Bcm.CoreRun

/-!
# What one cycle does to each part of the core

The blocks of a cycle touch the managers one at a time. Read off for one manager, a cycle is the
edges that concern it followed by its own update, and nothing else: that is what the lemmas below
say, and no later proof unfolds a block again.
-/

namespace Bcm.BcmCore

variable (cfg : Config) (dtMs : Nat) (s : BcmCore)

/-- This cycle releases the ignition of a hold that fired no long press: the short press. -/
def shortPress : Bool :=
  !s.firstCycle && (!s.inputs.ignition && s.previous.ignition) && !s.longPressFired

/-- The short press taken in Run, which is the ignition-off press. -/
def ignitionOffPress : Bool := s.shortPress && s.power.running

/-! ### Block by block

What a block does to the core. The records it logs are spoken of elsewhere. -/

theorem pressIndicatorLeft_eq :
    pressIndicatorLeft s =
      { s with
        lighting :=
          if s.inputs.indLeft && !s.previous.indLeft then s.lighting.indicatorLeft else s.lighting
        log := s.pressIndicatorLeft.log } := by
  unfold pressIndicatorLeft
  split <;> rfl

theorem pressIndicatorRight_eq :
    pressIndicatorRight s =
      { s with
        lighting :=
          if s.inputs.indRight && !s.previous.indRight then s.lighting.indicatorRight
          else s.lighting
        log := s.pressIndicatorRight.log } := by
  unfold pressIndicatorRight
  split <;> rfl

theorem pressHazard_eq :
    pressHazard s =
      { s with
        lighting :=
          if s.inputs.hazard && !s.previous.hazard then s.lighting.indicatorHazard else s.lighting
        log := s.pressHazard.log } := by
  unfold pressHazard
  split <;> rfl

def doorSwitch : Bool := s.inputs.doorLock && !s.previous.doorLock

theorem pressDoorLock_eq :
    pressDoorLock cfg s =
      { s with
        door :=
          if s.doorSwitch then
            (if s.door.locked then s.door.requestUnlock cfg else s.door.requestLock)
          else s.door } := by
  unfold pressDoorLock doorSwitch
  split
  · split <;> rfl
  · rfl

theorem takeHostLock_eq :
    takeHostLock s =
      { s with hostLock := false, door := if s.hostLock then s.door.requestLock else s.door } := by
  unfold takeHostLock
  split
  case isTrue htaken => rfl
  case isFalse hnone => rw [← Bool.eq_false_iff.mpr hnone]

theorem takeHostUnlock_eq :
    takeHostUnlock cfg s =
      { s with
        hostUnlock := false
        door := if s.hostUnlock then s.door.requestUnlock cfg else s.door } := by
  unfold takeHostUnlock
  split
  case isTrue htaken => rfl
  case isFalse hnone => rw [← Bool.eq_false_iff.mpr hnone]

theorem takeHostLightMode_eq :
    takeHostLightMode s =
      { s with
        hostLightMode := false
        lighting := if s.hostLightMode then s.lighting.nextMode else s.lighting } := by
  unfold takeHostLightMode
  split
  case isTrue htaken => rfl
  case isFalse hnone => rw [← Bool.eq_false_iff.mpr hnone]

theorem logBrakeChange_eq : logBrakeChange s = { s with log := s.logBrakeChange.log } := by
  unfold logBrakeChange
  split <;> rfl

theorem reportLockRefused_eq :
    reportLockRefused s =
      { s with
        door := s.door.takeLockRefused.2
        faults :=
          if s.door.ctx.lockRefused then s.faults.set Dtc.lockRefusedDoorOpen else s.faults
        log := s.reportLockRefused.log } := by
  unfold reportLockRefused DoorMgr.takeLockRefused
  dsimp only
  split <;> rfl

theorem logLoadShedChange_eq :
    logLoadShedChange s =
      { s with prevLoadShed := s.power.loadShed, log := s.logLoadShedChange.log } := by
  unfold logLoadShedChange
  split
  case isTrue hchange => rfl
  case isFalse hsame => rw [not_not.mp hsame]

theorem logCommsChange_eq :
    logCommsChange s = { s with prevCommsLost := s.commsLost, log := s.logCommsChange.log } := by
  have hkeep : ∀ lost, lost = s.prevCommsLost → s = { s with prevCommsLost := lost } := by
    rintro _ rfl
    rfl
  unfold logCommsChange
  split
  case isTrue hchange => rfl
  case isFalse hsame => exact hkeep s.commsLost (not_not.mp hsame)

theorem logDoorChange_eq :
    logDoorChange s = { s with prevDoor := s.door.state, log := s.logDoorChange.log } := by
  unfold logDoorChange
  split
  case isTrue hchange => rfl
  case isFalse hsame => rw [not_not.mp hsame]

/-! ### Before the managers update -/

/-- The door after the requests of one cycle, the switch first and the host's unlock last. -/
def requestedDoor : DoorMgr :=
  let d := s.door.setDoorOpen s.inputs.doorOpen
  let d := if s.doorSwitch then (if d.locked then d.requestUnlock cfg else d.requestLock) else d
  let d := if s.hostLock then d.requestLock else d
  if s.hostUnlock then d.requestUnlock cfg else d

/-- What every request keeps the requests of a cycle keep. -/
theorem requestedDoor_keeps {cfg : Config} {s : BcmCore} {P : DoorMgr → Prop} (hread : P (s.door.setDoorOpen s.inputs.doorOpen))
    (hunlock : ∀ d : DoorMgr, P d → P (d.requestUnlock cfg))
    (hlock : ∀ d : DoorMgr, P d → P d.requestLock) : P (s.requestedDoor cfg) := by
  have hpress : ∀ d : DoorMgr, P d → P (if s.doorSwitch then
      (if d.locked then d.requestUnlock cfg else d.requestLock) else d) := by
    intro d hd
    split
    · split
      · exact hunlock d hd
      · exact hlock d hd
    · exact hd
  have hhost : ∀ d : DoorMgr, P d → P (if s.hostLock then d.requestLock else d) := by
    intro d hd
    split
    · exact hlock d hd
    · exact hd
  have hpressed := hhost _ (hpress _ hread)
  unfold requestedDoor
  dsimp only
  split
  · exact hunlock _ hpressed
  · exact hpressed

/-- The lighting after the ignition of one cycle: the long press steps the mode, and the
ignition-off press puts everything out. -/
def ignitionLighting : LightingMgr :=
  if s.inputs.ignition then
    if !s.longPressFired && decide (cfg.longPressMs ≤ (s.ignitionHeldMs + dtMs) % 2 ^ 16) then
      s.lighting.nextMode
    else s.lighting
  else if s.previous.ignition && !s.longPressFired && s.power.running then s.lighting.allOff
  else s.lighting

/-- The lighting after the presses of one cycle, the ignition first and the host's mode step
last. -/
def pressedLighting : LightingMgr :=
  let m := s.ignitionLighting cfg dtMs
  let m := if s.inputs.indLeft && !s.previous.indLeft then m.indicatorLeft else m
  let m := if s.inputs.indRight && !s.previous.indRight then m.indicatorRight else m
  let m := if s.inputs.hazard && !s.previous.hazard then m.indicatorHazard else m
  if s.hostLightMode then m.nextMode else m

/-- The two ignition blocks. The time of the hold is spoken of elsewhere. -/
theorem ignition_eq :
    ∃ heldMs fired log, releaseIgnition cfg (holdIgnition cfg dtMs s) =
      { s with
        lighting := s.ignitionLighting cfg dtMs
        power :=
          if !s.inputs.ignition && s.previous.ignition && !s.longPressFired then
            if s.power.running then s.power.ignitionOff else s.power.ignitionOn cfg
          else s.power
        ignitionHeldMs := heldMs
        longPressFired := fired
        log := log } := by
  unfold ignitionLighting
  cases hon : s.inputs.ignition with
  | true =>
      have hrelease : ∀ t : BcmCore, t.inputs.ignition = true → releaseIgnition cfg t = t := by
        intro t ht
        simp [releaseIgnition, ht]
      unfold holdIgnition
      rw [if_pos hon]
      dsimp only
      split
      · exact ⟨_, _, _, hrelease _ hon⟩
      · exact ⟨_, _, _, hrelease _ hon⟩
  | false =>
      have hhold : holdIgnition cfg dtMs s = s := by simp [holdIgnition, hon]
      rw [hhold]
      unfold releaseIgnition
      cases s.previous.ignition <;> cases s.longPressFired <;> cases s.power.running <;>
        rw [hon] <;> exact ⟨_, _, _, rfl⟩

/-- **What the edges do.** -/
theorem edges_eq :
    ∃ log, runBlocks (edgeBlocks cfg dtMs) s =
      { releaseIgnition cfg (holdIgnition cfg dtMs s) with
        lighting := s.pressedLighting cfg dtMs
        door := s.requestedDoor cfg
        log := log
        previous := s.inputs
        hostLock := false
        hostUnlock := false
        hostLightMode := false } := by
  obtain ⟨_, _, _, hignition⟩ := s.ignition_eq cfg dtMs
  simp only [runBlocks, edgeBlocks, List.foldl_cons, List.foldl_nil, hignition]
  rw [pressIndicatorLeft_eq, pressIndicatorRight_eq, pressHazard_eq, readDoorOpen, pressDoorLock_eq,
    takeHostLock_eq, takeHostUnlock_eq, takeHostLightMode_eq, logBrakeChange_eq, rememberInputs]
  exact ⟨_, rfl⟩

/-- **What the cycle does before its managers update.** The first cycle looks at the inputs and
leaves the rest. -/
theorem applyEdges_eq :
    ∃ heldMs fired log, s.applyEdges cfg dtMs =
      { s with
        lighting := if s.firstCycle then s.lighting else s.pressedLighting cfg dtMs
        power :=
          if s.shortPress then
            if s.power.running then s.power.ignitionOff else s.power.ignitionOn cfg
          else s.power
        door := if s.firstCycle then s.door else s.requestedDoor cfg
        ignitionHeldMs := heldMs
        longPressFired := fired
        log := log
        previous := s.inputs
        firstCycle := false
        hostLock := s.firstCycle && s.hostLock
        hostUnlock := s.firstCycle && s.hostUnlock
        hostLightMode := s.firstCycle && s.hostLightMode } := by
  obtain ⟨_, hedges⟩ := s.edges_eq cfg dtMs
  obtain ⟨_, _, _, hignition⟩ := s.ignition_eq cfg dtMs
  unfold applyEdges shortPress
  cases hfirst : s.firstCycle with
  | true => exact ⟨_, _, _, rfl⟩
  | false =>
      rw [if_neg Bool.false_ne_true, hedges, hignition]
      simp only [hfirst]
      exact ⟨_, _, _, rfl⟩

theorem applyEdges_power :
    (s.applyEdges cfg dtMs).power =
      if s.shortPress then
        if s.power.running then s.power.ignitionOff else s.power.ignitionOn cfg
      else s.power := by
  obtain ⟨_, _, _, hedges⟩ := s.applyEdges_eq cfg dtMs
  rw [hedges]

theorem applyEdges_door :
    (s.applyEdges cfg dtMs).door = if s.firstCycle then s.door else s.requestedDoor cfg := by
  obtain ⟨_, _, _, hedges⟩ := s.applyEdges_eq cfg dtMs
  rw [hedges]

theorem applyEdges_lighting :
    (s.applyEdges cfg dtMs).lighting =
      if s.firstCycle then s.lighting else s.pressedLighting cfg dtMs := by
  obtain ⟨_, _, _, hedges⟩ := s.applyEdges_eq cfg dtMs
  rw [hedges]

theorem applyEdges_frame :
    (s.applyEdges cfg dtMs).inputs = s.inputs ∧
      (s.applyEdges cfg dtMs).previous = s.inputs ∧
      (s.applyEdges cfg dtMs).firstCycle = false ∧
      (s.applyEdges cfg dtMs).commsLost = s.commsLost ∧
      (s.applyEdges cfg dtMs).hostRequest = s.hostRequest ∧
      (s.applyEdges cfg dtMs).hostMask = s.hostMask := by
  obtain ⟨_, _, _, hedges⟩ := s.applyEdges_eq cfg dtMs
  rw [hedges]
  exact ⟨rfl, rfl, rfl, rfl, rfl, rfl⟩

/-- The host's requests are taken, except by the first cycle, which leaves them. -/
theorem applyEdges_host :
    (s.applyEdges cfg dtMs).hostLock = (s.firstCycle && s.hostLock) ∧
      (s.applyEdges cfg dtMs).hostUnlock = (s.firstCycle && s.hostUnlock) := by
  obtain ⟨_, _, _, hedges⟩ := s.applyEdges_eq cfg dtMs
  rw [hedges]
  exact ⟨rfl, rfl⟩

theorem applyEdges_faults : (s.applyEdges cfg dtMs).faults = s.faults := by
  obtain ⟨_, _, _, hedges⟩ := s.applyEdges_eq cfg dtMs
  rw [hedges]

theorem applyEdges_horn : (s.applyEdges cfg dtMs).horn = s.horn := by
  obtain ⟨_, _, _, hedges⟩ := s.applyEdges_eq cfg dtMs
  rw [hedges]

/-! ### The whole cycle -/

/-- The one-shot flags the cycle takes from the door once it has reported them. -/
def takeDoorFlags (d : DoorMgr) : DoorMgr :=
  d.takeLockRefused.2.takeChirpLock.2.takeChirpUnlock.2

/-- **What the cycle does after its edges.** The horn, the log and the lamps have lemmas of their
own. -/
theorem cycle_eq :
    ∃ horn log lamps, runBlocks (cycleBlocks cfg dtMs) s =
      let power := (s.power.updateBattery s.inputs.batteryPermille).update cfg dtMs
      let door := s.door.update cfg dtMs
      let faults :=
        if door.ctx.lockRefused then s.faults.set Dtc.lockRefusedDoorOpen else s.faults
      let faults :=
        if power.loadShed then faults.set Dtc.batteryLow else faults.clear Dtc.batteryLow
      { s with
        lighting := s.lighting.updateAmbient s.inputs.ambientPermille
        door := takeDoorFlags door
        power := power
        horn := horn
        faults :=
          if s.commsLost then faults.set Dtc.commsLost else faults.clear Dtc.commsLost
        log := log
        lamps := lamps
        prevLoadShed := power.loadShed
        prevCommsLost := s.commsLost
        prevDoor := door.state } := by
  simp only [runBlocks, cycleBlocks, List.foldl_cons, List.foldl_nil]
  rw [readSensors, updatePower, updateDoorWelcome, updateDoorAutoLock, reportLockRefused_eq,
    chirpHorn, reportFaults, logLoadShedChange_eq, logCommsChange_eq, logDoorChange_eq,
    driveLamps, updateHorn]
  exact ⟨_, _, _, rfl⟩

theorem step_power :
    (s.step cfg dtMs).power =
      ((s.applyEdges cfg dtMs).power.updateBattery s.inputs.batteryPermille).update cfg dtMs := by
  obtain ⟨_, _, _, hcycle⟩ := (s.applyEdges cfg dtMs).cycle_eq cfg dtMs
  rw [step, hcycle, ← (s.applyEdges_frame cfg dtMs).1]

theorem step_door :
    (s.step cfg dtMs).door = takeDoorFlags ((s.applyEdges cfg dtMs).door.update cfg dtMs) := by
  obtain ⟨_, _, _, hcycle⟩ := (s.applyEdges cfg dtMs).cycle_eq cfg dtMs
  rw [step, hcycle]

theorem step_host :
    (s.step cfg dtMs).hostLock = (s.firstCycle && s.hostLock) ∧
      (s.step cfg dtMs).hostUnlock = (s.firstCycle && s.hostUnlock) := by
  obtain ⟨_, _, _, hcycle⟩ := (s.applyEdges cfg dtMs).cycle_eq cfg dtMs
  rw [step, hcycle]
  exact s.applyEdges_host cfg dtMs

/-- The open-door guard has refused a lock by the time the cycle reports. -/
def lockRefusal : Bool := ((s.applyEdges cfg dtMs).door.update cfg dtMs).ctx.lockRefused

/-- The cycle records the refusal of a lock, and then the present state of the battery and of the
link. -/
theorem step_faults :
    (s.step cfg dtMs).faults =
      let faults :=
        if s.lockRefusal cfg dtMs then s.faults.set Dtc.lockRefusedDoorOpen else s.faults
      let faults :=
        if (s.step cfg dtMs).power.loadShed then faults.set Dtc.batteryLow
        else faults.clear Dtc.batteryLow
      if s.commsLost then faults.set Dtc.commsLost else faults.clear Dtc.commsLost := by
  obtain ⟨hinputs, -, -, hlost, -⟩ := s.applyEdges_frame cfg dtMs
  obtain ⟨_, _, _, hcycle⟩ := (s.applyEdges cfg dtMs).cycle_eq cfg dtMs
  rw [step_power, step, hcycle, ← s.applyEdges_faults cfg dtMs, ← hinputs, ← hlost]
  rfl

theorem step_lighting :
    (s.step cfg dtMs).lighting =
      (s.applyEdges cfg dtMs).lighting.updateAmbient s.inputs.ambientPermille := by
  obtain ⟨_, _, _, hcycle⟩ := (s.applyEdges cfg dtMs).cycle_eq cfg dtMs
  rw [step, hcycle, ← (s.applyEdges_frame cfg dtMs).1]

/-- The cycle remembers what it has compared. -/
theorem step_prev :
    (s.step cfg dtMs).prevLoadShed = (s.step cfg dtMs).power.loadShed ∧
      (s.step cfg dtMs).prevCommsLost = s.commsLost ∧
      (s.step cfg dtMs).prevDoor = (s.step cfg dtMs).door.state := by
  obtain ⟨_, _, _, hcycle⟩ := (s.applyEdges cfg dtMs).cycle_eq cfg dtMs
  rw [step, hcycle, ← (s.applyEdges_frame cfg dtMs).2.2.2.1]
  exact ⟨rfl, rfl, rfl⟩

theorem step_frame :
    (s.step cfg dtMs).inputs = s.inputs ∧
      (s.step cfg dtMs).previous = s.inputs ∧
      (s.step cfg dtMs).firstCycle = false ∧
      (s.step cfg dtMs).commsLost = s.commsLost ∧
      (s.step cfg dtMs).hostRequest = s.hostRequest ∧
      (s.step cfg dtMs).hostMask = s.hostMask := by
  obtain ⟨_, _, _, hcycle⟩ := (s.applyEdges cfg dtMs).cycle_eq cfg dtMs
  rw [step, hcycle]
  exact s.applyEdges_frame cfg dtMs

@[simp]
theorem step_inputs : (s.step cfg dtMs).inputs = s.inputs := (s.step_frame cfg dtMs).1

@[simp]
theorem step_previous : (s.step cfg dtMs).previous = s.inputs := (s.step_frame cfg dtMs).2.1

@[simp]
theorem step_firstCycle : (s.step cfg dtMs).firstCycle = false := (s.step_frame cfg dtMs).2.2.1

@[simp]
theorem step_commsLost : (s.step cfg dtMs).commsLost = s.commsLost :=
  (s.step_frame cfg dtMs).2.2.2.1

/-- The horn with the chirps of the door, the unlock's last. -/
def chirpedBy (d : DoorMgr) (h : HornMgr) : HornMgr :=
  let h := if d.ctx.chirpLock then h.chirp cfg 1 else h
  if d.ctx.chirpUnlock then h.chirp cfg 2 else h

theorem chirpHorn_horn : (chirpHorn cfg s).horn = chirpedBy cfg s.door s.horn := rfl

/-- Nothing between the chirps and the update of the horn concerns it. -/
theorem driveLamps_horn :
    (driveLamps (logDoorChange (logCommsChange (logLoadShedChange (reportFaults s))))).horn =
      s.horn := by
  rw [driveLamps, logDoorChange_eq, logCommsChange_eq, logLoadShedChange_eq, reportFaults]

theorem cycle_horn :
    (runBlocks (cycleBlocks cfg dtMs) s).horn =
      (chirpedBy cfg (s.door.update cfg dtMs) s.horn).update cfg dtMs := by
  simp only [runBlocks, cycleBlocks, List.foldl_cons, List.foldl_nil]
  rw [updateHorn]
  dsimp only
  rw [driveLamps_horn, chirpHorn_horn, reportLockRefused_eq]
  rfl

theorem step_horn :
    (s.step cfg dtMs).horn =
      (chirpedBy cfg ((s.applyEdges cfg dtMs).door.update cfg dtMs) s.horn).update cfg dtMs := by
  rw [step, cycle_horn, applyEdges_horn]

/-- **Nothing reaches the lamps but through the arbiter.** The lamps a cycle leaves are the
managers' wishes at its end, the host's request merged over them, arbitrated against the inputs and
the power state of that cycle. -/
theorem step_lamps :
    (s.step cfg dtMs).lamps =
      LampArbiter.arbitrate (mergeHost s.hostRequest s.hostMask (s.step cfg dtMs).wanted)
        (s.step cfg dtMs).arbiterInputs := by
  obtain ⟨-, -, -, -, hrequest, hmask⟩ := s.step_frame cfg dtMs
  rw [← hrequest, ← hmask]
  unfold step
  simp only [runBlocks, cycleBlocks, List.foldl_cons, List.foldl_nil]
  generalize logDoorChange _ = t
  rfl

theorem step_get_lamps (id : LampId) :
    (s.step cfg dtMs).lamps.get id =
      if id = .brake then (if s.inputs.brake then .on else .off)
      else if LampArbiter.leavesOpen (s.step cfg dtMs).arbiterInputs id then
        (mergeHost s.hostRequest s.hostMask (s.step cfg dtMs).wanted).get id
      else .off := by
  rw [step_lamps, LampArbiter.get_arbitrate]
  simp [arbiterInputs]

theorem step_power_setHostRequest (request : LampState) (mask : BitVec 16) :
    ((s.setHostRequest request mask).step cfg dtMs).power = (s.step cfg dtMs).power := by
  simp only [step_power, applyEdges_power]
  rfl

theorem step_lighting_setHostRequest (request : LampState) (mask : BitVec 16) :
    ((s.setHostRequest request mask).step cfg dtMs).lighting = (s.step cfg dtMs).lighting := by
  simp only [step_lighting, applyEdges_lighting]
  rfl

/-- Neither the lamps of the last cycle nor the host's overlay feed back into a manager. -/
theorem step_wanted_setHostRequest (request : LampState) (mask : BitVec 16) :
    ((s.setHostRequest request mask).step cfg dtMs).wanted = (s.step cfg dtMs).wanted := by
  unfold wanted
  simp only [step_power, step_door, step_lighting, applyEdges_power, applyEdges_door,
    applyEdges_lighting]
  rfl

theorem step_arbiterInputs_setHostRequest (request : LampState) (mask : BitVec 16) :
    ((s.setHostRequest request mask).step cfg dtMs).arbiterInputs =
      (s.step cfg dtMs).arbiterInputs := by
  unfold arbiterInputs
  simp only [step_power, step_inputs, step_commsLost, applyEdges_power]
  rfl

end Bcm.BcmCore
