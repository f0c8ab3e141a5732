import Bcm.Lib.Toggles
import Bcm.Proof.CoreStep
import Bcm.Proof.StepRecords

/-!
# Pairs of events

Five pairs of events tell of a flag that goes up and down. Four of them are logged just when the
flag changes. The fifth follows the door machine, whose three states make two events: the door is
logged unlocked when it is unlocked, and once more when the welcome is over.
-/

namespace Bcm

/-- The event of a flag that goes up, and of one that goes down. -/
structure EventPair where
  up : LogEvent
  down : LogEvent
  deriving DecidableEq

namespace EventPair

def doors : EventPair := ⟨.doorUnlocked, .doorLocked⟩

def battery : EventPair := ⟨.batteryLow, .batteryOk⟩

def comms : EventPair := ⟨.commsLost, .commsRestored⟩

def brake : EventPair := ⟨.brakeApplied, .brakeReleased⟩

def hazard : EventPair := ⟨.hazardOn, .hazardOff⟩

def all : List EventPair := [doors, battery, comms, brake, hazard]

def read (p : EventPair) (event : LogEvent) : Option Bool :=
  if event = p.up then some true else if event = p.down then some false else none

/-- What a log says of the pair. -/
def values (p : EventPair) (log : List LogRecord) : List Bool :=
  log.filterMap fun r => p.read r.event

/-- Neither event of the pair is logged twice without the other in between. -/
def Alternates (p : EventPair) (log : List LogRecord) : Prop := (p.values log).IsChain (· ≠ ·)

/-- What a change comes to, where it is logged. -/
theorem values_change {p : EventPair} (h : p.down ≠ p.up) (written up : Bool) :
    p.values (if written then [⟨0, if up then p.up else p.down, 0⟩] else []) =
      if written then [up] else [] := by
  cases written with
  | false => rfl
  | true =>
      cases up with
      | true => simp [values, read]
      | false => simp [values, read, h]

theorem values_append (p : EventPair) (front back : List LogRecord) :
    p.values (front ++ back) = p.values front ++ p.values back :=
  List.filterMap_append

end EventPair

namespace LightingMgr

def hazardOn (m : LightingMgr) : Bool := decide (m.indicatorState = .hazard)

/-- The latch of the indicator machine is its state. -/
def Latched (m : LightingMgr) : Prop := m.indCtx.hazardLatched = m.hazardOn

theorem latched_congr {m m' : LightingMgr} (h : m.Latched) (hindicator : m'.indicator = m.indicator)
    (hctx : m'.indCtx = m.indCtx) : m'.Latched ∧ m'.hazardOn = m.hazardOn := by
  unfold Latched hazardOn indicatorState at *
  rw [hctx, hindicator]
  exact ⟨h, rfl⟩

/-- A press of an indicator does not change whether the hazard lamps flash. -/
theorem indicatorEvent_side {m : LightingMgr} (h : m.Latched) {event : IndEvent}
    (hevent : event = .leftPressed ∨ event = .rightPressed) :
    (m.indicatorEvent event).Latched ∧ (m.indicatorEvent event).hazardOn = m.hazardOn := by
  unfold Latched hazardOn indicatorState at *
  rcases hevent with rfl | rfl
  · cases hstate : m.indicator.state <;> rw [hstate] at h <;>
      simp [indicatorEvent, Fsm.dispatch, indTable, hstate, h]
  · cases hstate : m.indicator.state <;> rw [hstate] at h <;>
      simp [indicatorEvent, Fsm.dispatch, indTable, hstate, h]

/-- The hazard button is a toggle. -/
theorem indicatorHazard_toggles {m : LightingMgr} (h : m.Latched) :
    m.indicatorHazard.Latched ∧ m.indicatorHazard.hazardOn = !m.hazardOn := by
  unfold Latched hazardOn indicatorState at *
  cases hstate : m.indicator.state <;> rw [hstate] at h <;>
    simp [indicatorHazard, indicatorEvent, Fsm.dispatch, indTable, hstate, h, latchHazard,
      unlatchHazard]

theorem updateAmbient_indicator (m : LightingMgr) (permille : Nat) :
    (m.updateAmbient permille).indicator = m.indicator ∧
      (m.updateAmbient permille).indCtx = m.indCtx := by
  unfold updateAmbient
  dsimp only
  split_ifs <;> exact ⟨rfl, rfl⟩

end LightingMgr

namespace BcmCore

open EventPair

variable (cfg : Config) (dtMs : Nat) (s : BcmCore)

/-! ### The changes of one cycle -/

/-- The core when the cycle compares with the last one. -/
def beforeReports : BcmCore := runBlocks ((cycleBlocks cfg dtMs).take 7) (s.applyEdges cfg dtMs)

theorem beforeReports_frame :
    (s.beforeReports cfg dtMs).commsLost = s.commsLost ∧
      (s.beforeReports cfg dtMs).prevLoadShed = s.prevLoadShed ∧
      (s.beforeReports cfg dtMs).prevCommsLost = s.prevCommsLost ∧
      (s.beforeReports cfg dtMs).prevDoor = s.prevDoor := by
  obtain ⟨_, _, _, hedges⟩ := s.applyEdges_eq cfg dtMs
  have hbefore : s.beforeReports cfg dtMs = reportFaults (chirpHorn cfg (reportLockRefused
      (updateDoorAutoLock cfg dtMs (updateDoorWelcome cfg dtMs (updatePower cfg dtMs
        (readSensors (s.applyEdges cfg dtMs))))))) := rfl
  rw [hbefore, reportLockRefused_eq, hedges]
  exact ⟨rfl, rfl, rfl, rfl⟩

/-- The cycle ends with the battery and the door that it compared. -/
theorem step_reports :
    (s.step cfg dtMs).power = (s.beforeReports cfg dtMs).power ∧
      (s.step cfg dtMs).door = (s.beforeReports cfg dtMs).door := by
  have hstep : s.step cfg dtMs = updateHorn cfg dtMs (driveLamps (logDoorChange
      (logCommsChange (logLoadShedChange (s.beforeReports cfg dtMs))))) := rfl
  rw [hstep, logLoadShedChange_eq, logCommsChange_eq, logDoorChange_eq]
  exact ⟨rfl, rfl⟩

/-- A pair that one block after the edges logs. -/
theorem values_cycle {p : EventPair} {i : Nat} {block : BcmCore → BcmCore}
    (hi : (cycleBlocks cfg dtMs)[i]? = some block)
    (hedges : ∀ es ∈ edgeEvents, ∀ e ∈ es, p.read e = none)
    (hbefore : ∀ es ∈ cycleEvents.take i, ∀ e ∈ es, p.read e = none)
    (hafter : ∀ es ∈ cycleEvents.drop (i + 1), ∀ e ∈ es, p.read e = none) :
    p.values (s.records cfg dtMs) =
      p.values (written block (runBlocks ((cycleBlocks cfg dtMs).take i)
        (s.applyEdges cfg dtMs))) := by
  have hnone : p.values (if s.firstCycle then [] else writtenBy (edgeBlocks cfg dtMs) s) = [] := by
    split
    · rfl
    · exact read_writtenBy_nil (edgeBlocks_write cfg dtMs) hedges s
  rw [records_eq, values_append, hnone, List.nil_append]
  exact read_writtenBy (cycleBlocks_write cfg dtMs) hi hbefore hafter _

/-- A pair that one of the edges logs. -/
theorem values_edge {p : EventPair} {i : Nat} {block : BcmCore → BcmCore}
    (hi : (edgeBlocks cfg dtMs)[i]? = some block)
    (hcycle : ∀ es ∈ cycleEvents, ∀ e ∈ es, p.read e = none)
    (hbefore : ∀ es ∈ edgeEvents.take i, ∀ e ∈ es, p.read e = none)
    (hafter : ∀ es ∈ edgeEvents.drop (i + 1), ∀ e ∈ es, p.read e = none) :
    p.values (s.records cfg dtMs) =
      if s.firstCycle then []
      else p.values (written block (runBlocks ((edgeBlocks cfg dtMs).take i) s)) := by
  have hnone := read_writtenBy_nil (cycleBlocks_write cfg dtMs) hcycle (s.applyEdges cfg dtMs)
  rw [records_eq, values_append]
  change _ ++ List.filterMap (fun r : LogRecord => p.read r.event) _ = _
  rw [hnone, List.append_nil]
  split
  · rfl
  · exact read_writtenBy (edgeBlocks_write cfg dtMs) hi hbefore hafter s

theorem values_battery :
    battery.values (s.records cfg dtMs) =
      if decide ((s.step cfg dtMs).power.loadShed ≠ s.prevLoadShed) then
        [(s.step cfg dtMs).power.loadShed]
      else [] := by
  obtain ⟨-, hprev, -, -⟩ := s.beforeReports_frame cfg dtMs
  rw [s.values_cycle cfg dtMs (i := 7) rfl (by decide) (by decide) (by decide),
    written_of_logsWhen logsWhen_logLoadShedChange, (s.step_reports cfg dtMs).1, ← hprev]
  exact values_change (by decide) _ _

theorem values_comms :
    comms.values (s.records cfg dtMs) =
      if decide (s.commsLost ≠ s.prevCommsLost) then [s.commsLost] else [] := by
  obtain ⟨hlost, -, hprev, -⟩ := s.beforeReports_frame cfg dtMs
  have hbefore : runBlocks ((cycleBlocks cfg dtMs).take 8) (s.applyEdges cfg dtMs) =
      logLoadShedChange (s.beforeReports cfg dtMs) := rfl
  rw [s.values_cycle cfg dtMs (i := 8) rfl (by decide) (by decide) (by decide),
    written_of_logsWhen logsWhen_logCommsChange, hbefore, logLoadShedChange_eq, ← hlost, ← hprev]
  exact values_change (by decide) _ _

theorem values_doors :
    doors.values (s.records cfg dtMs) =
      if decide ((s.step cfg dtMs).door.state ≠ s.prevDoor) then
        [decide ((s.step cfg dtMs).door.state ≠ .locked)]
      else [] := by
  obtain ⟨-, -, -, hprev⟩ := s.beforeReports_frame cfg dtMs
  have hbefore : runBlocks ((cycleBlocks cfg dtMs).take 9) (s.applyEdges cfg dtMs) =
      logCommsChange (logLoadShedChange (s.beforeReports cfg dtMs)) := rfl
  have hevent : ∀ state : DoorState,
      (if state = .locked then LogEvent.doorLocked else .doorUnlocked) =
        if decide (state ≠ .locked) then doors.up else doors.down := by
    intro state
    cases state with
    | locked => rfl
    | unlocked => rfl
    | welcome => rfl
  rw [s.values_cycle cfg dtMs (i := 9) rfl (by decide) (by decide) (by decide),
    written_of_logsWhen logsWhen_logDoorChange, hbefore, logLoadShedChange_eq, logCommsChange_eq,
    (s.step_reports cfg dtMs).2, ← hprev, ← values_change (p := doors) (by decide), ← hevent]

theorem values_brake :
    brake.values (s.records cfg dtMs) =
      if !s.firstCycle && decide (s.inputs.brake ≠ s.previous.brake) then [s.inputs.brake]
      else [] := by
  have hframe : (runBlocks ((edgeBlocks cfg dtMs).take 10) s).inputs = s.inputs ∧
      (runBlocks ((edgeBlocks cfg dtMs).take 10) s).previous = s.previous := by
    obtain ⟨_, _, _, hignition⟩ := s.ignition_eq cfg dtMs
    have hbefore : runBlocks ((edgeBlocks cfg dtMs).take 10) s =
        takeHostLightMode (takeHostUnlock cfg (takeHostLock (pressDoorLock cfg (readDoorOpen
          (pressHazard (pressIndicatorRight (pressIndicatorLeft
            (releaseIgnition cfg (holdIgnition cfg dtMs s))))))))) := rfl
    rw [hbefore, hignition, pressIndicatorLeft_eq, pressIndicatorRight_eq, pressHazard_eq,
      pressDoorLock_eq, takeHostLock_eq, takeHostUnlock_eq, takeHostLightMode_eq]
    exact ⟨rfl, rfl⟩
  rw [s.values_edge cfg dtMs (i := 10) rfl (by decide) (by decide) (by decide),
    written_of_logsWhen logsWhen_logBrakeChange, hframe.1, hframe.2]
  cases s.firstCycle with
  | true => rfl
  | false =>
      rw [if_neg Bool.false_ne_true]
      exact values_change (by decide) _ _

/-- The lighting when the cycle comes to the hazard button. -/
def sideLighting : LightingMgr :=
  let m := s.ignitionLighting cfg dtMs
  let m := if s.inputs.indLeft && !s.previous.indLeft then m.indicatorLeft else m
  if s.inputs.indRight && !s.previous.indRight then m.indicatorRight else m

theorem sideLighting_latched (h : s.lighting.Latched) :
    (s.sideLighting cfg dtMs).Latched ∧
      (s.sideLighting cfg dtMs).hazardOn = s.lighting.hazardOn := by
  have hignition : (s.ignitionLighting cfg dtMs).Latched ∧
      (s.ignitionLighting cfg dtMs).hazardOn = s.lighting.hazardOn := by
    apply LightingMgr.latched_congr h
    · unfold ignitionLighting
      split_ifs <;> rfl
    · unfold ignitionLighting
      split_ifs <;> rfl
  have hleft := LightingMgr.indicatorEvent_side hignition.1 (Or.inl rfl)
  unfold sideLighting
  dsimp only
  by_cases hl : (s.inputs.indLeft && !s.previous.indLeft) = true
  · rw [if_pos hl]
    have hright := LightingMgr.indicatorEvent_side hleft.1 (Or.inr rfl)
    split
    · exact ⟨hright.1, hright.2.trans (hleft.2.trans hignition.2)⟩
    · exact ⟨hleft.1, hleft.2.trans hignition.2⟩
  · rw [if_neg hl]
    have hright := LightingMgr.indicatorEvent_side hignition.1 (Or.inr rfl)
    split
    · exact ⟨hright.1, hright.2.trans hignition.2⟩
    · exact hignition

/-- The hazard button goes down in this cycle. -/
def hazardPress : Bool := !s.firstCycle && (s.inputs.hazard && !s.previous.hazard)

/-- The other presses leave the hazard lamps to their button. -/
theorem pressedLighting_hazard (h : s.lighting.Latched) :
    (s.pressedLighting cfg dtMs).Latched ∧
      (s.pressedLighting cfg dtMs).hazardOn =
        if s.inputs.hazard && !s.previous.hazard then !s.lighting.hazardOn
        else s.lighting.hazardOn := by
  obtain ⟨hlatched, hside⟩ := s.sideLighting_latched cfg dtMs h
  have htoggles := LightingMgr.indicatorHazard_toggles hlatched
  have hpressed : s.pressedLighting cfg dtMs =
      let m := if s.inputs.hazard && !s.previous.hazard then
        (s.sideLighting cfg dtMs).indicatorHazard else s.sideLighting cfg dtMs
      if s.hostLightMode then m.nextMode else m := rfl
  have hmode : ∀ m : LightingMgr, m.Latched →
      (if s.hostLightMode then m.nextMode else m).Latched ∧
        (if s.hostLightMode then m.nextMode else m).hazardOn = m.hazardOn := by
    intro m hm
    split
    · exact LightingMgr.latched_congr hm rfl rfl
    · exact ⟨hm, rfl⟩
  rw [hpressed]
  cases s.inputs.hazard && !s.previous.hazard with
  | true =>
      obtain ⟨hlatched', hon⟩ := hmode _ htoggles.1
      refine ⟨hlatched', ?_⟩
      calc _ = (s.sideLighting cfg dtMs).indicatorHazard.hazardOn := hon
        _ = !(s.sideLighting cfg dtMs).hazardOn := htoggles.2
        _ = !s.lighting.hazardOn := congrArg not hside
  | false =>
      obtain ⟨hlatched', hon⟩ := hmode _ hlatched
      exact ⟨hlatched', hon.trans hside⟩

theorem step_hazard (h : s.lighting.Latched) :
    (s.step cfg dtMs).lighting.Latched ∧
      (s.step cfg dtMs).lighting.hazardOn =
        if s.hazardPress then !s.lighting.hazardOn else s.lighting.hazardOn := by
  have hambient := (s.applyEdges cfg dtMs).lighting.updateAmbient_indicator s.inputs.ambientPermille
  have hedges : (s.applyEdges cfg dtMs).lighting.Latched ∧
      (s.applyEdges cfg dtMs).lighting.hazardOn =
        if s.hazardPress then !s.lighting.hazardOn else s.lighting.hazardOn := by
    rw [applyEdges_lighting]
    unfold hazardPress
    cases s.firstCycle with
    | true => exact ⟨h, rfl⟩
    | false => exact s.pressedLighting_hazard cfg dtMs h
  rw [step_lighting]
  obtain ⟨hlatched, hon⟩ := LightingMgr.latched_congr hedges.1 hambient.1 hambient.2
  exact ⟨hlatched, hon.trans hedges.2⟩

theorem values_hazard (h : s.lighting.Latched) :
    hazard.values (s.records cfg dtMs) =
      if s.hazardPress then [(s.step cfg dtMs).lighting.hazardOn] else [] := by
  have hframe : (runBlocks ((edgeBlocks cfg dtMs).take 4) s).inputs = s.inputs ∧
      (runBlocks ((edgeBlocks cfg dtMs).take 4) s).previous = s.previous ∧
      (runBlocks ((edgeBlocks cfg dtMs).take 4) s).lighting = s.sideLighting cfg dtMs := by
    obtain ⟨_, _, _, hignition⟩ := s.ignition_eq cfg dtMs
    have hbefore : runBlocks ((edgeBlocks cfg dtMs).take 4) s = pressIndicatorRight
        (pressIndicatorLeft (releaseIgnition cfg (holdIgnition cfg dtMs s))) := rfl
    rw [hbefore, hignition, pressIndicatorLeft_eq, pressIndicatorRight_eq]
    exact ⟨rfl, rfl, rfl⟩
  obtain ⟨hlatched, hside⟩ := s.sideLighting_latched cfg dtMs h
  obtain ⟨-, htoggled⟩ := LightingMgr.indicatorHazard_toggles hlatched
  have hafter := (s.step_hazard cfg dtMs h).2
  rw [s.values_edge cfg dtMs (i := 4) rfl (by decide) (by decide) (by decide),
    written_of_logsWhen logsWhen_pressHazard, hframe.1, hframe.2.1, hframe.2.2]
  unfold hazardPress at hafter ⊢
  cases hfirst : s.firstCycle with
  | true => rfl
  | false =>
      rw [if_neg Bool.false_ne_true, Bool.not_false, Bool.true_and]
      rw [hfirst, Bool.not_false, Bool.true_and] at hafter
      have hevent : ∀ m : LightingMgr,
          (if m.indicatorState = .hazard then LogEvent.hazardOn else .hazardOff) =
            if m.hazardOn then hazard.up else hazard.down := by
        intro m
        simp only [LightingMgr.hazardOn, decide_eq_true_eq]
        rfl
      dsimp only
      rw [hevent, values_change (by decide), htoggled, hside, hafter]
      cases s.inputs.hazard && !s.previous.hazard with
      | true => rfl
      | false => rfl

end BcmCore

end Bcm
