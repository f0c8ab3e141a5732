import Bcm.Drivers
import Bcm.Fsm

/-!
# Lighting and indicators

The lighting machine Off → Parking → Drl → LowBeam → HighBeam with auto-headlight, and the indicator
machine with its hazard override (`lighting_mgr.h`, `lighting_mgr.cpp`).
-/

namespace Bcm

inductive LightState where
  | off
  | parking
  | drl
  | lowBeam
  | highBeam
  deriving DecidableEq, Repr

/-- The state's numeric value, the argument of a light-mode log record. -/
def LightState.toNat : LightState → Nat
  | off => 0
  | parking => 1
  | drl => 2
  | lowBeam => 3
  | highBeam => 4

inductive LightEvent where
  | modeNext
  | allOff
  | autoOn
  | autoOff
  deriving DecidableEq, Repr

inductive IndState where
  | idle
  | left
  | right
  | hazard
  deriving DecidableEq, Repr

inductive IndEvent where
  | leftPressed
  | rightPressed
  | hazardPressed
  | cancel
  deriving DecidableEq, Repr

structure LightingContext where
  autoHeadlightActive : Bool
  manualOverride : Bool
  deriving DecidableEq, Repr

def LightingContext.initial : LightingContext := ⟨false, false⟩

structure IndicatorContext where
  hazardLatched : Bool
  deriving DecidableEq, Repr

def IndicatorContext.initial : IndicatorContext := ⟨false⟩

namespace LightingContext

def markManual (c : LightingContext) : LightingContext := { c with manualOverride := true }

def clearManual (c : LightingContext) : LightingContext :=
  { c with manualOverride := false, autoHeadlightActive := false }

def markAuto (c : LightingContext) : LightingContext := { c with autoHeadlightActive := true }

def clearAuto (c : LightingContext) : LightingContext := { c with autoHeadlightActive := false }

def autoAllowed (c : LightingContext) : Bool := !c.manualOverride

def autoOwnsLamps (c : LightingContext) : Bool := c.autoHeadlightActive

end LightingContext

open LightingContext in
def lightTable : List (FsmTransition LightState LightEvent LightingContext) :=
  [⟨.off, false, .modeNext, .parking, none, some markManual⟩,
    ⟨.parking, false, .modeNext, .drl, none, some markManual⟩,
    ⟨.drl, false, .modeNext, .lowBeam, none, some markManual⟩,
    ⟨.lowBeam, false, .modeNext, .highBeam, none, some markManual⟩,
    ⟨.highBeam, false, .modeNext, .off, none, some clearManual⟩,
    ⟨.off, false, .autoOn, .lowBeam, some autoAllowed, some markAuto⟩,
    ⟨.parking, false, .autoOn, .lowBeam, some autoAllowed, some markAuto⟩,
    ⟨.drl, false, .autoOn, .lowBeam, some autoAllowed, some markAuto⟩,
    ⟨.lowBeam, false, .autoOff, .off, some autoOwnsLamps, some clearAuto⟩,
    ⟨.off, true, .allOff, .off, none, some clearManual⟩]

def latchHazard (_c : IndicatorContext) : IndicatorContext := { hazardLatched := true }

def unlatchHazard (_c : IndicatorContext) : IndicatorContext := { hazardLatched := false }

/-- `kIndTable`. There is no row out of hazard but the two that match any state. -/
def indTable : List (FsmTransition IndState IndEvent IndicatorContext) :=
  [⟨.idle, true, .hazardPressed, .hazard, none, some latchHazard⟩,
    ⟨.idle, false, .leftPressed, .left, none, none⟩,
    ⟨.right, false, .leftPressed, .left, none, none⟩,
    ⟨.left, false, .leftPressed, .idle, none, none⟩,
    ⟨.idle, false, .rightPressed, .right, none, none⟩,
    ⟨.left, false, .rightPressed, .right, none, none⟩,
    ⟨.right, false, .rightPressed, .idle, none, none⟩,
    ⟨.idle, true, .cancel, .idle, none, some unlatchHazard⟩]

structure LightingMgr where
  light : Fsm LightState
  indicator : Fsm IndState
  ctx : LightingContext
  indCtx : IndicatorContext
  dark : Hysteresis
  darkKnown : Bool
  deriving DecidableEq, Repr

namespace LightingMgr

def new (cfg : Config) : LightingMgr where
  light := .new .off
  indicator := .new .idle
  ctx := .initial
  indCtx := .initial
  dark := ⟨cfg.ambientDarkPermille, cfg.ambientLightPermille, false⟩
  darkKnown := false

def lightState (m : LightingMgr) : LightState := m.light.state

def indicatorState (m : LightingMgr) : IndState := m.indicator.state

def lightEvent (m : LightingMgr) (event : LightEvent) : LightingMgr :=
  let (_, light, ctx) := m.light.dispatch lightTable event m.ctx
  { m with light := light, ctx := ctx }

def indicatorEvent (m : LightingMgr) (event : IndEvent) : LightingMgr :=
  let (_, indicator, indCtx) := m.indicator.dispatch indTable event m.indCtx
  { m with indicator := indicator, indCtx := indCtx }

def nextMode (m : LightingMgr) : LightingMgr := m.lightEvent .modeNext

def allOff (m : LightingMgr) : LightingMgr :=
  let m' := m.lightEvent .allOff
  { m' with light := m'.light.setState .off }

/-- Feed the filtered ambient reading. The trigger sees its complement, so that dark is high. -/
def updateAmbient (m : LightingMgr) (permille : Nat) : LightingMgr :=
  let inverted := if 1000 < permille then 0 else 1000 - permille
  let (isDark, dark) := m.dark.update inverted
  let m' := { m with dark := dark, darkKnown := true }
  if !m.darkKnown && !isDark then m'
  else if isDark then m'.lightEvent .autoOn
  else m'.lightEvent .autoOff

def indicatorLeft (m : LightingMgr) : LightingMgr := m.indicatorEvent .leftPressed

def indicatorRight (m : LightingMgr) : LightingMgr := m.indicatorEvent .rightPressed

def indicatorCancel (m : LightingMgr) : LightingMgr := m.indicatorEvent .cancel

/-- Hazard is a toggle: pressed while latched it returns to idle. -/
def indicatorHazard (m : LightingMgr) : LightingMgr :=
  if m.indCtx.hazardLatched then m.indicatorEvent .cancel else m.indicatorEvent .hazardPressed

def applyLight (m : LightingMgr) (out : LampState) : LampState :=
  match m.lightState with
  | .parking => out.set .drl .on
  | .drl => out.set .drl .on
  | .lowBeam => (out.set .drl .on).set .lowBeam .on
  | .highBeam => ((out.set .drl .on).set .lowBeam .on).set .highBeam .on
  | .off => out

def applyIndicator (m : LightingMgr) (out : LampState) : LampState :=
  match m.indicatorState with
  | .left => out.set .indLeft .blink
  | .right => out.set .indRight .blink
  | .hazard => ((out.set .indLeft .blink).set .indRight .blink).set .hazard .blink
  | .idle => out

/-- Publish the desired lamps: the two `switch` statements of the source, in order. -/
def apply (m : LightingMgr) (out : LampState) : LampState := m.applyIndicator (m.applyLight out)

/-- `reset()` leaves the ambient trigger and the counters of the machines as they are. -/
def reset (m : LightingMgr) : LightingMgr :=
  { m with
    light := m.light.setState .off
    indicator := m.indicator.setState .idle
    ctx := .initial
    indCtx := .initial
    darkKnown := false }

/-! ### The mode button -/

/-- The mode that follows at the press of the button, all the way round. -/
def following : LightState → LightState
  | .off => .parking
  | .parking => .drl
  | .drl => .lowBeam
  | .lowBeam => .highBeam
  | .highBeam => .off

/-- A press is the driver's choice, until it has put everything out. -/
theorem nextMode_light (m : LightingMgr) :
    m.nextMode.lightState = following m.lightState ∧
      m.nextMode.ctx =
        if m.lightState = .highBeam then m.ctx.clearManual else m.ctx.markManual := by
  cases hstate : m.light.state <;>
    simp [nextMode, lightEvent, lightState, following, Fsm.dispatch, lightTable, hstate]

theorem allOff_light (m : LightingMgr) :
    m.allOff.lightState = .off ∧ m.allOff.ctx = m.ctx.clearManual := by
  cases hstate : m.light.state <;>
    simp [allOff, lightEvent, lightState, Fsm.dispatch, lightTable, Fsm.setState, hstate]

/-! ### The ambient sensor -/

/-- The auto-headlight may take over: a mode without beams, and no choice of the driver's. -/
def yieldsToAuto (m : LightingMgr) : Bool :=
  decide (m.lightState = .off ∨ m.lightState = .parking ∨ m.lightState = .drl) &&
    !m.ctx.manualOverride

/-- The low beam is the auto-headlight's own. -/
def heldByAuto (m : LightingMgr) : Bool :=
  decide (m.lightState = .lowBeam) && m.ctx.autoHeadlightActive

theorem lightEvent_autoOn (m : LightingMgr) :
    (m.lightEvent .autoOn).lightState = (if m.yieldsToAuto then .lowBeam else m.lightState) ∧
      (m.lightEvent .autoOn).ctx = if m.yieldsToAuto then m.ctx.markAuto else m.ctx := by
  unfold yieldsToAuto
  cases hstate : m.light.state <;> cases hmanual : m.ctx.manualOverride <;>
    simp [lightEvent, lightState, Fsm.dispatch, lightTable, LightingContext.autoAllowed,
      hstate, hmanual]

theorem lightEvent_autoOff (m : LightingMgr) :
    (m.lightEvent .autoOff).lightState = (if m.heldByAuto then .off else m.lightState) ∧
      (m.lightEvent .autoOff).ctx = if m.heldByAuto then m.ctx.clearAuto else m.ctx := by
  unfold heldByAuto
  cases hstate : m.light.state <;> cases hauto : m.ctx.autoHeadlightActive <;>
    simp [lightEvent, lightState, Fsm.dispatch, lightTable, LightingContext.autoOwnsLamps,
      hstate, hauto]

/-- What the trigger sees of a reading. -/
def complement (permille : Nat) : Nat := if 1000 < permille then 0 else 1000 - permille

/-- The verdict of the trigger on a reading. -/
def isDark (m : LightingMgr) (permille : Nat) : Bool := (m.dark.update (complement permille)).1

/-- The manager with the reading taken, before the event it raises. -/
def takeReading (m : LightingMgr) (permille : Nat) : LightingMgr :=
  { m with dark := (m.dark.update (complement permille)).2, darkKnown := true }

theorem updateAmbient_eq (m : LightingMgr) (permille : Nat) :
    m.updateAmbient permille =
      if !m.darkKnown && !m.isDark permille then m.takeReading permille
      else if m.isDark permille then (m.takeReading permille).lightEvent .autoOn
      else (m.takeReading permille).lightEvent .autoOff := rfl

/-- **What a reading does to the light.** The first reading of all can only switch on. -/
theorem updateAmbient_light (m : LightingMgr) (permille : Nat) :
    ((m.updateAmbient permille).lightState, (m.updateAmbient permille).ctx) =
      if m.isDark permille then
        if m.yieldsToAuto then (.lowBeam, m.ctx.markAuto) else (m.lightState, m.ctx)
      else if m.darkKnown && m.heldByAuto then (.off, m.ctx.clearAuto)
      else (m.lightState, m.ctx) := by
  rw [updateAmbient_eq]
  cases hdark : m.isDark permille with
  | true =>
      obtain ⟨hlight, hctx⟩ := (m.takeReading permille).lightEvent_autoOn
      rw [if_neg (by simp), if_pos rfl, if_pos rfl, hlight, hctx]
      change (if m.yieldsToAuto = true then _ else m.lightState,
        if m.yieldsToAuto = true then _ else m.ctx) = _
      cases m.yieldsToAuto <;> rfl
  | false =>
      obtain ⟨hlight, hctx⟩ := (m.takeReading permille).lightEvent_autoOff
      change _ = (if m.heldByAuto = true then _ else m.lightState) at hlight
      change _ = (if m.heldByAuto = true then _ else m.ctx) at hctx
      cases hknown : m.darkKnown with
      | true =>
          rw [if_neg (by simp), if_neg (by simp), if_neg (by simp), hlight, hctx]
          cases m.heldByAuto <;> rfl
      | false => rfl

theorem updateAmbient_dark (m : LightingMgr) (permille : Nat) :
    (m.updateAmbient permille).dark = (m.dark.update (complement permille)).2 ∧
      (m.updateAmbient permille).darkKnown = true := by
  rw [updateAmbient_eq]
  split
  · exact ⟨rfl, rfl⟩
  · split
    · exact ⟨rfl, rfl⟩
    · exact ⟨rfl, rfl⟩

/-! ### What the machines want lit -/

theorem apply_lowBeam (m : LightingMgr) (out : LampState) :
    (m.apply out).get .lowBeam =
      if m.lightState = .lowBeam ∨ m.lightState = .highBeam then .on else out.get .lowBeam := by
  unfold apply applyIndicator applyLight
  cases m.indicatorState <;> cases m.lightState <;> simp

theorem apply_hazard {m : LightingMgr} (hstate : m.indicatorState = .hazard) (out : LampState)
    {id : LampId} (hid : id = .indLeft ∨ id = .indRight ∨ id = .hazard) :
    (m.apply out).get id = .blink := by
  unfold apply applyIndicator
  rw [hstate]
  rcases hid with rfl | rfl | rfl <;> simp

theorem apply_highBeam (m : LightingMgr) (out : LampState) :
    (m.apply out).get .highBeam =
      if m.lightState = .highBeam then .on else out.get .highBeam := by
  unfold apply applyIndicator applyLight
  cases m.indicatorState <;> cases m.lightState <;> simp

end LightingMgr

end Bcm
