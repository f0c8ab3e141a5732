import Bcm.Proof.Reset
import Bcm.Sil

/-!
# Scenarios on one runner

The harness gives every scenario a runner of its own. A scenario that begins on a used runner resets
the core, which leaves the triggers as they were; then the vehicle rests for four cycles. Where
these readings decide the triggers, the scenario cannot tell what has been run before it.
-/

namespace Bcm

namespace BcmCore

/-- The first cycle after a reset asks each trigger once. -/
theorem step_of_triggers (cfg : Config) (dtMs : Nat) (s : BcmCore) (inputs : Inputs)
    {dark batteryOk : Hysteresis}
    (hdark : s.lighting.dark.update (LightingMgr.complement inputs.ambientPermille) =
      dark.update (LightingMgr.complement inputs.ambientPermille))
    (hbattery : s.power.batteryOk.update inputs.batteryPermille =
      batteryOk.update inputs.batteryPermille) :
    (s.reset.setInputs inputs).step cfg dtMs =
      ({ s with
        lighting := { s.lighting with dark := dark }
        power := { s.power with batteryOk := batteryOk } }.reset.setInputs inputs).step cfg dtMs := by
  have hlighting : s.lighting.reset.updateAmbient inputs.ambientPermille =
      LightingMgr.updateAmbient (LightingMgr.reset { s.lighting with dark := dark })
        inputs.ambientPermille := by
    unfold LightingMgr.updateAmbient LightingMgr.reset
    dsimp only
    unfold LightingMgr.complement at hdark
    rw [hdark]
  have hpower : s.power.reset.updateBattery inputs.batteryPermille =
      PowerMgr.updateBattery (PowerMgr.reset { s.power with batteryOk := batteryOk })
        inputs.batteryPermille := by
    unfold PowerMgr.updateBattery PowerMgr.reset
    dsimp only
    rw [hbattery]
  have hfirst : ∀ t : BcmCore, t.firstCycle = true →
      t.step cfg dtMs = runBlocks (cycleBlocks cfg dtMs).tail t.seedHistory.readSensors := by
    intro t ht
    rw [step, applyEdges, if_pos ht]
    rfl
  rw [hfirst _ rfl, hfirst _ rfl]
  congr 1
  exact congrArg₂ (fun lighting power =>
    { (s.reset.setInputs inputs).seedHistory with lighting := lighting, power := power })
    hlighting hpower

end BcmCore

namespace Sil

/-- Runners that no scenario tells apart. -/
structure Same (r r' : SilRunner) : Prop where
  core : r.core.Alike r'.core
  inputs : r.inputs = r'.inputs
  nowMs : r.nowMs = r'.nowMs
  current : r.current = r'.current

namespace Same

variable {r r' : SilRunner}

theorem cycle (h : Same r r') (cfg : Config) (dtMs : Nat) :
    Same (r.cycle cfg dtMs) (r'.cycle cfg dtMs) := by
  refine { h with core := ?_, nowMs := ?_ }
  · unfold SilRunner.cycle
    rw [h.inputs]
    exact (h.core.exec cfg (.setInputs r'.inputs)).step cfg dtMs
  · unfold SilRunner.cycle
    rw [h.nowMs]

theorem advance (h : Same r r') (cfg : Config) (ms : Nat) :
    Same (r.advance cfg ms) (r'.advance cfg ms) := by
  unfold SilRunner.advance
  generalize cycleTimes ms = times
  induction times generalizing r r' with
  | nil => exact h
  | cons dtMs times ih => exact ih (h.cycle cfg dtMs)

theorem record (h : Same r r') {passed passed' : Bool} {detail detail' : String}
    (hpassed : passed = passed') (hdetail : detail = detail') (what : String) :
    Same (r.record passed what detail) (r'.record passed' what detail') := by
  refine { h with current := ?_ }
  unfold SilRunner.record
  rw [h.nowMs, h.current, hpassed, hdetail]

theorem advanced (h : Same r r') {inputs inputs' : Inputs} (hinputs : inputs = inputs')
    (cfg : Config) (ms : Nat) :
    Same ({ r with inputs := inputs }.advance cfg ms)
      ({ r' with inputs := inputs' }.advance cfg ms) := by
  have hset : Same { r with inputs := inputs } { r' with inputs := inputs' } :=
    { h with inputs := hinputs }
  exact hset.advance cfg ms

theorem setControl (h : Same r r') (on : Bool) (cfg : Config) (control : String) :
    Same (SilRunner.setControl on cfg control r) (SilRunner.setControl on cfg control r') := by
  unfold SilRunner.setControl
  cases controlPtr control with
  | none => exact h.record rfl rfl _
  | some set => exact h.advanced (by rw [h.inputs]) cfg kCyclePeriodMs

theorem view_eq (h : Same r r') : r.view = r'.view := by
  unfold SilRunner.view LightingMgr.lightState LightingMgr.indicatorState DoorMgr.state
    PowerMgr.state
  rw [h.core.lamps, h.core.horn.output, h.core.lighting.light, h.core.lighting.indicator,
    h.core.door.state, h.core.power.state, h.core.loadShed, h.core.faults, h.core.log.pop.1,
    h.core.log.count, h.core.log.dropped, h.nowMs]

theorem expectState (h : Same r r') {S : Type} [DecidableEq S] (subject : String)
    (name : S → String) {actual actual' : S} (hactual : actual = actual') (state : S)
    (what : String) :
    Same (r.expectState subject name actual state what)
      (r'.expectState subject name actual' state what) := by
  subst hactual
  exact h.record rfl rfl what

theorem begin (h : Same r r') (cfg : Config) (name requirement : String) :
    Same (r.begin cfg name requirement) (r'.begin cfg name requirement) := by
  unfold SilRunner.begin
  refine advance ?_ cfg 20
  exact ⟨h.core.exec cfg .reset, rfl, rfl, rfl⟩

theorem exec (h : Same r r') (cfg : Config) (op : SilOp) : Same (r.exec cfg op) (r'.exec cfg op) := by
  cases op with
  | press control => exact h.setControl true cfg control
  | release control => exact h.setControl false cfg control
  | tap control holdMs =>
      exact ((h.setControl true cfg control).advance cfg holdMs).setControl false cfg control
  | setReverseGear on | setDoorOpen on | setBattery on | setAmbient on =>
      exact { h with inputs := by unfold SilRunner.exec; rw [h.inputs] }
  | setCommsLost lost => exact { h with core := h.core.exec cfg (.setCommsLost lost) }
  | nextLightMode =>
      have hset : Same { r with core := r.core.requestLightMode }
          { r' with core := r'.core.requestLightMode } :=
        { h with core := h.core.exec cfg .requestLightMode }
      exact hset.advance cfg 10
  | advance ms => exact h.advance cfg ms
  | expectLamp id lit what =>
      refine h.record ?_ ?_ what
      · rw [h.core.lamps]
      · rw [h.core.lamps]
  | expectLampBlinking id what =>
      refine h.record ?_ ?_ what
      · rw [h.core.lamps]
      · rw [h.core.lamps]
  | expectLightState state what =>
      exact h.expectState "lighting" lightName h.core.lighting.light state what
  | expectIndicator state what =>
      exact h.expectState "indicator" indName h.core.lighting.indicator state what
  | expectDoor state what => exact h.expectState "door" doorName h.core.door.state state what
  | expectPower state what => exact h.expectState "power" powerName h.core.power.state state what
  | expectDtc code active what =>
      refine h.record ?_ ?_ what
      · rw [h.core.faults]
      · rw [h.core.faults]
  | expect condition what => exact h.record rfl rfl what
  | begin name requirement => exact h.begin cfg name requirement
  | core op => exact { h with core := h.core.exec cfg op }
  | clearFault code =>
      refine { h with core := { h.core with faults := ?_ } }
      unfold SilRunner.exec
      rw [h.core.faults]
  | log timestampMs event arg =>
      exact { h with core := { h.core with log := h.core.log.log timestampMs event arg } }
  | clearLog => exact { h with core := { h.core with log := .clear _ _ } }

end Same

/-- No scenario tells them apart. -/
theorem run_same (cfg : Config) (script : Scenario) {r r' : SilRunner} (h : Same r r') :
    Same (script.run cfg r) (script.run cfg r') :=
  Script.run_related (R := Same) (fun _ _ op hsame => hsame.exec cfg op)
    (fun _ _ hsame => hsame.view_eq) script h

/-! ### The core under a runner -/

theorem core_advance (cfg : Config) (ms : Nat) (r : SilRunner) :
    ∃ ops, (r.advance cfg ms).core = Runs.run (BcmCore.exec cfg) r.core ops := by
  unfold SilRunner.advance
  generalize cycleTimes ms = times
  induction times generalizing r with
  | nil => exact ⟨[], rfl⟩
  | cons dtMs times ih =>
      obtain ⟨ops, hops⟩ := ih (r.cycle cfg dtMs)
      exact ⟨.setInputs r.inputs :: .step dtMs :: ops, hops⟩

theorem core_setControl (cfg : Config) (on : Bool) (control : String) (r : SilRunner) :
    ∃ ops, (SilRunner.setControl on cfg control r).core =
      Runs.run (BcmCore.exec cfg) r.core ops := by
  unfold SilRunner.setControl
  cases controlPtr control with
  | none => exact ⟨[], rfl⟩
  | some set => exact core_advance cfg kCyclePeriodMs { r with inputs := set on r.inputs }

/-- Whatever a scenario calls, the core is run by its own operations, its store and its log apart. -/
theorem core_exec (cfg : Config) (r : SilRunner) (op : SilOp) :
    ∃ ops faults log, (r.exec cfg op).core =
      { Runs.run (BcmCore.exec cfg) r.core ops with faults := faults, log := log } := by
  have hrun : ∀ {s : BcmCore}, (∃ ops, s = Runs.run (BcmCore.exec cfg) r.core ops) →
      ∃ ops faults log, s =
        { Runs.run (BcmCore.exec cfg) r.core ops with faults := faults, log := log } := by
    rintro _ ⟨ops, rfl⟩
    exact ⟨ops, _, _, rfl⟩
  cases op with
  | press control => exact hrun (core_setControl cfg true control r)
  | release control => exact hrun (core_setControl cfg false control r)
  | tap control holdMs =>
      obtain ⟨pressed, hpressed⟩ := core_setControl cfg true control r
      obtain ⟨held, hheld⟩ := core_advance cfg holdMs (r.press cfg control)
      obtain ⟨released, hreleased⟩ :=
        core_setControl cfg false control ((r.press cfg control).advance cfg holdMs)
      refine hrun ⟨pressed ++ held ++ released, ?_⟩
      rw [Runs.run_append, Runs.run_append, ← hpressed]
      exact hreleased.trans (congrArg (Runs.run (BcmCore.exec cfg) · released) hheld)
  | setCommsLost lost => exact hrun ⟨[.setCommsLost lost], rfl⟩
  | nextLightMode =>
      obtain ⟨ops, hops⟩ := core_advance cfg 10 { r with core := r.core.requestLightMode }
      exact hrun ⟨.requestLightMode :: ops, hops⟩
  | advance ms => exact hrun (core_advance cfg ms r)
  | begin name requirement =>
      obtain ⟨ops, hops⟩ :=
        core_advance cfg 20 ⟨r.core.reset, resting, 0, ⟨name, requirement, []⟩⟩
      exact hrun ⟨.reset :: ops, hops⟩
  | core op => exact hrun ⟨[op], rfl⟩
  | clearFault code => exact ⟨[], _, _, rfl⟩
  | log timestampMs event arg => exact ⟨[], _, _, rfl⟩
  | clearLog => exact ⟨[], _, _, rfl⟩
  | setReverseGear _ | setDoorOpen _ | setBattery _ | setAmbient _ | expectLamp _ _ _
  | expectLampBlinking _ _ | expectLightState _ _ | expectIndicator _ _ | expectDoor _ _
  | expectPower _ _ | expectDtc _ _ _ | expect _ _ => exact hrun ⟨[], rfl⟩

theorem thresholds_scenario (cfg : Config) (script : Scenario) :
    Thresholds cfg (script.run cfg (.new cfg)).core.lighting
      (script.run cfg (.new cfg)).core.power := by
  obtain ⟨calls, hcalls⟩ :=
    Script.run_eq_calls (SilRunner.exec cfg) SilRunner.view script (.new cfg)
  have hreach : Runs.Reachable (SilRunner.exec cfg) (.new cfg) (fun _ => True)
      (script.run cfg (.new cfg)) := ⟨calls, fun _ _ => trivial, hcalls.symm⟩
  refine hreach.invariant (I := fun r => Thresholds cfg r.core.lighting r.core.power)
    ⟨rfl, rfl, rfl, rfl⟩ fun r op _ h => ?_
  obtain ⟨ops, faults, log, hcore⟩ := core_exec cfg r op
  have hrun : Runs.Reachable (BcmCore.exec cfg) r.core (fun _ => True)
      (Runs.run (BcmCore.exec cfg) r.core ops) := ⟨ops, fun _ _ => trivial, rfl⟩
  rw [hcore]
  exact hrun.invariant (I := fun s => Thresholds cfg s.lighting s.power) h
    fun _ op _ hs => BcmCore.thresholds_exec hs op

/-! ### A vehicle at rest -/

/-- What the ambient trigger sees of the vehicle at rest. -/
def restingDark : Nat := 100

def restingBattery : Nat := 800

/-- A core that has been at rest since its reset: the lights are the trigger's. -/
structure AtRest (s : BcmCore) : Prop where
  previous : s.previous = resting
  firstCycle : s.firstCycle = false
  hostLightMode : s.hostLightMode = false
  light : s.lighting.lightState = if s.lighting.dark.state then .lowBeam else .off
  held : s.lighting.heldByAuto = s.lighting.dark.state
  manual : s.lighting.ctx.manualOverride = false
  darkKnown : s.lighting.darkKnown = true
  batteryKnown : s.power.batteryKnown = true

theorem hostLightMode_step (cfg : Config) (dtMs : Nat) (s : BcmCore) :
    (s.step cfg dtMs).hostLightMode = (s.firstCycle && s.hostLightMode) := by
  obtain ⟨_, _, _, hcycle⟩ := (s.applyEdges cfg dtMs).cycle_eq cfg dtMs
  obtain ⟨_, _, _, hedges⟩ := s.applyEdges_eq cfg dtMs
  rw [BcmCore.step, hcycle, hedges]

/-- A reading while the light is the trigger's own. -/
theorem updateAmbient_rest {m : LightingMgr} (hmanual : m.ctx.manualOverride = false)
    (hlight : m.lightState = if m.heldByAuto then .lowBeam else .off)
    (hknown : m.heldByAuto = true → m.darkKnown = true) (permille : Nat) :
    (m.updateAmbient permille).lightState =
        (if m.isDark permille then .lowBeam else .off) ∧
      (m.updateAmbient permille).heldByAuto = m.isDark permille ∧
      (m.updateAmbient permille).ctx.manualOverride = false := by
  have hafter := m.updateAmbient_light permille
  unfold LightingMgr.heldByAuto at hknown hlight ⊢
  cases hheld : decide (m.lightState = .lowBeam) && m.ctx.autoHeadlightActive with
  | true =>
      obtain ⟨hlow, hauto⟩ := Bool.and_eq_true_iff.mp hheld
      have hyields : m.yieldsToAuto = false := by
        rw [LightingMgr.yieldsToAuto, of_decide_eq_true hlow]
        rfl
      have hholds : m.heldByAuto = true := hheld
      rw [hyields, hholds, hknown hheld, Bool.and_self, if_neg Bool.false_ne_true, if_pos rfl,
        of_decide_eq_true hlow] at hafter
      cases hdark : m.isDark permille with
      | true =>
          rw [hdark, if_pos rfl, Prod.mk.injEq] at hafter
          rw [hafter.1, hafter.2, hauto, hmanual]
          exact ⟨rfl, rfl, rfl⟩
      | false =>
          rw [hdark, if_neg Bool.false_ne_true, Prod.mk.injEq] at hafter
          rw [hafter.1, hafter.2]
          exact ⟨rfl, rfl, hmanual⟩
  | false =>
      rw [hheld, if_neg Bool.false_ne_true] at hlight
      have hyields : m.yieldsToAuto = true := by
        rw [LightingMgr.yieldsToAuto, hlight, hmanual]
        rfl
      have hholds : m.heldByAuto = false := hheld
      rw [hyields, hholds, if_pos rfl, Bool.and_false, if_neg Bool.false_ne_true, hlight] at hafter
      cases hdark : m.isDark permille with
      | true =>
          rw [hdark, if_pos rfl, Prod.mk.injEq] at hafter
          rw [hafter.1, hafter.2]
          exact ⟨rfl, rfl, hmanual⟩
      | false =>
          rw [hdark, if_neg Bool.false_ne_true, Prod.mk.injEq] at hafter
          rw [hafter.1, hafter.2]
          exact ⟨rfl, rfl, hmanual⟩

/-- What a cycle at rest leaves, whether it is the first or not. -/
theorem atRest_of_reading {cfg : Config} {dtMs : Nat} {s : BcmCore} {m : LightingMgr} {p : PowerMgr}
    (hlighting : s.lighting = m.updateAmbient resting.ambientPermille)
    (hpower : s.power = (p.updateBattery restingBattery).update cfg dtMs)
    (hprevious : s.previous = resting) (hfirst : s.firstCycle = false)
    (hmode : s.hostLightMode = false) (hmanual : m.ctx.manualOverride = false)
    (hlight : m.lightState = if m.heldByAuto then .lowBeam else .off)
    (hknown : m.heldByAuto = true → m.darkKnown = true) :
    AtRest s ∧ s.lighting.dark = (m.dark.update restingDark).2 ∧
      s.power.batteryOk = (p.batteryOk.update restingBattery).2 := by
  obtain ⟨hlight', hheld, hmanual'⟩ :=
    updateAmbient_rest hmanual hlight hknown resting.ambientPermille
  obtain ⟨hdark, hdarkKnown⟩ := m.updateAmbient_dark resting.ambientPermille
  obtain ⟨-, hbattery, hbatteryKnown⟩ :=
    (p.updateBattery restingBattery).update_battery cfg dtMs
  refine ⟨⟨hprevious, hfirst, hmode, ?_, ?_, ?_, ?_, ?_⟩, ?_, ?_⟩
  · rw [hlighting, hlight', hdark]
    rfl
  · rw [hlighting, hheld, hdark]
    rfl
  · rw [hlighting, hmanual']
  · rw [hlighting, hdarkKnown]
  · rw [hpower, hbatteryKnown, PowerMgr.updateBattery]
    dsimp only
    split
    · rfl
    · next hknown => simpa using hknown
  · rw [hlighting, hdark]
    rfl
  · rw [hpower, hbattery, PowerMgr.updateBattery_batteryOk]

/-- The first cycle after a reset. -/
theorem atRest_reset (cfg : Config) (dtMs : Nat) (s : BcmCore) :
    AtRest ((s.reset.setInputs resting).step cfg dtMs) ∧
      ((s.reset.setInputs resting).step cfg dtMs).lighting.dark =
        (s.lighting.dark.update restingDark).2 ∧
      ((s.reset.setInputs resting).step cfg dtMs).power.batteryOk =
        (s.power.batteryOk.update restingBattery).2 := by
  have hlighting : ((s.reset.setInputs resting).step cfg dtMs).lighting =
      s.lighting.reset.updateAmbient resting.ambientPermille := by
    rw [BcmCore.step_lighting, BcmCore.applyEdges_lighting]
    rfl
  have hpower : ((s.reset.setInputs resting).step cfg dtMs).power =
      (s.power.reset.updateBattery restingBattery).update cfg dtMs := by
    rw [BcmCore.step_power, BcmCore.applyEdges_power]
    rfl
  have hmode : ((s.reset.setInputs resting).step cfg dtMs).hostLightMode = false := by
    rw [hostLightMode_step]
    rfl
  have hfree : s.lighting.reset.heldByAuto = false := rfl
  exact atRest_of_reading (m := s.lighting.reset) (p := s.power.reset) hlighting hpower
    (BcmCore.step_previous ..) (BcmCore.step_firstCycle ..) hmode rfl rfl
    fun hheld => absurd hheld (by rw [hfree]; decide)

theorem AtRest.power_cycle {s : BcmCore} (h : AtRest s) (cfg : Config) (dtMs : Nat) :
    ((s.setInputs resting).step cfg dtMs).power =
      (s.power.updateBattery restingBattery).update cfg dtMs := by
  have hpress : (s.setInputs resting).shortPress = false := by
    have hprevious : (s.setInputs resting).previous = resting := h.previous
    rw [BcmCore.shortPress, hprevious]
    simp [resting, Inputs.initial]
  rw [BcmCore.step_power, BcmCore.applyEdges_power, hpress, if_neg Bool.false_ne_true]
  rfl

/-- One more cycle at rest. -/
theorem AtRest.cycle {s : BcmCore} (h : AtRest s) (cfg : Config) (dtMs : Nat) :
    AtRest ((s.setInputs resting).step cfg dtMs) ∧
      ((s.setInputs resting).step cfg dtMs).lighting.dark =
        (s.lighting.dark.update restingDark).2 ∧
      ((s.setInputs resting).step cfg dtMs).power.batteryOk =
        (s.power.batteryOk.update restingBattery).2 := by
  have hprevious : (s.setInputs resting).previous = resting := h.previous
  have hlighting : ((s.setInputs resting).step cfg dtMs).lighting =
      s.lighting.updateAmbient resting.ambientPermille := by
    have hpressed : (s.setInputs resting).pressedLighting cfg dtMs = s.lighting := by
      have hmode : (s.setInputs resting).hostLightMode = false := h.hostLightMode
      simp [BcmCore.pressedLighting, BcmCore.ignitionLighting, hprevious, hmode]
      simp [BcmCore.setInputs, resting, Inputs.initial]
    have hfirst : (s.setInputs resting).firstCycle = false := h.firstCycle
    rw [BcmCore.step_lighting, BcmCore.applyEdges_lighting, hfirst, if_neg Bool.false_ne_true,
      hpressed]
    rfl
  have hmode : ((s.setInputs resting).step cfg dtMs).hostLightMode = false := by
    have hfirst : (s.setInputs resting).firstCycle = false := h.firstCycle
    rw [hostLightMode_step, hfirst]
    rfl
  have hlight := h.light
  rw [← h.held] at hlight
  exact atRest_of_reading hlighting (h.power_cycle cfg dtMs) (BcmCore.step_previous ..)
    (BcmCore.step_firstCycle ..) hmode h.manual hlight fun _ => h.darkKnown

/-- Once the battery is known, a cycle at rest sheds what its trigger says. -/
theorem AtRest.loadShed {s : BcmCore} (h : AtRest s) (cfg : Config) (dtMs : Nat) :
    ((s.setInputs resting).step cfg dtMs).power.loadShed =
      !(s.power.batteryOk.update restingBattery).1 := by
  rw [PowerMgr.loadShed, h.power_cycle, (PowerMgr.update_battery ..).1, PowerMgr.updateBattery,
    h.batteryKnown]
  rfl

/-! ### The beginning of a scenario -/

/-- The four cycles of `begin`, and what they show. -/
theorem begin_core (cfg : Config) (name requirement : String) (r : SilRunner) :
    (r.begin cfg name requirement).core.lighting.lightState =
        (if (((((r.core.lighting.dark.update restingDark).2.update restingDark).2.update
          restingDark).2.update restingDark).1) then .lowBeam else .off) ∧
      (r.begin cfg name requirement).core.power.loadShed =
        !(((((r.core.power.batteryOk.update restingBattery).2.update restingBattery).2.update
          restingBattery).2.update restingBattery).1) := by
  obtain ⟨h1, hdark1, hbattery1⟩ := atRest_reset cfg kCyclePeriodMs r.core
  obtain ⟨h2, hdark2, hbattery2⟩ := h1.cycle cfg kCyclePeriodMs
  obtain ⟨h3, hdark3, hbattery3⟩ := h2.cycle cfg kCyclePeriodMs
  obtain ⟨h4, hdark4, -⟩ := h3.cycle cfg kCyclePeriodMs
  have hload := h3.loadShed cfg kCyclePeriodMs
  rw [hbattery3, hbattery2, hbattery1] at hload
  have hlight := h4.light
  rw [hdark4, hdark3, hdark2, hdark1] at hlight
  exact ⟨hlight, hload⟩

/-- What four readings tell apart, one does. -/
theorem update_of_four {h h' : Hysteresis} (hlow : h.low = h'.low) (hhigh : h.high = h'.high)
    {v : Nat}
    (hfour : (((((h.update v).2.update v).2.update v).2.update v).1) =
      (((((h'.update v).2.update v).2.update v).2.update v).1)) :
    (h.update v).1 = (h'.update v).1 := by
  have hthree : ((((h.update v).2.update v).2.update v).1) =
      ((((h'.update v).2.update v).2.update v).1) := by
    refine Hysteresis.update_twice ?_ ?_ hfour
    · exact hlow
    · exact hhigh
  have htwo : (((h.update v).2.update v).1) = (((h'.update v).2.update v).1) := by
    refine Hysteresis.update_twice ?_ ?_ hthree
    · exact hlow
    · exact hhigh
  exact Hysteresis.update_twice hlow hhigh htwo

/-- Where the readings at rest decide the triggers alike, the beginning leaves no difference. -/
theorem begin_same (cfg : Config) (name requirement : String) {r r' : SilRunner}
    (hdark : r.core.lighting.dark.Alike (· = restingDark) r'.core.lighting.dark)
    (hbattery : r.core.power.batteryOk.Alike (· = restingBattery) r'.core.power.batteryOk) :
    Same (r.begin cfg name requirement) (r'.begin cfg name requirement) := by
  have hfirst : Same
      (SilRunner.cycle cfg kCyclePeriodMs ⟨r.core.reset, resting, 0, ⟨name, requirement, []⟩⟩)
      (SilRunner.cycle cfg kCyclePeriodMs ⟨r'.core.reset, resting, 0, ⟨name, requirement, []⟩⟩) := by
    refine ⟨?_, rfl, rfl, rfl⟩
    have hupdate : r.core.lighting.dark.update restingDark =
        r'.core.lighting.dark.update restingDark :=
      Prod.ext (hdark.verdict _ rfl) (hdark.update rfl)
    have hupdate' : r.core.power.batteryOk.update restingBattery =
        r'.core.power.batteryOk.update restingBattery :=
      Prod.ext (hbattery.verdict _ rfl) (hbattery.update rfl)
    have hstep := BcmCore.step_of_triggers cfg kCyclePeriodMs r.core resting hupdate hupdate'
    change BcmCore.Alike ((r.core.reset.setInputs resting).step cfg kCyclePeriodMs) _
    rw [hstep]
    refine BcmCore.Alike.step ?_ cfg kCyclePeriodMs
    refine BcmCore.Alike.exec (BcmCore.Alike.reset ?_ ?_) cfg (.setInputs resting)
    · exact ⟨rfl, rfl, rfl, rfl, Hysteresis.Alike.refl _ _, rfl⟩
    · exact ⟨rfl, rfl, Hysteresis.Alike.refl _ _, .of_stop _ _, .of_stop _ _, rfl⟩
  exact ((hfirst.cycle cfg kCyclePeriodMs).cycle cfg kCyclePeriodMs).cycle cfg kCyclePeriodMs

theorem passed_record (passed : Bool) (what detail : String) (r : SilRunner) :
    (r.record passed what detail).current.checks.getLast?.map CheckResult.passed = some passed := by
  simp [SilRunner.record]

theorem run_begin (cfg : Config) (name requirement : String) (script : Scenario) (r : SilRunner) :
    Scenario.run cfg (.call (.begin name requirement) script) r =
      script.run cfg (r.begin cfg name requirement) := rfl

/-- What the light is decides a check that it is off. -/
theorem passed_light (cfg : Config) (r : SilRunner) :
    (Scenario.run cfg (.call (.expectLightState .off "") .done) r).current.checks.getLast?.map
        CheckResult.passed = some (decide (r.core.lighting.lightState = .off)) :=
  passed_record ..

/-- A scenario may look whether the load is shed, and check it. -/
theorem passed_loadShed (cfg : Config) (r : SilRunner) :
    (Scenario.run cfg (.look fun view => .call (.expect view.loadShed "") .done)
        r).current.checks.getLast?.map CheckResult.passed = some r.core.power.loadShed :=
  passed_record ..

theorem off_inj {b b' : Bool}
    (h : decide ((if b then LightState.lowBeam else .off) = .off) =
      decide ((if b' then LightState.lowBeam else .off) = .off)) : b = b' := by
  cases b <;> cases b' <;> simp_all

/-- A scenario that begins after this one reports what it reports on a runner of its own. -/
def Isolated (cfg : Config) (earlier : Scenario) : Prop :=
  ∀ name requirement (script : Scenario),
    (Scenario.run cfg (.call (.begin name requirement) script)
        (earlier.run cfg (.new cfg))).current =
      (Scenario.run cfg (.call (.begin name requirement) script) (.new cfg)).current

/-- The triggers of a used runner and of a new one. -/
theorem alike_of_scenario (cfg : Config) (earlier : Scenario) :
    ((earlier.run cfg (.new cfg)).core.lighting.dark.Alike (· = restingDark)
        (SilRunner.new cfg).core.lighting.dark ↔
      (earlier.run cfg (.new cfg)).core.lighting.dark.Forgets (· = restingDark) false) ∧
    ((earlier.run cfg (.new cfg)).core.power.batteryOk.Alike (· = restingBattery)
        (SilRunner.new cfg).core.power.batteryOk ↔
      (earlier.run cfg (.new cfg)).core.power.batteryOk.Forgets (· = restingBattery) true) := by
  have hthresholds := thresholds_scenario cfg earlier
  have hdark := Hysteresis.alike_iff (· = restingDark)
    (earlier.run cfg (.new cfg)).core.lighting.dark false
  have hbattery := Hysteresis.alike_iff (· = restingBattery)
    (earlier.run cfg (.new cfg)).core.power.batteryOk true
  rw [hthresholds.darkLow, hthresholds.darkHigh] at hdark
  rw [hthresholds.batteryLow, hthresholds.batteryHigh] at hbattery
  exact ⟨hdark, hbattery⟩

theorem isolated_of_forgets {cfg : Config} {earlier : Scenario}
    (hdark : (earlier.run cfg (.new cfg)).core.lighting.dark.Forgets (· = restingDark) false)
    (hbattery :
      (earlier.run cfg (.new cfg)).core.power.batteryOk.Forgets (· = restingBattery) true) :
    Isolated cfg earlier := by
  intro name requirement script
  obtain ⟨halikeDark, halikeBattery⟩ := alike_of_scenario cfg earlier
  have hbegun := begin_same cfg name requirement (halikeDark.mpr hdark) (halikeBattery.mpr hbattery)
  exact (run_same cfg script hbegun).current

/-- Where no scenario tells the runners apart, their triggers agree on the readings at rest: a
scenario may check the light, and whether the load is shed. -/
theorem forgets_of_isolated {cfg : Config} {earlier : Scenario} (hisolated : Isolated cfg earlier) :
    (earlier.run cfg (.new cfg)).core.lighting.dark.Forgets (· = restingDark) false ∧
      (earlier.run cfg (.new cfg)).core.power.batteryOk.Forgets (· = restingBattery) true := by
  have hthresholds := thresholds_scenario cfg earlier
  rw [← (alike_of_scenario cfg earlier).1, ← (alike_of_scenario cfg earlier).2]
  unfold Isolated at hisolated
  generalize earlier.run cfg (.new cfg) = r at hthresholds hisolated ⊢
  obtain ⟨hlight, hload⟩ := begin_core cfg "" "" r
  obtain ⟨hlight', hload'⟩ := begin_core cfg "" "" (.new cfg)
  constructor
  · refine ⟨hthresholds.darkLow, hthresholds.darkHigh, ?_⟩
    rintro v rfl
    have hpassed := congrArg (fun result => result.checks.getLast?.map CheckResult.passed)
      (hisolated "" "" (.call (.expectLightState .off "") .done))
    rw [run_begin, run_begin, passed_light, passed_light, hlight, hlight'] at hpassed
    refine update_of_four hthresholds.darkLow hthresholds.darkHigh ?_
    exact off_inj (Option.some.inj hpassed)
  · refine ⟨hthresholds.batteryLow, hthresholds.batteryHigh, ?_⟩
    rintro v rfl
    have hpassed := congrArg (fun result => result.checks.getLast?.map CheckResult.passed)
      (hisolated "" "" (.look fun view => .call (.expect view.loadShed "") .done))
    rw [run_begin, run_begin, passed_loadShed, passed_loadShed, hload, hload'] at hpassed
    refine update_of_four hthresholds.batteryLow hthresholds.batteryHigh ?_
    exact Bool.not_inj (Option.some.inj hpassed)

/-- **What leaks from one scenario into the next.** Nothing does, whatever the two do, if and only if
the first one leaves each trigger as it was built or where the readings at rest decide it. -/
theorem isolated_iff (cfg : Config) (earlier : Scenario) :
    Isolated cfg earlier ↔
      (earlier.run cfg (.new cfg)).core.lighting.dark.Forgets (· = restingDark) false ∧
        (earlier.run cfg (.new cfg)).core.power.batteryOk.Forgets (· = restingBattery) true :=
  ⟨forgets_of_isolated, fun h => isolated_of_forgets h.1 h.2⟩

/-- With the thresholds as shipped, the vehicle at rest decides both triggers. -/
theorem isolated_shipped (earlier : Scenario) : Isolated .shipped earlier := by
  have hthresholds := thresholds_scenario .shipped earlier
  refine isolated_of_forgets (Or.inr ?_) (Or.inr ?_)
  · rintro v rfl
    rw [hthresholds.darkLow, hthresholds.darkHigh]
    decide
  · rintro v rfl
    rw [hthresholds.batteryLow, hthresholds.batteryHigh]
    decide

end Sil

end Bcm
