import Bcm.Proof.Inactivity

/-!
# The headlights when Run ends

The ignition-off press puts everything out, and the ambient sensor is read after it in the same
cycle. Where the trigger is dark the low beam is on again before the cycle ends. The inactivity
timer does not put anything out at all, so what is off by then is what the driver or the sensor had
put out.
-/

namespace Bcm

namespace LightingMgr

/-- Who the light belongs to. The auto-headlight owns nothing but the low beam, and the high beam
stepped up from it, and with everything off the driver has chosen nothing. -/
structure Owned (m : LightingMgr) : Prop where
  beams : m.ctx.autoHeadlightActive = true → m.lightState = .lowBeam ∨ m.lightState = .highBeam
  known : m.ctx.autoHeadlightActive = true → m.darkKnown = true
  driver : m.lightState = .off → m.ctx.manualOverride = false
  own : m.heldByAuto = true → m.ctx.manualOverride = false

theorem heldByAuto_iff (m : LightingMgr) :
    m.heldByAuto = true ↔ m.lightState = .lowBeam ∧ m.ctx.autoHeadlightActive = true := by
  simp [heldByAuto]

theorem yieldsToAuto_iff (m : LightingMgr) :
    m.yieldsToAuto = true ↔
      (m.lightState = .off ∨ m.lightState = .parking ∨ m.lightState = .drl) ∧
        m.ctx.manualOverride = false := by
  simp [yieldsToAuto]

/-- Nothing owned and nothing chosen. -/
theorem Owned.of_cleared {m : LightingMgr} (hauto : m.ctx.autoHeadlightActive = false)
    (hmanual : m.ctx.manualOverride = false) : Owned m :=
  ⟨fun h => absurd h (by simp [hauto]), fun h => absurd h (by simp [hauto]), fun _ => hmanual,
    fun _ => hmanual⟩

theorem owned_new (cfg : Config) : Owned (new cfg) := Owned.of_cleared rfl rfl

theorem owned_reset (m : LightingMgr) : Owned m.reset := Owned.of_cleared rfl rfl

theorem owned_allOff (m : LightingMgr) : Owned m.allOff := by
  have hctx := m.allOff_light.2
  exact Owned.of_cleared (by rw [hctx]; rfl) (by rw [hctx]; rfl)

theorem Owned.indicatorEvent {m : LightingMgr} (h : Owned m) (event : IndEvent) :
    Owned (m.indicatorEvent event) :=
  ⟨h.beams, h.known, h.driver, h.own⟩

theorem Owned.ite (c : Bool) {m m' : LightingMgr} (h : Owned m) (h' : Owned m') :
    Owned (if c then m else m') := by
  cases c
  · exact h'
  · exact h

theorem Owned.indicatorHazard {m : LightingMgr} (h : Owned m) : Owned m.indicatorHazard :=
  Owned.ite _ (h.indicatorEvent .cancel) (h.indicatorEvent .hazardPressed)

/-- What the driver steps to is the driver's. -/
theorem Owned.heldByAuto_nextMode {m : LightingMgr} (h : Owned m) :
    m.nextMode.heldByAuto = false := by
  obtain ⟨hlight, hctx⟩ := m.nextMode_light
  by_contra hheld
  obtain ⟨hlow, hactive⟩ := m.nextMode.heldByAuto_iff.mp (by simpa using hheld)
  rw [hctx] at hactive
  split at hactive
  case isTrue hhigh => exact absurd hactive (by simp [LightingContext.clearManual])
  case isFalse hhigh =>
      rw [hlight, (h.beams hactive).resolve_right hhigh] at hlow
      exact absurd hlow (by decide)

theorem Owned.nextMode {m : LightingMgr} (h : Owned m) : Owned m.nextMode := by
  obtain ⟨hlight, hctx⟩ := m.nextMode_light
  by_cases hhigh : m.lightState = .highBeam
  · rw [hhigh] at hlight
    rw [if_pos hhigh] at hctx
    exact Owned.of_cleared (by rw [hctx]; rfl) (by rw [hctx]; rfl)
  · rw [if_neg hhigh] at hctx
    have hauto : m.nextMode.ctx.autoHeadlightActive = m.ctx.autoHeadlightActive := by
      rw [hctx]
      rfl
    -- what the auto-headlight owned was the low beam, and it owns the high beam now
    have hstepped : m.ctx.autoHeadlightActive = true → m.nextMode.lightState = .highBeam := by
      intro hactive
      rw [hlight, (h.beams hactive).resolve_right hhigh]
      rfl
    constructor
    · intro hactive
      rw [hauto] at hactive
      exact Or.inr (hstepped hactive)
    · intro hactive
      rw [hauto] at hactive
      exact h.known hactive
    · intro hoff
      rw [hlight] at hoff
      cases hstate : m.lightState <;> simp_all [following]
    · exact fun hheld => absurd hheld (by simp [h.heldByAuto_nextMode])

theorem nextMode_off_iff (m : LightingMgr) :
    m.nextMode.lightState = .off ↔ m.lightState = .highBeam := by
  rw [m.nextMode_light.1]
  cases m.lightState <;> decide

/-- A reading that finds nothing to switch. -/
theorem updateAmbient_of_idle {m : LightingMgr} {permille : Nat}
    (hon : ¬(m.isDark permille = true ∧ m.yieldsToAuto = true))
    (hoff : ¬(m.isDark permille = false ∧ (m.darkKnown && m.heldByAuto) = true)) :
    (m.updateAmbient permille).lightState = m.lightState ∧
      (m.updateAmbient permille).ctx = m.ctx := by
  rw [← Prod.mk.injEq, updateAmbient_light]
  cases hdark : m.isDark permille <;> simp_all

theorem Owned.updateAmbient {m : LightingMgr} (h : Owned m) (permille : Nat) :
    Owned (m.updateAmbient permille) := by
  have hknown := (m.updateAmbient_dark permille).2
  have hboth := m.updateAmbient_light permille
  by_cases hon : m.isDark permille = true ∧ m.yieldsToAuto = true
  · rw [if_pos hon.1, if_pos hon.2, Prod.mk.injEq] at hboth
    obtain ⟨hlight, hctx⟩ := hboth
    have hmanual : (m.updateAmbient permille).ctx.manualOverride = false := by
      rw [hctx]
      exact (m.yieldsToAuto_iff.mp hon.2).2
    exact ⟨fun _ => Or.inl hlight, fun _ => hknown, fun _ => hmanual, fun _ => hmanual⟩
  by_cases hoff : m.isDark permille = false ∧ (m.darkKnown && m.heldByAuto) = true
  · rw [if_neg (by simp [hoff.1]), if_pos hoff.2, Prod.mk.injEq] at hboth
    obtain ⟨hlight, hctx⟩ := hboth
    rw [Bool.and_eq_true] at hoff
    exact Owned.of_cleared (by rw [hctx]; rfl) (by rw [hctx]; exact h.own hoff.2.2)
  · obtain ⟨hlight, hctx⟩ := updateAmbient_of_idle hon hoff
    constructor
    · rw [hlight, hctx]
      exact h.beams
    · exact fun _ => hknown
    · rw [hlight, hctx]
      exact h.driver
    · rw [heldByAuto_iff, hlight, hctx, ← heldByAuto_iff]
      exact h.own

/-- **When a reading leaves the light off.** -/
theorem Owned.updateAmbient_off_iff {m : LightingMgr} (h : Owned m) (permille : Nat) :
    (m.updateAmbient permille).lightState = .off ↔
      m.isDark permille = false ∧ (m.lightState = .off ∨ m.heldByAuto = true) := by
  have hlight := congrArg Prod.fst (m.updateAmbient_light permille)
  dsimp only at hlight
  rw [hlight]
  cases hdark : m.isDark permille with
  | true =>
      rw [if_pos rfl]
      cases hyields : m.yieldsToAuto with
      | true => simp
      | false =>
          have hlit : m.lightState ≠ .off := by
            intro hoff
            have := m.yieldsToAuto_iff.mpr ⟨Or.inl hoff, h.driver hoff⟩
            rw [hyields] at this
            exact absurd this (by decide)
          simpa using hlit
  | false =>
      rw [if_neg (by decide)]
      cases hheld : m.heldByAuto with
      | true =>
          rw [h.known (m.heldByAuto_iff.mp hheld).2]
          simp
      | false => simp

end LightingMgr

namespace BcmCore

open LightingMgr

/-- The ignition has been held long enough for its long press, in this cycle. -/
def longPress (cfg : Config) (s : BcmCore) (dtMs : Nat) : Bool :=
  s.inputs.ignition && (!s.longPressFired &&
    decide (cfg.longPressMs ≤ (s.ignitionHeldMs + dtMs) % 2 ^ 16))

theorem ignitionLighting_of_run (cfg : Config) (dtMs : Nat) {s : BcmCore}
    (hfirst : s.firstCycle = false) (hstate : s.power.state = .run) :
    s.ignitionLighting cfg dtMs =
      if s.ignitionOffPress then s.lighting.allOff
      else if s.longPress cfg dtMs then s.lighting.nextMode
      else s.lighting := by
  unfold ignitionLighting ignitionOffPress shortPress longPress
  have hrunning : s.power.running = true := by simp [PowerMgr.running, hstate]
  rw [hfirst, hrunning]
  cases s.inputs.ignition <;> cases s.previous.ignition <;> cases s.longPressFired <;> simp

/-- The indicators share the manager with the light, and leave it and the sensor alone. -/
theorem pressedLighting_light (cfg : Config) (dtMs : Nat) {s : BcmCore}
    (hmode : s.hostLightMode = false) :
    (s.pressedLighting cfg dtMs).light = (s.ignitionLighting cfg dtMs).light ∧
      (s.pressedLighting cfg dtMs).ctx = (s.ignitionLighting cfg dtMs).ctx ∧
      (s.pressedLighting cfg dtMs).dark = (s.ignitionLighting cfg dtMs).dark := by
  unfold pressedLighting
  rw [hmode]
  simp only [indicatorHazard, apply_ite LightingMgr.light, apply_ite LightingMgr.ctx,
    apply_ite LightingMgr.dark, indicatorLeft, indicatorRight, indicatorEvent, ite_self]
  simp

theorem owned_pressedLighting (cfg : Config) (dtMs : Nat) {s : BcmCore} (h : Owned s.lighting) :
    Owned (s.pressedLighting cfg dtMs) := by
  have hignition : Owned (s.ignitionLighting cfg dtMs) := by
    unfold ignitionLighting
    split_ifs
    · exact h.nextMode
    · exact h
    · exact owned_allOff s.lighting
    · exact h
  have hleft := Owned.ite (s.inputs.indLeft && !s.previous.indLeft)
    (hignition.indicatorEvent .leftPressed) hignition
  have hright := Owned.ite (s.inputs.indRight && !s.previous.indRight)
    (hleft.indicatorEvent .rightPressed) hleft
  have hhazard := Owned.ite (s.inputs.hazard && !s.previous.hazard) hright.indicatorHazard hright
  exact Owned.ite s.hostLightMode hhazard.nextMode hhazard

/-- What every run keeps: who owns the light, and that the core has run a cycle by the time it is
awake. -/
structure Lit (s : BcmCore) : Prop where
  owned : Owned s.lighting
  asleep : s.firstCycle = true → s.power.state = .sleep

theorem Lit.exec (cfg : Config) {s : BcmCore} (h : Lit s) (op : CoreOp) :
    Lit (exec cfg s op) := by
  cases op with
  | step dtMs =>
      refine ⟨?_, fun hfirst => absurd hfirst (by simp [BcmCore.exec])⟩
      have hedges : Owned (s.applyEdges cfg dtMs).lighting := by
        rw [applyEdges_lighting]
        split
        · exact h.owned
        · exact owned_pressedLighting cfg dtMs h.owned
      rw [BcmCore.exec, step_lighting]
      exact hedges.updateAmbient s.inputs.ambientPermille
  | reset => exact ⟨owned_reset s.lighting, fun _ => rfl⟩
  | _ => exact ⟨h.owned, h.asleep⟩

/-- The cycle ends a run of the engine: the ignition-off press, or the inactivity timer. -/
def LeavesRun (s : BcmCore) (dtMs : Nat) : Prop :=
  s.power.state = .run ∧
    (s.ignitionOffPress = true ∨ s.power.inactivity.expires dtMs = true)

theorem leavesRun_iff (cfg : Config) (dtMs : Nat) (s : BcmCore) :
    LeavesRun s dtMs ↔ s.power.state = .run ∧ (s.step cfg dtMs).power.state ≠ .run := by
  refine and_congr_right fun hstate => ?_
  by_cases hpress : s.ignitionOffPress = true
  · have hoff : (s.applyEdges cfg dtMs).power.state = .shutdown := by
      have hshort : s.shortPress = true ∧ s.power.running = true := by
        simpa [ignitionOffPress] using hpress
      rw [applyEdges_power, if_pos hshort.1, if_pos hshort.2]
      rcases s.power.ignitionOff_cases with ⟨-, hoff, -⟩ | ⟨hother, -⟩
      · exact hoff
      · rw [hstate] at hother
        simp at hother
    refine iff_of_true (Or.inl hpress) ?_
    rw [step_power, PowerMgr.update, PowerMgr.updateInactivity_state]
    rcases ((s.applyEdges cfg dtMs).power.updateBattery
      s.inputs.batteryPermille).updateTransition_cases cfg dtMs with
      ⟨hsame, -⟩ | ⟨hwake, -⟩ | ⟨-, hslept, -⟩
    · rw [PowerMgr.updateBattery_state, hoff] at hsame
      simp [hsame]
    · simp [hoff] at hwake
    · simp [hslept]
  · have hno : s.ignitionOffPress = false := by simpa using hpress
    rw [(step_power_of_run cfg dtMs hstate hno).1]
    cases hexpires : s.power.inactivity.expires dtMs <;> simp [hno]

/-- Once Run is left, the headlights are out. -/
def HeadlightsOut (cfg : Config) (s : BcmCore) (dtMs : Nat) : Prop :=
  s.hostLightMode = false → s.power.state = .run → (s.step cfg dtMs).power.state ≠ .run →
    (s.step cfg dtMs).lighting.lightState = .off

instance (cfg : Config) (s : BcmCore) (dtMs : Nat) : Decidable (HeadlightsOut cfg s dtMs) :=
  inferInstanceAs (Decidable (_ → _ → _ → _))

/-- The reading of a cycle that leaves Run does not make the trigger dark, and the light is put out
by the ignition-off press, by the long press at the end of its round, or by the reading. -/
def GoesOut (cfg : Config) (s : BcmCore) (dtMs : Nat) : Prop :=
  s.hostLightMode = false → LeavesRun s dtMs →
    s.lighting.isDark s.inputs.ambientPermille = false ∧
      (s.ignitionOffPress = true ∨
        if s.longPress cfg dtMs then s.lighting.lightState = .highBeam
        else s.lighting.lightState = .off ∨ s.lighting.heldByAuto = true)

theorem headlightsOut_iff (cfg : Config) (dtMs : Nat) {s : BcmCore} (h : Lit s) :
    HeadlightsOut cfg s dtMs ↔ GoesOut cfg s dtMs := by
  unfold HeadlightsOut GoesOut
  rw [leavesRun_iff cfg, and_imp]
  refine imp_congr_right fun hmode => imp_congr_right fun hstate => imp_congr_right fun _ => ?_
  have hfirst : s.firstCycle = false := by
    by_contra hfirst
    have hasleep := h.asleep (by simpa using hfirst)
    rw [hstate] at hasleep
    exact absurd hasleep (by decide)
  have hedges : (s.applyEdges cfg dtMs).lighting = s.pressedLighting cfg dtMs := by
    rw [applyEdges_lighting, hfirst]
    rfl
  obtain ⟨hlight, hctx, hdark⟩ := pressedLighting_light cfg dtMs hmode
  rw [step_lighting, hedges, (owned_pressedLighting cfg dtMs h.owned).updateAmbient_off_iff,
    isDark, lightState, heldByAuto, lightState, hlight, hctx, hdark, ← isDark, ← lightState,
    ← heldByAuto, ignitionLighting_of_run cfg dtMs hfirst hstate]
  by_cases hpress : s.ignitionOffPress = true
  · rw [if_pos hpress, s.lighting.allOff_light.1, hpress]
    simp only [true_or, and_true]
    rfl
  · have hno : s.ignitionOffPress = false := by simpa using hpress
    rw [hno, if_neg (by decide)]
    split_ifs
    · rw [s.lighting.nextMode_off_iff, h.owned.heldByAuto_nextMode]
      simp only [Bool.false_eq_true, or_false, false_or]
      rfl
    · simp only [false_or]

theorem lit_new (cfg : Config) : Lit (new cfg) := ⟨owned_new cfg, fun _ => rfl⟩

/-- **The headlights when Run ends, exactly.** Every cycle of a run that leaves Run with no mode
request of the host pending ends with the light off, if and only if each such cycle puts it out and
does not find it dark. -/
theorem run_headlightsOut_iff (cfg : Config) (ops : List CoreOp) :
    Runs.Along (exec cfg) (AtStep (HeadlightsOut cfg)) (new cfg) ops ↔
      Runs.Along (exec cfg) (AtStep (GoesOut cfg)) (new cfg) ops := by
  refine Runs.along_congr (lit_new cfg) (fun s op h => h.exec cfg op) (fun s op h => ?_) ops
  cases op with
  | step dtMs => exact headlightsOut_iff cfg dtMs h
  | _ => exact Iff.rfl

/-- In the dark, the ignition-off press leaves the low beam on. -/
theorem not_headlightsOut_dark :
    ¬ Runs.Along (exec .shipped) (AtStep (HeadlightsOut .shipped)) (new .shipped)
      (wakingOps ++ [.step 300,
        .setInputs { Inputs.initial with
          batteryPermille := 800, ambientPermille := 100, ignition := true }, .step 5,
        .setInputs { Inputs.initial with batteryPermille := 800, ambientPermille := 100 },
        .step 5]) := by
  decide +kernel

end BcmCore

end Bcm
