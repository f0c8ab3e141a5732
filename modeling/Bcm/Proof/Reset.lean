import Bcm.Lib.Transducer
import Bcm.Proof.CoreStep
import Bcm.Proof.Likeness

/-!
# Reset and construction

A reset leaves the two Schmitt triggers where the history has put them, the ambient one and the
battery one. A first reading between the thresholds holds what the history held, and a new core
holds what it was built with. Apart from the triggers the reset core is like a new one.
-/

namespace Bcm

/-! ### A trigger and its memory -/

namespace Hysteresis

/-- The state is the one named, or it makes no difference on any value that can come: none lies
between the thresholds. -/
def Forgets (admits : Nat → Prop) (h : Hysteresis) (fresh : Bool) : Prop :=
  h.state = fresh ∨ ∀ v, admits v → (h.low < v ↔ h.high ≤ v)

theorem alike_iff (admits : Nat → Prop) (h : Hysteresis) (fresh : Bool) :
    h.Alike admits ⟨h.low, h.high, fresh⟩ ↔ h.Forgets admits fresh := by
  have hverdict : ∀ v, (h.update v).1 = ((⟨h.low, h.high, fresh⟩ : Hysteresis).update v).1 ↔
      (h.state = fresh ∨ (h.low < v ↔ h.high ≤ v)) := by
    intro v
    rw [update_eq, update_eq]
    unfold verdict
    cases h.state <;> cases fresh <;> simp [iff_comm]
  constructor
  · intro halike
    by_cases hstate : h.state = fresh
    · exact Or.inl hstate
    · refine Or.inr fun v hv => ?_
      exact ((hverdict v).mp (halike.verdict v hv)).resolve_left hstate
  · rintro (hstate | hnone)
    · exact ⟨rfl, rfl, fun v _ => (hverdict v).mpr (Or.inl hstate)⟩
    · exact ⟨rfl, rfl, fun v hv => (hverdict v).mpr (Or.inr (hnone v hv))⟩

/-- A value that two triggers disagree on tells them apart a second time. -/
theorem update_twice {h h' : Hysteresis} (hlow : h.low = h'.low) (hhigh : h.high = h'.high)
    {v : Nat} (htwice : ((h.update v).2.update v).1 = ((h'.update v).2.update v).1) :
    (h.update v).1 = (h'.update v).1 := by
  simp only [update_eq, hlow, hhigh] at htwice ⊢
  generalize verdict h'.low h'.high v = f at htwice ⊢
  calc f h.state = f (f (f h.state)) := (Bool.apply_apply_apply f h.state).symm
    _ = f (f (f h'.state)) := congrArg f htwice
    _ = f h'.state := Bool.apply_apply_apply f h'.state

end Hysteresis

/-! ### The thresholds never move -/

/-- The triggers are built with the thresholds of the configuration. -/
structure Thresholds (cfg : Config) (m : LightingMgr) (p : PowerMgr) : Prop where
  darkLow : m.dark.low = cfg.ambientDarkPermille
  darkHigh : m.dark.high = cfg.ambientLightPermille
  batteryLow : p.batteryOk.low = cfg.batteryLowPermille
  batteryHigh : p.batteryOk.high = cfg.batteryOkPermille

namespace LightingMgr

theorem indicatorHazard_dark (m : LightingMgr) : m.indicatorHazard.dark = m.dark := by
  unfold indicatorHazard
  split <;> rfl

theorem updateAmbient_thresholds (m : LightingMgr) (permille : Nat) :
    (m.updateAmbient permille).dark.low = m.dark.low ∧
      (m.updateAmbient permille).dark.high = m.dark.high := by
  rw [(m.updateAmbient_dark permille).1]
  exact ⟨rfl, rfl⟩

end LightingMgr

namespace PowerMgr

/-- No transition of the power machine concerns the battery. -/
theorem dispatch_battery (p : PowerMgr) (event : PowerEvent) :
    (p.dispatch event).2.ctx = p.ctx ∧ (p.dispatch event).2.batteryOk = p.batteryOk ∧
      (p.dispatch event).2.batteryKnown = p.batteryKnown := by
  refine ⟨?_, rfl, rfl⟩
  have hactions : ∀ t ∈ powerTable, t.action = none := by simp [powerTable]
  rcases Fsm.dispatch_cases powerTable p.fsm event p.ctx with
    ⟨fsm, hmoved, -, -⟩ | ⟨t, hmem, -, -, hmoved⟩
  · rw [dispatch, hmoved]
  · rw [dispatch, hmoved, hactions t hmem]
    rfl

theorem ignitionOn_batteryOk (cfg : Config) (p : PowerMgr) :
    (p.ignitionOn cfg).batteryOk = p.batteryOk := by
  unfold ignitionOn
  dsimp only
  simp only [apply_ite PowerMgr.batteryOk, (p.dispatch_battery .ignitionOn).2.1, ite_self]

theorem ignitionOff_batteryOk (p : PowerMgr) : p.ignitionOff.batteryOk = p.batteryOk := by
  unfold ignitionOff
  dsimp only
  simp only [apply_ite PowerMgr.batteryOk, (p.dispatch_battery .ignitionOff).2.1, ite_self]

theorem update_battery (cfg : Config) (dtMs : Nat) (p : PowerMgr) :
    (p.update cfg dtMs).ctx = p.ctx ∧ (p.update cfg dtMs).batteryOk = p.batteryOk ∧
      (p.update cfg dtMs).batteryKnown = p.batteryKnown := by
  have hbattery : ∀ (q : PowerMgr) (event : PowerEvent),
      (q.dispatch event).2.ctx = q.ctx ∧ (q.dispatch event).2.batteryOk = q.batteryOk ∧
        (q.dispatch event).2.batteryKnown = q.batteryKnown := dispatch_battery
  unfold update updateInactivity updateTransition
  dsimp only
  simp only [apply_ite PowerMgr.ctx, apply_ite PowerMgr.batteryOk, apply_ite PowerMgr.batteryKnown,
    hbattery, ite_self, and_self]

theorem updateBattery_batteryOk (p : PowerMgr) (permille : Nat) :
    (p.updateBattery permille).batteryOk = (p.batteryOk.update permille).2 := by
  unfold updateBattery
  dsimp only
  split <;> rfl

end PowerMgr

namespace BcmCore

theorem thresholds_exec {cfg : Config} {s : BcmCore} (h : Thresholds cfg s.lighting s.power)
    (op : CoreOp) : Thresholds cfg (s.exec cfg op).lighting (s.exec cfg op).power := by
  cases op with
  | step dtMs =>
      have hdark : (s.applyEdges cfg dtMs).lighting.dark = s.lighting.dark := by
        rw [applyEdges_lighting]
        simp only [pressedLighting, ignitionLighting, apply_ite LightingMgr.dark,
          LightingMgr.indicatorHazard_dark, LightingMgr.nextMode, LightingMgr.allOff,
          LightingMgr.lightEvent, LightingMgr.indicatorLeft, LightingMgr.indicatorRight,
          LightingMgr.indicatorEvent, ite_self]
      have hbattery : (s.applyEdges cfg dtMs).power.batteryOk = s.power.batteryOk := by
        rw [applyEdges_power]
        simp only [apply_ite PowerMgr.batteryOk, PowerMgr.ignitionOff_batteryOk,
          PowerMgr.ignitionOn_batteryOk, ite_self]
      have htrigger : (s.step cfg dtMs).power.batteryOk =
          (s.power.batteryOk.update s.inputs.batteryPermille).2 := by
        rw [step_power, (PowerMgr.update_battery ..).2.1, PowerMgr.updateBattery_batteryOk,
          hbattery]
      obtain ⟨hlow, hhigh⟩ := (s.applyEdges cfg dtMs).lighting.updateAmbient_thresholds
        s.inputs.ambientPermille
      change Thresholds cfg (s.step cfg dtMs).lighting (s.step cfg dtMs).power
      refine ⟨?_, ?_, ?_, ?_⟩
      · rw [step_lighting, hlow, hdark, h.darkLow]
      · rw [step_lighting, hhigh, hdark, h.darkHigh]
      · rw [htrigger]
        exact h.batteryLow
      · rw [htrigger]
        exact h.batteryHigh
  | reset => exact ⟨h.darkLow, h.darkHigh, h.batteryLow, h.batteryHigh⟩
  | setInputs _ | setCommsLost _ | setHostRequest _ _ | requestDoorLock | requestDoorUnlock
  | requestLightMode | setFault _ | clearFaults | popLog => exact h

theorem thresholds_run (cfg : Config) (ops : List CoreOp) :
    Thresholds cfg (run cfg ops).lighting (run cfg ops).power := by
  have hnew : Thresholds cfg (new cfg).lighting (new cfg).power := ⟨rfl, rfl, rfl, rfl⟩
  exact (reachable_run cfg ops).invariant (I := fun s => Thresholds cfg s.lighting s.power) hnew
    fun _ op _ h => thresholds_exec h op

/-! ### What can be seen of a core -/

structure Observation where
  lamps : LampState
  horn : Bool
  light : LightState
  indicator : IndState
  door : DoorState
  power : PowerState
  loadShed : Bool
  faults : FaultMgr
  popped : Option LogRecord
  deriving DecidableEq

/-- The record an operation takes from the log. -/
def popped (s : BcmCore) : CoreOp → Option LogRecord
  | .popLog => s.log.pop.1
  | _ => none

/-- One operation, and what is seen after it. -/
def observe (cfg : Config) (s : BcmCore) (op : CoreOp) : BcmCore × Observation :=
  let s' := s.exec cfg op
  (s', {
    lamps := s'.lamps
    horn := s'.horn.output
    light := s'.lighting.lightState
    indicator := s'.lighting.indicatorState
    door := s'.door.state
    power := s'.power.state
    loadShed := s'.power.loadShed
    faults := s'.faults
    popped := s.popped op })

def observations (cfg : Config) (s : BcmCore) (ops : List CoreOp) : List Observation :=
  Transducer.outputs (observe cfg) s ops

/-- Whatever is done after the history and a reset, what is seen is what is seen of a new core. -/
def ResetsToNew (cfg : Config) (history : List CoreOp) : Prop :=
  ∀ ops, observations cfg (run cfg (history ++ [.reset])) ops = observations cfg (new cfg) ops

theorem run_reset (cfg : Config) (history : List CoreOp) :
    run cfg (history ++ [.reset]) = (run cfg history).reset :=
  run_concat cfg history .reset

theorem reset_new (cfg : Config) : (new cfg).reset = new cfg := rfl

theorem observations_eq_of_alike (cfg : Config) {a b : BcmCore} (h : Alike a b)
    (ops : List CoreOp) : observations cfg a ops = observations cfg b ops := by
  refine Transducer.outputs_eq_of_related (observe cfg) (R := Alike) ?_ h ops
  intro s t op hst
  have hnext := hst.exec cfg op
  refine ⟨?_, hnext⟩
  have hpopped : s.popped op = t.popped op := by
    cases op with
    | popLog => exact hst.log.pop.1
    | _ => rfl
  unfold observe LightingMgr.lightState LightingMgr.indicatorState DoorMgr.state PowerMgr.state
  dsimp only
  rw [hpopped, hnext.lamps, hnext.horn.output, hnext.lighting.light, hnext.lighting.indicator,
    hnext.door.state, hnext.power.state, hnext.loadShed, hnext.faults]

/-- Cores that look alike whatever is done look alike after any operations. -/
theorem observe_eq_of_observations {cfg : Config} {a b : BcmCore}
    (h : ∀ ops, observations cfg a ops = observations cfg b ops) (ops : List CoreOp)
    (op : CoreOp) :
    ((Runs.run (exec cfg) a ops).observe cfg op).2 =
      ((Runs.run (exec cfg) b ops).observe cfg op).2 := by
  have hlast : ∀ s, observations cfg s (ops ++ [op]) =
      observations cfg s ops ++ [((Runs.run (exec cfg) s ops).observe cfg op).2] :=
    fun s => Transducer.outputs_append (observe cfg) s ops [op]
  have hboth := h (ops ++ [op])
  rw [hlast, hlast, h ops] at hboth
  exact List.singleton_inj.mp (List.append_cancel_left hboth)

/-! ### What the first readings show -/

/-- The first cycle after a reset shows what the ambient trigger makes of its reading. -/
theorem light_of_reset (cfg : Config) (s : BcmCore) (inputs : Inputs) (dtMs : Nat) :
    ((s.reset.setInputs inputs).step cfg dtMs).lighting.lightState =
      if (s.lighting.dark.update (LightingMgr.complement inputs.ambientPermille)).1 then .lowBeam
      else .off := by
  have hlight := s.lighting.reset.updateAmbient_light inputs.ambientPermille
  rw [step_lighting, applyEdges_lighting]
  have hfirst : (s.reset.setInputs inputs).firstCycle = true := rfl
  rw [if_pos hfirst]
  have hyields : s.lighting.reset.yieldsToAuto = true := rfl
  have hknown : s.lighting.reset.darkKnown = false := rfl
  rw [hyields, hknown, if_pos rfl, Bool.false_and, if_neg Bool.false_ne_true] at hlight
  exact (congrArg Prod.fst hlight).trans (apply_ite Prod.fst _ _ _)

/-- A reset, and two cycles in which nothing is pressed: the second shows what the battery trigger
makes of the reading the second time. -/
theorem loadShed_of_reset (cfg : Config) (s : BcmCore) {inputs : Inputs}
    (hignition : inputs.ignition = false) :
    (((s.reset.setInputs inputs).step cfg 0).step cfg 0).power.loadShed =
      !((s.power.batteryOk.update inputs.batteryPermille).2.update inputs.batteryPermille).1 := by
  have hfirst : ((s.reset.setInputs inputs).applyEdges cfg 0).power = s.power.reset := by
    rw [applyEdges_power, if_neg]
    · rfl
    · simp [shortPress, setInputs, reset]
  have hpower := step_power cfg 0 (s.reset.setInputs inputs)
  have hinputs := step_inputs cfg 0 (s.reset.setInputs inputs)
  have hprevious := step_previous cfg 0 (s.reset.setInputs inputs)
  rw [hfirst] at hpower
  generalize (s.reset.setInputs inputs).step cfg 0 = t at hpower hinputs hprevious
  have hsecond : (t.applyEdges cfg 0).power = t.power := by
    rw [applyEdges_power, if_neg]
    rw [shortPress, hinputs, hprevious]
    simp [setInputs, hignition]
  have hread : t.power.batteryKnown = true ∧
      t.power.batteryOk = (s.power.batteryOk.update inputs.batteryPermille).2 := by
    rw [hpower, (PowerMgr.update_battery ..).2.1, (PowerMgr.update_battery ..).2.2]
    exact ⟨rfl, rfl⟩
  obtain ⟨hknown, htrigger⟩ := hread
  rw [PowerMgr.loadShed, step_power, (PowerMgr.update_battery ..).1, hsecond, hinputs,
    PowerMgr.updateBattery, hknown, htrigger]
  rfl

/-! ### Exactly the triggers -/

/-- Nothing is pressed, and both triggers see the value. -/
def reading (v : Nat) : Inputs :=
  { Inputs.initial with batteryPermille := v, ambientPermille := 1000 - v }

theorem alike_new_iff (cfg : Config) (history : List CoreOp) :
    ((run cfg history).lighting.dark.Alike (· ≤ 1000) (new cfg).lighting.dark ↔
        (run cfg history).lighting.dark.Forgets (· ≤ 1000) false) ∧
      ((run cfg history).power.batteryOk.Alike (fun _ => True) (new cfg).power.batteryOk ↔
        (run cfg history).power.batteryOk.Forgets (fun _ => True) true) := by
  have h := thresholds_run cfg history
  have hdark : (new cfg).lighting.dark =
      ⟨(run cfg history).lighting.dark.low, (run cfg history).lighting.dark.high, false⟩ := by
    rw [h.darkLow, h.darkHigh]
    rfl
  have hbattery : (new cfg).power.batteryOk =
      ⟨(run cfg history).power.batteryOk.low, (run cfg history).power.batteryOk.high, true⟩ := by
    rw [h.batteryLow, h.batteryHigh]
    rfl
  rw [hdark, hbattery]
  exact ⟨Hysteresis.alike_iff .., Hysteresis.alike_iff ..⟩

/-- **Reset and construction, exactly.** After a history a reset is as good as a new core if and
only if the history has left each trigger as it was built, or in a state that no reading tells from
that. -/
theorem resetsToNew_iff (cfg : Config) (history : List CoreOp) :
    ResetsToNew cfg history ↔
      (run cfg history).lighting.dark.Forgets (· ≤ 1000) false ∧
        (run cfg history).power.batteryOk.Forgets (fun _ => True) true := by
  obtain ⟨hdark, hbattery⟩ := alike_new_iff cfg history
  have hthresholds := thresholds_run cfg history
  rw [← hdark, ← hbattery]
  unfold ResetsToNew
  rw [run_reset]
  generalize run cfg history = s at hthresholds ⊢
  constructor
  · intro hsame
    rw [← reset_new cfg] at hsame
    constructor
    · refine ⟨hthresholds.darkLow, hthresholds.darkHigh, fun v hv => ?_⟩
      -- the complement of the complement is the value again
      have hseen : LightingMgr.complement (reading v).ambientPermille = v := by
        unfold LightingMgr.complement reading
        rw [if_neg (by dsimp only; omega)]
        dsimp only
        omega
      have hlight := congrArg Observation.light
        (observe_eq_of_observations hsame [.setInputs (reading v)] (.step 0))
      simp only [observe, exec, Runs.run_cons, Runs.run_nil] at hlight
      rw [light_of_reset, light_of_reset, hseen] at hlight
      revert hlight
      cases (s.lighting.dark.update v).1 <;> cases ((new cfg).lighting.dark.update v).1 <;> simp
    · refine ⟨hthresholds.batteryLow, hthresholds.batteryHigh, fun v _ => ?_⟩
      have hload := congrArg Observation.loadShed
        (observe_eq_of_observations hsame [.setInputs (reading v), .step 0] (.step 0))
      simp only [observe, exec, Runs.run_cons, Runs.run_nil] at hload
      have hseen : (reading v).batteryPermille = v := rfl
      have hreleased : (reading v).ignition = false := rfl
      rw [loadShed_of_reset cfg s hreleased, loadShed_of_reset cfg (new cfg) hreleased,
        hseen] at hload
      exact Hysteresis.update_twice hthresholds.batteryLow hthresholds.batteryHigh
        (Bool.not_inj hload)
  · rintro ⟨halikeDark, halikeBattery⟩
    have hlighting : s.lighting.reset.Alike (new cfg).lighting.reset :=
      ⟨rfl, rfl, rfl, rfl, halikeDark, rfl⟩
    have hpower : s.power.reset.Alike (new cfg).power.reset :=
      ⟨rfl, rfl, halikeBattery, .of_stop _ _, .of_stop _ _, rfl⟩
    rw [← reset_new cfg]
    exact observations_eq_of_alike cfg (.reset hlighting hpower)

/-- One cycle at an ambient reading. -/
def cycleAt (permille : Nat) : List CoreOp :=
  [.setInputs { Inputs.initial with ambientPermille := permille }, .step 5]

/-- A cycle in the dark, a reset, and a reading between the thresholds: the low beam is on, and a
new core leaves it off. -/
theorem not_resetsToNew_dark :
    (observations .shipped (run .shipped (cycleAt 500 ++ [.reset])) (cycleAt 650)).map (·.light) =
        [.off, .lowBeam] ∧
      (observations .shipped (new .shipped) (cycleAt 650)).map (·.light) = [.off, .off] ∧
      ¬ ResetsToNew .shipped (cycleAt 500) := by
  have hreset : (observations .shipped (run .shipped (cycleAt 500 ++ [.reset])) (cycleAt 650)).map
      (·.light) = [.off, .lowBeam] := by decide +kernel
  have hnew : (observations .shipped (new .shipped) (cycleAt 650)).map (·.light) =
      [.off, .off] := by decide +kernel
  refine ⟨hreset, hnew, fun hsame => ?_⟩
  rw [hsame (cycleAt 650), hnew] at hreset
  exact absurd hreset (by decide)

end BcmCore

end Bcm
