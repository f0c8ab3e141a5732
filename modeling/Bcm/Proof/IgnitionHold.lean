import Bcm.Lib.Stopwatch
import Bcm.Proof.CoreStep
import Bcm.Proof.Headlights

/-!
# Short and long presses

A hold is the part of a run from a cycle that saw the ignition released to the next one that does,
with the ignition asserted in every cycle between. The hold time is kept in 16 bits. As long as it
does not step over the long press while it wraps, a hold is told long or short by its true length.
-/

namespace Bcm.BcmCore

/-- What `apply_edges` calls for the ignition: the lighting's `next_mode`, and the `ignition_on` and
`ignition_off` of the power manager. -/
inductive IgnitionCall where
  | nextMode
  | ignitionOn
  | ignitionOff
  deriving DecidableEq

/-- A call, and what goes with it: its record, and the lights that an ignition off puts out. -/
def perform (cfg : Config) (s : BcmCore) : IgnitionCall → BcmCore
  | .nextMode =>
      let s := { s with lighting := s.lighting.nextMode }
      s.logEvent .lightMode s.lighting.lightState.toNat
  | .ignitionOn =>
      let s := { s with power := s.power.ignitionOn cfg }
      s.logEvent .ignitionOn
  | .ignitionOff =>
      let s := { s with power := s.power.ignitionOff }
      let s := s.logEvent .ignitionOff
      { s with lighting := s.lighting.allOff }

variable (cfg : Config) (dtMs : Nat) (s : BcmCore)

/-- The calls of one cycle. -/
def ignitionCalls : List IgnitionCall :=
  if !s.firstCycle && s.longPress cfg dtMs then [.nextMode]
  else if s.shortPress then [if s.power.running then .ignitionOff else .ignitionOn]
  else []

/-- The hold time after one cycle. -/
def heldAfter : Nat :=
  if s.inputs.ignition then (s.ignitionHeldMs + dtMs) % 2 ^ 16
  else if s.previous.ignition then 0
  else s.ignitionHeldMs

/-- Whether the hold has had its long press, after one cycle. -/
def firedAfter : Bool :=
  if s.inputs.ignition then s.longPressFired || s.longPress cfg dtMs
  else s.longPressFired && !s.previous.ignition

/-- **The ignition blocks make these calls.** Beyond them they keep the time of the hold. -/
theorem ignition_blocks {s : BcmCore} (hfirst : s.firstCycle = false) :
    releaseIgnition cfg (holdIgnition cfg dtMs s) =
      { (s.ignitionCalls cfg dtMs).foldl (perform cfg) s with
        ignitionHeldMs := s.heldAfter dtMs
        longPressFired := s.firedAfter cfg dtMs } := by
  unfold ignitionCalls heldAfter firedAfter shortPress longPress
  cases hon : s.inputs.ignition with
  | true =>
      have hrelease : ∀ t : BcmCore, t.inputs.ignition = true → releaseIgnition cfg t = t := by
        intro t ht
        simp [releaseIgnition, ht]
      have hinputs : (holdIgnition cfg dtMs s).inputs = s.inputs := by
        simp only [holdIgnition, logEvent, apply_ite BcmCore.inputs, ite_self]
      rw [hrelease _ (by rw [hinputs, hon])]
      unfold holdIgnition
      dsimp only
      generalize (s.ignitionHeldMs + dtMs) % 2 ^ 16 = heldMs
      cases hlong : !s.longPressFired && decide (cfg.longPressMs ≤ heldMs) with
      | true => simp [perform, logEvent, hfirst, hon]
      | false => simp [hfirst, hon]
  | false =>
      have hhold : holdIgnition cfg dtMs s = s := by simp [holdIgnition, hon]
      rw [hhold]
      cases hbefore : s.previous.ignition with
      | true =>
          cases hfired : s.longPressFired <;> cases hrunning : s.power.running <;>
            simp [releaseIgnition, perform, logEvent, hfirst, hon, hbefore, hfired, hrunning]
      | false => simp [releaseIgnition, hon, hbefore]

theorem step_ignition :
    (s.step cfg dtMs).ignitionHeldMs =
        (if s.firstCycle then s.ignitionHeldMs else s.heldAfter dtMs) ∧
      (s.step cfg dtMs).longPressFired =
        (if s.firstCycle then s.longPressFired else s.firedAfter cfg dtMs) := by
  obtain ⟨_, _, _, hcycle⟩ := (s.applyEdges cfg dtMs).cycle_eq cfg dtMs
  obtain ⟨_, hedges⟩ := s.edges_eq cfg dtMs
  rw [step, hcycle, applyEdges]
  split
  case isTrue hfirst => exact ⟨rfl, rfl⟩
  case isFalse hfirst =>
    rw [hedges, ignition_blocks cfg dtMs (Bool.eq_false_iff.mpr hfirst)]
    exact ⟨rfl, rfl⟩

/-! ### A hold -/

/-- In a core that last saw the ignition released no hold is under way. -/
def NoHold (s : BcmCore) : Prop :=
  s.firstCycle = true ∨ s.previous.ignition = false →
    s.ignitionHeldMs = 0 ∧ s.longPressFired = false

theorem noHold_step (h : s.NoHold) : (s.step cfg dtMs).NoHold := by
  obtain ⟨hheld, hfired⟩ := s.step_ignition cfg dtMs
  rintro (hfirst | hreleased)
  · rw [step_firstCycle] at hfirst
    exact absurd hfirst Bool.false_ne_true
  · rw [step_previous] at hreleased
    rw [hheld, hfired]
    unfold heldAfter firedAfter
    cases hfirst : s.firstCycle with
    | true => exact h (Or.inl hfirst)
    | false =>
        rw [if_neg Bool.false_ne_true, if_neg Bool.false_ne_true, hreleased,
          if_neg Bool.false_ne_true, if_neg Bool.false_ne_true]
        cases hbefore : s.previous.ignition with
        | true => simp
        | false => simpa using h (Or.inr hbefore)

theorem noHold_of_reachable {s : BcmCore} (h : Reachable cfg s) : s.NoHold := by
  apply Runs.Reachable.invariant (I := NoHold) h
  · intro _
    exact ⟨rfl, rfl⟩
  · intro t op _ ht
    cases op with
    | step dtMs => exact noHold_step cfg dtMs t ht
    | reset => exact fun _ => ⟨rfl, rfl⟩
    | setInputs _ | setCommsLost _ | setHostRequest _ _ | requestDoorLock | requestDoorUnlock
    | requestLightMode | setFault _ | clearFaults | popLog => exact ht

/-- What happens while the ignition is held: every cycle finds it asserted, and nobody resets the
core. -/
def Holding (s : BcmCore) : CoreOp → Prop
  | .step _ => s.inputs.ignition = true
  | .reset => False
  | _ => True

instance (s : BcmCore) (op : CoreOp) : Decidable (s.Holding op) :=
  match op with
  | .step _ => inferInstanceAs (Decidable (s.inputs.ignition = true))
  | .reset => inferInstanceAs (Decidable False)
  | .setInputs _ | .setCommsLost _ | .setHostRequest _ _ | .requestDoorLock | .requestDoorUnlock
  | .requestLightMode | .setFault _ | .clearFaults | .popLog => inferInstanceAs (Decidable True)

/-- The lengths of the cycles among some operations. -/
def durations (ops : List CoreOp) : List Nat :=
  ops.filterMap fun op => match op with
    | .step dtMs => some dtMs
    | _ => none

/-- The calls that one operation makes for the ignition. -/
def opCalls (s : BcmCore) : CoreOp → List IgnitionCall
  | .step dtMs => s.ignitionCalls cfg dtMs
  | _ => []

/-- The calls that some operations make, one after the other. -/
def callsAlong (s : BcmCore) : List CoreOp → List IgnitionCall
  | [] => []
  | op :: ops => s.opCalls cfg op ++ callsAlong (s.exec cfg op) ops

theorem callsAlong_concat (ops : List CoreOp) (op : CoreOp) :
    callsAlong cfg s (ops ++ [op]) =
      callsAlong cfg s ops ++ (Runs.run (exec cfg) s ops).opCalls cfg op := by
  induction ops generalizing s with
  | nil => simp [callsAlong]
  | cons first ops ih =>
      rw [List.cons_append, callsAlong, callsAlong, ih, List.append_assoc, Runs.run_cons]

/-- A hold: it begins where the last cycle saw the ignition released, and the next cycle will see
it released again. -/
structure Hold (s : BcmCore) (ops : List CoreOp) : Prop where
  reachable : Reachable cfg s
  started : s.firstCycle = false
  released : s.previous.ignition = false
  holding : Runs.Along (exec cfg) Holding s ops
  letGo : (Runs.run (exec cfg) s ops).inputs.ignition = false

/-- The core `t` after some operations of a hold from `s`. -/
structure Held (s : BcmCore) (ops : List CoreOp) (t : BcmCore) : Prop where
  started : t.firstCycle = false
  heldMs : t.ignitionHeldMs = (durations ops).sum % 2 ^ 16
  fired : t.longPressFired = true ↔ Stopwatch.Rung (2 ^ 16) cfg.longPressMs (durations ops)
  previous : t.previous.ignition = decide (durations ops ≠ [])
  calls : callsAlong cfg s ops = if t.longPressFired then [.nextMode] else []

variable {s} {ops : List CoreOp}

theorem held_step {t : BcmCore} (h : Held cfg s ops t) (ht : t = Runs.run (exec cfg) s ops)
    (hon : t.inputs.ignition = true) :
    Held cfg s (ops ++ [.step dtMs]) (t.step cfg dtMs) := by
  obtain ⟨hheld, hfired⟩ := t.step_ignition cfg dtMs
  have hdurations : durations (ops ++ [.step dtMs]) = durations ops ++ [dtMs] :=
    List.filterMap_append
  rw [h.started, if_neg Bool.false_ne_true, heldAfter, if_pos hon] at hheld
  rw [h.started, if_neg Bool.false_ne_true, firedAfter, if_pos hon, longPress, hon,
    Bool.true_and, h.heldMs] at hfired
  have hcalls : t.ignitionCalls cfg dtMs =
      if !t.longPressFired && (t.step cfg dtMs).longPressFired then [.nextMode] else [] := by
    unfold ignitionCalls shortPress longPress
    rw [hfired, h.started, hon, h.heldMs]
    cases t.longPressFired <;> simp
  constructor
  case started => exact t.step_firstCycle cfg dtMs
  case heldMs => rw [hheld, hdurations, Stopwatch.shown_concat, h.heldMs]
  case fired =>
    rw [hdurations, Stopwatch.rung_concat, ← h.fired, hfired]
    cases t.longPressFired <;> simp
  case previous => simp [hdurations, hon]
  case calls =>
    rw [callsAlong_concat, h.calls, ← ht, opCalls, hcalls]
    cases hbefore : t.longPressFired with
    | true =>
        rw [hbefore] at hfired
        simp [hfired]
    | false => simp

/-- Between the cycles nothing of it moves. -/
theorem Held.idle {t t' : BcmCore} (h : Held cfg s ops t) (ht : t = Runs.run (exec cfg) s ops)
    {op : CoreOp} (hduration : durations [op] = []) (hcalls : t.opCalls cfg op = [])
    (hstarted : t'.firstCycle = t.firstCycle) (hheld : t'.ignitionHeldMs = t.ignitionHeldMs)
    (hfired : t'.longPressFired = t.longPressFired) (hprevious : t'.previous = t.previous) :
    Held cfg s (ops ++ [op]) t' := by
  have hdurations : durations (ops ++ [op]) = durations ops := by
    calc durations (ops ++ [op]) = durations ops ++ durations [op] := List.filterMap_append
      _ = durations ops := by rw [hduration, List.append_nil]
  constructor
  case started => rw [hstarted, h.started]
  case heldMs => rw [hheld, h.heldMs, hdurations]
  case fired => rw [hfired, h.fired, hdurations]
  case previous => rw [hprevious, h.previous, hdurations]
  case calls => rw [callsAlong_concat, ← ht, hcalls, List.append_nil, h.calls, hfired]

theorem held_run (h : Hold cfg s ops) : Held cfg s ops (Runs.run (exec cfg) s ops) := by
  obtain ⟨hheld, hfired⟩ := noHold_of_reachable cfg h.reachable (Or.inr h.released)
  apply Runs.run_history (I := fun ops t => Held cfg s ops t) ?_ ?_ h.holding
  · exact ⟨h.started, hheld, by simp [hfired, Stopwatch.not_rung_nil, durations],
      by simpa [durations] using h.released, by simp [callsAlong, hfired]⟩
  · intro ops op hop hheld
    cases op with
    | step dtMs => exact held_step cfg dtMs hheld rfl hop
    | reset => exact absurd hop id
    | setInputs _ | setCommsLost _ | setHostRequest _ _ | requestDoorLock | requestDoorUnlock
    | requestLightMode | setFault _ | clearFaults | popLog =>
        exact hheld.idle cfg rfl rfl rfl rfl rfl rfl rfl

/-! ### The classification -/

/-- A hold of this length and the cycle that ends it make the calls of a long press, or of a short
one. -/
def Classified (longPressMs total : Nat) (hold release : List IgnitionCall) : Prop :=
  if longPressMs ≤ total then
    (hold ++ release).count .nextMode = 1 ∧ .ignitionOn ∉ hold ++ release ∧
      .ignitionOff ∉ hold ++ release
  else .nextMode ∉ hold ++ release ∧ release.countP (· ≠ .nextMode) = 1

instance (longPressMs total : Nat) (hold release : List IgnitionCall) :
    Decidable (Classified longPressMs total hold release) := by
  unfold Classified
  infer_instance

/-- The calls of a hold that a cycle may have seen and that may have had its long press. -/
theorem classified_iff (longPressMs total : Nat) {seen fired : Bool} (hseen : fired = true → seen = true)
    (running : Bool) :
    Classified longPressMs total (if fired then [.nextMode] else [])
        (if seen && !fired then [if running then .ignitionOff else .ignitionOn] else []) ↔
      seen = true ∧ (fired = true ↔ longPressMs ≤ total) := by
  unfold Classified
  by_cases hlong : longPressMs ≤ total
  · rw [if_pos hlong]
    cases fired with
    | true => simp [hseen, hlong]
    | false => cases seen <;> cases running <;> simp [hlong]
  · rw [if_neg hlong]
    cases fired with
    | true => simp [hlong]
    | false => cases seen <;> cases running <;> simp [hlong]

/-- The cycle that lets go calls what a short press calls, unless the hold had its long press. -/
theorem release_calls (h : Hold cfg s ops) :
    (Runs.run (exec cfg) s ops).ignitionCalls cfg dtMs =
      if decide (durations ops ≠ []) && !(Runs.run (exec cfg) s ops).longPressFired then
        [if (Runs.run (exec cfg) s ops).power.running then .ignitionOff else .ignitionOn]
      else [] := by
  have hheld := held_run cfg h
  unfold ignitionCalls shortPress longPress
  rw [hheld.started, hheld.previous, h.letGo]
  simp

/-- **A press is classified by its true duration** if and only if a cycle saw it at all, and it is
too short for a long press or the 16-bit hold time shows a long press after one of its cycles. -/
theorem press_classified_iff (h : Hold cfg s ops) :
    Classified cfg.longPressMs (durations ops).sum (callsAlong cfg s ops)
        ((Runs.run (exec cfg) s ops).ignitionCalls cfg dtMs) ↔
      durations ops ≠ [] ∧
        ((durations ops).sum < cfg.longPressMs ∨
          Stopwatch.Rung (2 ^ 16) cfg.longPressMs (durations ops)) := by
  have hheld := held_run cfg h
  have hseen : (Runs.run (exec cfg) s ops).longPressFired = true →
      decide (durations ops ≠ []) = true := by
    intro hfired
    exact decide_eq_true (hheld.fired.mp hfired).ne_nil
  rw [hheld.calls, release_calls cfg dtMs h, classified_iff _ _ hseen, hheld.fired,
    decide_eq_true_iff]
  apply and_congr_right
  intro _
  by_cases hlong : cfg.longPressMs ≤ (durations ops).sum
  · rw [iff_true_right hlong, or_iff_right (Nat.not_lt.mpr hlong)]
  · have hshort := Nat.lt_of_not_le hlong
    exact iff_of_true (iff_of_false (Stopwatch.not_rung_of_sum_lt hshort) hlong) (Or.inl hshort)

/-- The ignition of a parked vehicle is held for two cycles and let go. -/
def pressOps (firstMs secondMs : Nat) : List CoreOp :=
  let charged := { Inputs.initial with batteryPermille := 800 }
  [.setInputs { charged with ignition := true }, .step firstMs, .step secondMs, .setInputs charged]

theorem hold_pressOps (firstMs secondMs : Nat) :
    Hold .shipped (run .shipped [.step 5]) (pressOps firstMs secondMs) where
  reachable := reachable_run .shipped [.step 5]
  started := by simp [run, exec]
  released := by simp [run, exec, new, Inputs.initial]
  holding := by simp [pressOps, Runs.Along, Holding, exec, setInputs]
  letGo := by simp [pressOps, exec, setInputs, Inputs.initial]

theorem press_classified_second :
    Classified 800 1000 (callsAlong .shipped (run .shipped [.step 5]) (pressOps 500 500))
      ((Runs.run (exec .shipped) (run .shipped [.step 5]) (pressOps 500 500)).ignitionCalls
        .shipped 5) :=
  (press_classified_iff .shipped 5 (hold_pressOps 500 500)).mpr
    ⟨by decide, Or.inr ⟨[500, 500], by decide, by decide, by decide⟩⟩

/-- A cycle that took the longest time a clock can report carries the hold time past the long press
and back to 798. -/
theorem press_misclassified :
    Hold .shipped (run .shipped [.step 5]) (pressOps 799 65535) ∧
      ¬Classified Config.shipped.longPressMs (durations (pressOps 799 65535)).sum
        (callsAlong .shipped (run .shipped [.step 5]) (pressOps 799 65535))
        ((Runs.run (exec .shipped) (run .shipped [.step 5]) (pressOps 799 65535)).ignitionCalls
          .shipped 5) :=
  ⟨hold_pressOps 799 65535, by decide +kernel⟩

end Bcm.BcmCore
