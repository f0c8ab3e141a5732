import Bcm.Proof.Headlights

/-!
# The driver's choice and the ambient sensor

A press of the mode button that leaves a light on marks the choice as the driver's, and the mark
keeps the sensor from switching on. What keeps it from switching off is that the auto-headlight does
not hold what the driver stepped to: the flag of its ownership is not cleared by the press, but it
belongs to a low beam, and a press never leads from a low beam to a low beam.
-/

namespace Bcm

/-- The calls that decide the light. -/
inductive LightingOp where
  | nextMode
  | allOff
  | updateAmbient (permille : Nat)

namespace LightingMgr

def exec (m : LightingMgr) : LightingOp → LightingMgr
  | .nextMode => m.nextMode
  | .allOff => m.allOff
  | .updateAmbient permille => m.updateAmbient permille

def run (cfg : Config) (ops : List LightingOp) : LightingMgr := Runs.run exec (new cfg) ops

theorem run_concat (cfg : Config) (ops : List LightingOp) (op : LightingOp) :
    run cfg (ops ++ [op]) = (run cfg ops).exec op :=
  Runs.run_concat exec (new cfg) ops op

theorem owned_run (cfg : Config) (ops : List LightingOp) : Owned (run cfg ops) := by
  have hreachable : Runs.Reachable exec (new cfg) (fun _ => True) (run cfg ops) :=
    ⟨ops, fun _ _ => trivial, rfl⟩
  refine hreachable.invariant (owned_new cfg) fun m op _ howned => ?_
  cases op with
  | nextMode => exact howned.nextMode
  | allOff => exact owned_allOff m
  | updateAmbient permille => exact howned.updateAmbient permille

/-! ### What the driver stepped to -/

/-- The light is the driver's, and the sensor may neither switch it on nor off. -/
structure Chosen (m : LightingMgr) : Prop where
  manual : m.ctx.manualOverride = true
  unheld : m.heldByAuto = false

theorem Owned.chosen_nextMode {m : LightingMgr} (h : Owned m)
    (hlit : m.nextMode.lightState ≠ .off) : Chosen m.nextMode := by
  have hctx := m.nextMode_light.2
  rw [if_neg (fun hhigh => hlit (m.nextMode_off_iff.mpr hhigh))] at hctx
  constructor
  · rw [hctx]
    rfl
  · exact h.heldByAuto_nextMode

theorem Chosen.updateAmbient {m : LightingMgr} (h : Chosen m) (permille : Nat) :
    (m.updateAmbient permille).lightState = m.lightState ∧ Chosen (m.updateAmbient permille) := by
  have hyields : m.yieldsToAuto = false := by
    rw [← Bool.not_eq_true, yieldsToAuto_iff, h.manual]
    simp
  obtain ⟨hlight, hctx⟩ := @updateAmbient_of_idle m permille
    (by simp [hyields]) (by simp [h.unheld])
  refine ⟨hlight, ?_, ?_⟩
  · rw [hctx]
    exact h.manual
  · rw [heldByAuto, hlight, hctx, ← heldByAuto]
    exact h.unheld

/-- The call reads the sensor. -/
def IsReading : LightingOp → Prop
  | .updateAmbient _ => True
  | _ => False

/-- The driver's last call was a press of the mode button, and it left a light on. -/
def DriverChose (cfg : Config) (ops : List LightingOp) : Prop :=
  ∃ front back, ops = front ++ .nextMode :: back ∧ (∀ op ∈ back, IsReading op) ∧
    (run cfg (front ++ [.nextMode])).lightState ≠ .off

theorem Chosen.run {m : LightingMgr} (h : Chosen m) {ops : List LightingOp}
    (hops : ∀ op ∈ ops, IsReading op) : Chosen (Runs.run exec m ops) := by
  induction ops generalizing m with
  | nil => exact h
  | cons op ops ih =>
      have hreading : IsReading op := hops op (by simp)
      cases op with
      | nextMode => exact absurd hreading id
      | allOff => exact absurd hreading id
      | updateAmbient permille =>
          exact ih (h.updateAmbient permille).2 fun op hop => hops op (List.mem_cons_of_mem _ hop)

theorem DriverChose.chosen {cfg : Config} {ops : List LightingOp} (h : DriverChose cfg ops) :
    Chosen (run cfg ops) := by
  obtain ⟨front, back, rfl, hback, hlit⟩ := h
  rw [run_concat] at hlit
  have hpressed : Chosen (run cfg (front ++ [.nextMode])) := by
    rw [run_concat]
    exact (owned_run cfg front).chosen_nextMode hlit
  have hsplit : run cfg (front ++ .nextMode :: back) =
      Runs.run exec (run cfg (front ++ [.nextMode])) back := by
    rw [List.append_cons, run, Runs.run_append, ← run]
  rw [hsplit]
  exact hpressed.run hback

/-! ### What the auto-headlight holds -/

/-- The low beam has been on since a reading of the sensor that found it off. -/
def EnteredByReading (cfg : Config) (ops : List LightingOp) : Prop :=
  ∃ front permille back, ops = front ++ .updateAmbient permille :: back ∧
    (run cfg front).lightState ≠ .lowBeam ∧
    ∀ mid, mid <+: back →
      (run cfg (front ++ .updateAmbient permille :: mid)).lightState = .lowBeam

/-- The reading that has just switched the low beam on. -/
theorem enteredByReading_of_switch {cfg : Config} {ops : List LightingOp} {permille : Nat}
    (hbefore : (run cfg ops).lightState ≠ .lowBeam)
    (hafter : (run cfg (ops ++ [.updateAmbient permille])).lightState = .lowBeam) :
    EnteredByReading cfg (ops ++ [.updateAmbient permille]) := by
  refine ⟨ops, permille, [], rfl, hbefore, fun mid hmid => ?_⟩
  rw [List.prefix_nil.mp hmid]
  exact hafter

/-- A call that leaves the low beam on leaves it where it came from. -/
theorem EnteredByReading.concat {cfg : Config} {ops : List LightingOp}
    (h : EnteredByReading cfg ops) {op : LightingOp}
    (hlow : (run cfg (ops ++ [op])).lightState = .lowBeam) :
    EnteredByReading cfg (ops ++ [op]) := by
  obtain ⟨front, permille, back, rfl, hbefore, hsince⟩ := h
  refine ⟨front, permille, back ++ [op], by simp, hbefore, fun mid hmid => ?_⟩
  rcases List.prefix_concat_iff.mp hmid with rfl | hearlier
  · rw [List.append_assoc, List.cons_append] at hlow
    exact hlow
  · exact hsince mid hearlier

/-- A reading that finds the low beam on and leaves it on does not change who holds it. -/
theorem updateAmbient_ctx_of_lowBeam {m : LightingMgr} {permille : Nat}
    (hbefore : m.lightState = .lowBeam)
    (hafter : (m.updateAmbient permille).lightState = .lowBeam) :
    (m.updateAmbient permille).ctx = m.ctx := by
  have hyields : m.yieldsToAuto = false := by simp [yieldsToAuto, hbefore]
  refine (updateAmbient_of_idle (by simp [hyields]) ?_).2
  rintro ⟨hbright, hheld⟩
  have hlight := congrArg Prod.fst (m.updateAmbient_light permille)
  rw [if_neg (by simp [hbright]), if_pos hheld] at hlight
  exact absurd (hafter.symm.trans hlight) (by simp)

/-- **What the auto-headlight holds, it has switched on.** -/
theorem enteredByReading_of_held (cfg : Config) (ops : List LightingOp) :
    (run cfg ops).heldByAuto = true → EnteredByReading cfg ops := by
  induction ops using List.reverseRecOn with
  | nil => exact fun hheld => absurd hheld (by simp [run, new, heldByAuto, lightState, Fsm.new])
  | append_singleton ops op ih =>
      intro hheld
      have hlow := ((run cfg (ops ++ [op])).heldByAuto_iff.mp hheld).1
      rw [run_concat] at hheld
      cases op with
      | nextMode => exact absurd hheld (by simp [exec, (owned_run cfg ops).heldByAuto_nextMode])
      | allOff =>
          rw [run_concat, exec, (run cfg ops).allOff_light.1] at hlow
          exact absurd hlow (by decide)
      | updateAmbient permille =>
          by_cases hbefore : (run cfg ops).lightState = .lowBeam
          · rw [run_concat] at hlow
            have hkept := updateAmbient_ctx_of_lowBeam hbefore hlow
            rw [exec, heldByAuto_iff, hkept] at hheld
            have hearlier := (run cfg ops).heldByAuto_iff.mpr ⟨hbefore, hheld.2⟩
            exact (ih hearlier).concat (by rw [run_concat]; exact hlow)
          · exact enteredByReading_of_switch hbefore hlow

/-- **The sensor never overrides the driver.** What the driver chose stays, and the sensor puts out
only a low beam that it has switched on. -/
theorem run_updateAmbient (cfg : Config) (ops : List LightingOp) (permille : Nat) :
    (DriverChose cfg ops →
        (run cfg (ops ++ [.updateAmbient permille])).lightState = (run cfg ops).lightState) ∧
      ((run cfg ops).lightState = .lowBeam →
        (run cfg (ops ++ [.updateAmbient permille])).lightState = .off →
          EnteredByReading cfg ops) := by
  rw [run_concat]
  constructor
  · exact fun hchose => (hchose.chosen.updateAmbient permille).1
  · intro hlow hoff
    have hreason := ((owned_run cfg ops).updateAmbient_off_iff permille).mp hoff
    refine enteredByReading_of_held cfg ops (hreason.2.resolve_left ?_)
    rw [hlow]
    decide

/-- The low beam chosen by three presses stays on in bright light. -/
theorem run_updateAmbient_shipped :
    (run .shipped [.nextMode, .nextMode, .nextMode, .updateAmbient 900]).lightState = .lowBeam :=
  ((run_updateAmbient .shipped [.nextMode, .nextMode, .nextMode] 900).1
    ⟨[.nextMode, .nextMode], [], rfl, by simp, by decide⟩).trans (by decide)

end LightingMgr

end Bcm
