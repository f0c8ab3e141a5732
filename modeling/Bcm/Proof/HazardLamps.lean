import Bcm.Proof.HostOverlay

/-!
# Hazard and the host's overlay

The indicator machine lets nothing but a second press end the hazard, and arbitration leaves its
three lamps alone outside Sleep. Between the two stands the overlay of the host, and the arbiter has
no rule that would give the hazard precedence over it.
-/

namespace Bcm.BcmCore

/-- The lamps the hazard blinks. -/
def hazardLamps : List LampId := [.indLeft, .indRight, .hazard]

/-- The hazard, once latched, shows on all its lamps, unless the module sleeps. -/
def HazardOverrides (s : BcmCore) : Prop :=
  s.lighting.indicatorState = .hazard → s.power.state ≠ .sleep →
    ∀ id ∈ hazardLamps, s.lamps.get id = .blink

instance (s : BcmCore) : Decidable (HazardOverrides s) :=
  inferInstanceAs (Decidable (_ → _ → ∀ id ∈ hazardLamps, _))

/-- The overlay leaves each hazard lamp alone, or asks for the blinking itself. -/
def LeavesHazard (request : LampState) (mask : BitVec 16) : Prop :=
  ∀ id ∈ hazardLamps, (overlayAt request mask id).getD .blink = .blink

theorem mem_hazardLamps {id : LampId} :
    id ∈ hazardLamps ↔ id = .indLeft ∨ id = .indRight ∨ id = .hazard := by
  simp [hazardLamps]

theorem wanted_hazardLamps {s : BcmCore} (hhazard : s.lighting.indicatorState = .hazard)
    {id : LampId} (hid : id ∈ hazardLamps) : s.wanted.get id = .blink := by
  have hlamp := mem_hazardLamps.mp hid
  have happly := s.lighting.apply_hazard hhazard (s.power.apply .dark) hlamp
  unfold wanted DoorMgr.apply
  rcases hlamp with rfl | rfl | rfl <;> split_ifs <;> simp [happly]

theorem leavesOpen_hazardLamps {s : BcmCore} (hawake : s.power.state ≠ .sleep) {id : LampId}
    (hid : id ∈ hazardLamps) : LampArbiter.leavesOpen s.arbiterInputs id = true := by
  refine leavesOpen_iff.mpr ?_
  rcases mem_hazardLamps.mp hid with rfl | rfl | rfl
  all_goals
    exact ⟨by decide, Or.inl hawake, Or.inr (by decide), Or.inr rfl, Or.inr (by decide)⟩

/-- With the hazard latched, a hazard lamp shows what the overlay says, or else blinks. -/
theorem step_get_hazardLamps {cfg : Config} {dtMs : Nat} {s : BcmCore}
    (hhazard : (s.step cfg dtMs).lighting.indicatorState = .hazard)
    (hawake : (s.step cfg dtMs).power.state ≠ .sleep) {id : LampId} (hid : id ∈ hazardLamps) :
    (s.step cfg dtMs).lamps.get id = (overlayAt s.hostRequest s.hostMask id).getD .blink := by
  rw [step_get_lamps_of_open cfg dtMs s (leavesOpen_hazardLamps hawake hid),
    wanted_hazardLamps hhazard hid]

/-- A core woken, and then the hazard pressed. -/
def hazardOps : List CoreOp :=
  wakingOps ++ [.setInputs { Inputs.initial with batteryPermille := 800, hazard := true }, .step 5]

/-- **The hazard and the overlay, exactly.** Every cycle of every run taken under an overlay shows
the hazard on all its lamps if and only if the overlay leaves them alone or asks for the blinking
itself. -/
theorem hazardOverrides_iff (request : LampState) (mask : BitVec 16) :
    (∀ cfg ops dtMs, (run cfg ops).hostRequest = request → (run cfg ops).hostMask = mask →
        HazardOverrides (run cfg (ops ++ [.step dtMs]))) ↔
      LeavesHazard request mask := by
  constructor
  · intro hall id hid
    have hset : run .shipped (hazardOps ++ [.setHostRequest request mask]) =
        (run .shipped hazardOps).setHostRequest request mask := run_concat .shipped hazardOps _
    have hshows := hall .shipped (hazardOps ++ [.setHostRequest request mask]) 5
      (by rw [hset]; rfl) (by rw [hset]; rfl)
    rw [run_step, hset] at hshows
    -- no overlay changes the state the hazard and the power machine are in
    have hhazard : (((run .shipped hazardOps).setHostRequest request mask).step
        .shipped 5).lighting.indicatorState = .hazard := by
      rw [step_lighting_setHostRequest]
      decide +kernel
    have hawake : (((run .shipped hazardOps).setHostRequest request mask).step
        .shipped 5).power.state ≠ .sleep := by
      rw [step_power_setHostRequest]
      decide +kernel
    have hblinks := hshows hhazard hawake id hid
    rw [step_get_hazardLamps hhazard hawake hid] at hblinks
    exact hblinks
  · rintro hleaves cfg ops dtMs rfl rfl
    rw [run_step]
    intro hhazard hawake id hid
    rw [step_get_hazardLamps hhazard hawake hid]
    exact hleaves id hid

/-- A host that asks for the left indicator off gets it off, with the hazard latched. -/
theorem hazard_without_left :
    ¬ HazardOverrides (run .shipped (hazardOps ++ [.setHostRequest .dark 0x10#16, .step 5])) := by
  decide +kernel

end Bcm.BcmCore
