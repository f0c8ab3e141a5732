import Bcm.Proof.CoreStep

/-!
# Welcome lighting

The door asks for the daytime lamp while it welcomes, and the arbiter keeps a sleeping vehicle dark
but for the lock lamp. So the welcome can be seen on a vehicle that is awake.
-/

namespace Bcm.BcmCore

theorem wanted_drl_of_welcome {s : BcmCore} (h : s.door.state = .welcome) :
    s.wanted.get .drl = .on := by
  unfold wanted DoorMgr.apply
  rw [if_pos h, LampState.get_set, if_pos rfl]

/-- With no load shed, the power state is all that stands between the daytime lamp and a request. -/
theorem leavesOpen_drl {arb : ArbiterInputs} (h : arb.loadShed = false) :
    LampArbiter.leavesOpen arb .drl = arb.lampsPermitted := by
  simp [LampArbiter.leavesOpen, h]

/-- **Welcome lighting is visible, awake.** After any step of any run that leaves the door in
Welcome, with the load not shed and the daytime lamp not the host's, the lamp is lit if and only if
the vehicle is not asleep. -/
theorem welcome_lit_iff {cfg : Config} {ops : List CoreOp} {dtMs : Nat}
    (hwelcome : (run cfg (ops ++ [.step dtMs])).door.state = .welcome)
    (hshed : (run cfg (ops ++ [.step dtMs])).power.loadShed = false)
    (hmask : (run cfg (ops ++ [.step dtMs])).hostMask.getLsbD LampId.drl.toNat = false) :
    (run cfg (ops ++ [.step dtMs])).lamps.get .drl ≠ .off ↔
      (run cfg (ops ++ [.step dtMs])).power.state ≠ .sleep := by
  rw [run_step] at hwelcome hshed hmask ⊢
  generalize run cfg ops = s at hwelcome hshed hmask ⊢
  have hopen : LampArbiter.leavesOpen (s.step cfg dtMs).arbiterInputs .drl =
      (s.step cfg dtMs).power.lampsPermitted := leavesOpen_drl hshed
  have hmerged : (mergeHost s.hostRequest s.hostMask (s.step cfg dtMs).wanted).get .drl = .on := by
    rw [(s.step_frame cfg dtMs).2.2.2.2.2] at hmask
    rw [← wanted_drl_of_welcome hwelcome]
    exact if_neg (ne_true_of_eq_false hmask)
  rw [step_get_lamps, if_neg (by decide), hopen, hmerged]
  unfold PowerMgr.lampsPermitted
  by_cases hsleep : (s.step cfg dtMs).power.state = .sleep
  · simp [hsleep]
  · simp [hsleep]

/-- The doors of a parked vehicle with a good battery are unlocked by the switch. -/
def unlockingOps : List CoreOp :=
  let charged := { Inputs.initial with batteryPermille := 800 }
  [.setInputs charged, .step 5, .setInputs { charged with doorLock := true }]

theorem welcome_lit_awake :
    (run .shipped (wakingOps ++ unlockingOps ++ [.step 5])).lamps.get .drl ≠ .off :=
  (welcome_lit_iff (by decide +kernel) (by decide +kernel) (by decide +kernel)).mpr
    (by decide +kernel)

theorem welcome_dark_parked :
    (run .shipped (unlockingOps ++ [.step 5])).door.state = .welcome ∧
      (run .shipped (unlockingOps ++ [.step 5])).power.loadShed = false ∧
      (run .shipped (unlockingOps ++ [.step 5])).hostMask.getLsbD LampId.drl.toNat = false ∧
      (run .shipped (unlockingOps ++ [.step 5])).lamps.get .drl = .off := by
  decide +kernel

end Bcm.BcmCore
