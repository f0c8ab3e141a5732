import Bcm.Proof.CoreStep

/-!
# The safety envelope of the control cycle

Whatever was requested, by whichever manager or by the host, the lamps a cycle leaves stay inside an
envelope that the inputs of the cycle and the power state it reached determine. Every clause is read
off the arbiter, so it holds from any state of the core and of any run.
-/

namespace Bcm

/-- The envelope: `inputs` and `commsLost` are what the cycle was given, and `s` is the core it left
behind. -/
structure SafetyEnvelope (inputs : Inputs) (commsLost : Bool) (s : BcmCore) : Prop where
  brake : s.lamps.get .brake = if inputs.brake then .on else .off
  reverse : s.lamps.get .reverse ≠ .off →
    inputs.reverseGear = true ∧ commsLost = false ∧ s.power.state ≠ .sleep
  sleep : s.power.state = .sleep →
    ∀ id, id ≠ .doorLock → id ≠ .brake → s.lamps.get id = .off
  shed : s.power.loadShed = true →
    ∀ id ∈ [LampId.ignition, .drl, .highBeam, .doorLock], s.lamps.get id = .off
  commsLost : commsLost = true → s.lamps.get .highBeam = .off

namespace BcmCore

variable {cfg : Config} {dtMs : Nat} {s : BcmCore}

theorem leavesOpen_of_lit {id : LampId} (hbrake : id ≠ .brake)
    (hlit : (s.step cfg dtMs).lamps.get id ≠ .off) :
    LampArbiter.leavesOpen (s.step cfg dtMs).arbiterInputs id = true := by
  by_contra hclosed
  rw [step_get_lamps, if_neg hbrake, if_neg hclosed] at hlit
  exact hlit rfl

theorem leavesOpen_iff {id : LampId} :
    LampArbiter.leavesOpen s.arbiterInputs id = true ↔
      id ≠ .brake ∧ (s.power.state ≠ .sleep ∨ id = .doorLock) ∧
        (s.commsLost = false ∨ (id ≠ .highBeam ∧ id ≠ .reverse)) ∧
        (s.power.loadShed = false ∨ LampArbiter.isEssential id = true) ∧
        (s.inputs.reverseGear = true ∨ id ≠ .reverse) := by
  simp [LampArbiter.leavesOpen, arbiterInputs, PowerMgr.lampsPermitted, and_assoc]

theorem step_safetyEnvelope (cfg : Config) (dtMs : Nat) (s : BcmCore) :
    SafetyEnvelope s.inputs s.commsLost (s.step cfg dtMs) where
  brake := by rw [step_get_lamps, if_pos rfl]
  reverse := by
    intro hlit
    have hopen := leavesOpen_iff.mp (leavesOpen_of_lit (by decide) hlit)
    rw [step_inputs, step_commsLost] at hopen
    obtain ⟨-, hawake, hlink, -, hgear⟩ := hopen
    exact ⟨hgear.resolve_right (by simp), hlink.resolve_right (by simp),
      hawake.resolve_right (by decide)⟩
  sleep := by
    intro hsleep id hlock hbrake
    by_contra hlit
    have hopen := leavesOpen_iff.mp (leavesOpen_of_lit hbrake hlit)
    exact hopen.2.1.elim (fun hawake => hawake hsleep) hlock
  shed := by
    intro hshed id hid
    by_contra hlit
    have hinessential : id ≠ .brake ∧ LampArbiter.isEssential id = false := by
      revert hid
      cases id <;> decide
    have hopen := leavesOpen_iff.mp (leavesOpen_of_lit hinessential.1 hlit)
    rcases hopen.2.2.2.1 with hfull | hessential
    · rw [hshed] at hfull
      exact absurd hfull (by decide)
    · rw [hinessential.2] at hessential
      exact absurd hessential (by decide)
  commsLost := by
    intro hlost
    by_contra hlit
    have hopen := leavesOpen_iff.mp (leavesOpen_of_lit (by decide) hlit)
    rw [step_commsLost] at hopen
    rcases hopen.2.2.1 with hlink | hbeam
    · rw [hlost] at hlink
      exact absurd hlink (by decide)
    · exact hbeam.1 rfl

/-- **The safety envelope.** Every cycle of every run leaves its lamps inside the envelope. -/
theorem run_safetyEnvelope (cfg : Config) (ops : List CoreOp) (dtMs : Nat) :
    SafetyEnvelope (run cfg ops).inputs (run cfg ops).commsLost
      (run cfg (ops ++ [.step dtMs])) := by
  rw [run_step]
  exact step_safetyEnvelope cfg dtMs _

end BcmCore

end Bcm
