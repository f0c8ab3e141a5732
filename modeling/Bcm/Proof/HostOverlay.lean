import Bcm.Proof.SafetyEnvelope

/-!
# What the host's overlay can do

The host's lamp request is merged over the managers' wishes, lamp by lamp, and nothing but the
arbiter stands behind it. The arbiter has no rule that ties the high beam to the low beam, and it
puts only two lamps off when the link is lost. So two safety requirements hold exactly for the
overlays described here.
-/

namespace Bcm.BcmCore

/-- What the overlay says of one lamp: nothing outside its mask. -/
def overlayAt (request : LampState) (mask : BitVec 16) (id : LampId) : Option LampDrive :=
  if mask.getLsbD id.toNat then some (request.get id) else none

theorem get_mergeHost (request : LampState) (mask : BitVec 16) (lamps : LampState) (id : LampId) :
    (mergeHost request mask lamps).get id = (overlayAt request mask id).getD (lamps.get id) := by
  unfold mergeHost overlayAt LampState.get
  cases hbit : mask.getLsbD id.toNat <;> simp [hbit]

/-- A lamp left open by the arbiter shows the overlay, or else the managers' wish. -/
theorem step_get_lamps_of_open (cfg : Config) (dtMs : Nat) (s : BcmCore) {id : LampId}
    (hopen : LampArbiter.leavesOpen (s.step cfg dtMs).arbiterInputs id = true) :
    (s.step cfg dtMs).lamps.get id =
      (overlayAt s.hostRequest s.hostMask id).getD ((s.step cfg dtMs).wanted.get id) := by
  have hbrake := (leavesOpen_iff.mp hopen).1
  rw [step_get_lamps, if_neg hbrake, if_pos hopen, get_mergeHost]

theorem get_lamps_setHostRequest (cfg : Config) (dtMs : Nat) (s : BcmCore) {id : LampId}
    (hopen : LampArbiter.leavesOpen (s.step cfg dtMs).arbiterInputs id = true)
    (request : LampState) (mask : BitVec 16) :
    ((s.setHostRequest request mask).step cfg dtMs).lamps.get id =
      (overlayAt request mask id).getD ((s.step cfg dtMs).wanted.get id) := by
  rw [step_get_lamps_of_open, step_wanted_setHostRequest]
  · rfl
  · rw [step_arbiterInputs_setHostRequest]
    exact hopen

theorem wanted_highBeam (s : BcmCore) :
    s.wanted.get .highBeam = if s.lighting.lightState = .highBeam then .on else .off := by
  unfold wanted DoorMgr.apply PowerMgr.apply
  have hlight := s.lighting.apply_highBeam
  split_ifs <;> simp [*]

theorem wanted_lowBeam (s : BcmCore) :
    s.wanted.get .lowBeam =
      if s.lighting.lightState = .lowBeam ∨ s.lighting.lightState = .highBeam then .on
      else .off := by
  unfold wanted DoorMgr.apply PowerMgr.apply
  have hlight := s.lighting.apply_lowBeam
  split_ifs <;> simp [*]

/-! ### High beam only with low beam -/

def HighBeamNeedsLowBeam (lamps : LampState) : Prop :=
  lamps.get .highBeam ≠ .off → lamps.get .lowBeam ≠ .off

instance (lamps : LampState) : Decidable (HighBeamNeedsLowBeam lamps) :=
  inferInstanceAs (Decidable (_ → _))

/-- An overlay that keeps the rule by itself: it lights the high beam only together with the low
beam, and it puts the low beam off only together with the high beam. -/
def KeepsBeams (request : LampState) (mask : BitVec 16) : Prop :=
  (∀ d, overlayAt request mask .highBeam = some d → d ≠ .off →
      ∃ d', overlayAt request mask .lowBeam = some d' ∧ d' ≠ .off) ∧
    (overlayAt request mask .lowBeam = some .off → overlayAt request mask .highBeam = some .off)

theorem highBeamNeedsLowBeam_of_keepsBeams (cfg : Config) (dtMs : Nat) {s : BcmCore}
    (hkeeps : KeepsBeams s.hostRequest s.hostMask) :
    HighBeamNeedsLowBeam (s.step cfg dtMs).lamps := by
  intro hhigh
  have hopen := leavesOpen_of_lit (by decide) hhigh
  have hopenLow : LampArbiter.leavesOpen (s.step cfg dtMs).arbiterInputs .lowBeam = true := by
    obtain ⟨-, hawake, hlink, -, -⟩ := leavesOpen_iff.mp hopen
    refine leavesOpen_iff.mpr ⟨by decide, ?_, ?_, Or.inr rfl, Or.inr (by decide)⟩
    · exact Or.inl (hawake.resolve_right (by decide))
    · exact Or.inl (hlink.resolve_right (by simp))
  rw [step_get_lamps_of_open cfg dtMs s hopen, wanted_highBeam] at hhigh
  rw [step_get_lamps_of_open cfg dtMs s hopenLow, wanted_lowBeam]
  obtain ⟨hlights, hputsOff⟩ := hkeeps
  cases hoverHigh : overlayAt s.hostRequest s.hostMask .highBeam with
  | some d =>
      rw [hoverHigh, Option.getD_some] at hhigh
      obtain ⟨d', hoverLow, hlow⟩ := hlights d hoverHigh hhigh
      rwa [hoverLow, Option.getD_some]
  | none =>
      rw [hoverHigh, Option.getD_none] at hhigh
      have hstate : (s.step cfg dtMs).lighting.lightState = .highBeam := by
        by_contra hother
        rw [if_neg hother] at hhigh
        exact hhigh rfl
      rw [if_pos (Or.inr hstate)]
      cases hoverLow : overlayAt s.hostRequest s.hostMask .lowBeam with
      | none => simp
      | some d =>
          rw [Option.getD_some]
          intro hoff
          rw [hoff] at hoverLow
          have hboth := hputsOff hoverLow
          rw [hoverHigh] at hboth
          exact absurd hboth (by decide)

theorem highBeamNeedsLowBeam_of_commsLost (cfg : Config) (dtMs : Nat) {s : BcmCore}
    (hlost : s.commsLost = true) : HighBeamNeedsLowBeam (s.step cfg dtMs).lamps :=
  fun hhigh => absurd ((step_safetyEnvelope cfg dtMs s).commsLost hlost) hhigh

/-- The lighting stepped four times: the driver's own high beam. -/
def highBeamOps : List CoreOp :=
  wakingOps ++ [.requestLightMode, .step 5, .requestLightMode, .step 5, .requestLightMode, .step 5,
    .requestLightMode, .step 5]

theorem run_setHostRequest (cfg : Config) (ops : List CoreOp) (lost : Bool) (request : LampState)
    (mask : BitVec 16) :
    run cfg (ops ++ [.setCommsLost lost, .setHostRequest request mask]) =
      ((run cfg ops).setCommsLost lost).setHostRequest request mask := by
  rw [run, Runs.run_append]
  rfl

/-- What the rule says of an overlay in force over a core that is awake, linked and not shedding:
its lamps are the overlay over the managers' wishes. -/
theorem overlay_beams {ops : List CoreOp} {request : LampState} {mask : BitVec 16}
    (hrule : HighBeamNeedsLowBeam
      ((run .shipped (ops ++ [.setCommsLost false, .setHostRequest request mask])).step
        .shipped 5).lamps)
    (hopen : ∀ id ∈ [LampId.lowBeam, .highBeam], LampArbiter.leavesOpen
      (((run .shipped ops).setCommsLost false).step .shipped 5).arbiterInputs id = true) :
    (overlayAt request mask .highBeam).getD
        ((((run .shipped ops).setCommsLost false).step .shipped 5).wanted.get .highBeam) ≠ .off →
      (overlayAt request mask .lowBeam).getD
        ((((run .shipped ops).setCommsLost false).step .shipped 5).wanted.get .lowBeam) ≠ .off := by
  rw [run_setHostRequest] at hrule
  generalize (run .shipped ops).setCommsLost false = s at hrule hopen ⊢
  rw [← get_lamps_setHostRequest _ _ _ (hopen .highBeam (by simp)),
    ← get_lamps_setHostRequest _ _ _ (hopen .lowBeam (by simp))]
  exact hrule

/-- **High beam only with low beam, exactly.** Every cycle of every run taken under an overlay and a
link state keeps the high beam from being lit alone if and only if the link is lost or the overlay
keeps the rule by itself. -/
theorem highBeamNeedsLowBeam_iff (request : LampState) (mask : BitVec 16) (lost : Bool) :
    (∀ cfg ops dtMs, (run cfg ops).hostRequest = request → (run cfg ops).hostMask = mask →
        (run cfg ops).commsLost = lost →
        HighBeamNeedsLowBeam (run cfg (ops ++ [.step dtMs])).lamps) ↔
      lost = true ∨ KeepsBeams request mask := by
  constructor
  · intro hall
    refine or_iff_not_imp_left.mpr fun hlinked => ?_
    have hlost : lost = false := Bool.eq_false_iff.mpr hlinked
    have hrule : ∀ ops, HighBeamNeedsLowBeam
        ((run .shipped (ops ++ [.setCommsLost false, .setHostRequest request mask])).step
          .shipped 5).lamps := by
      intro ops
      have hstep := hall .shipped (ops ++ [.setCommsLost lost, .setHostRequest request mask]) 5
      rw [run_step, run_setHostRequest] at hstep
      rw [run_setHostRequest, ← hlost]
      exact hstep rfl rfl rfl
    constructor
    · -- the overlay's own high beam, over a core whose lights are off
      intro d hoverHigh hd
      have hlow := overlay_beams (hrule wakingOps) (by decide +kernel)
      rw [hoverHigh, Option.getD_some] at hlow
      cases hoverLow : overlayAt request mask .lowBeam with
      | some d' => exact ⟨d', rfl, by simpa [hoverLow] using hlow hd⟩
      | none =>
          rw [hoverLow] at hlow
          exact absurd (hlow hd) (by decide +kernel)
    · -- the driver's high beam, under an overlay that puts the low beam off
      intro hoverLow
      have hhigh := overlay_beams (hrule highBeamOps) (by decide +kernel)
      rw [hoverLow, Option.getD_some] at hhigh
      have hdark : (overlayAt request mask .highBeam).getD
          ((((run .shipped highBeamOps).setCommsLost false).step .shipped 5).wanted.get
            .highBeam) = .off := by
        by_contra hlit
        exact hhigh hlit rfl
      cases hoverHigh : overlayAt request mask .highBeam with
      | some d => rw [hoverHigh, Option.getD_some] at hdark; rw [hdark]
      | none =>
          rw [hoverHigh] at hdark
          exact absurd hdark (by decide +kernel)
  · rintro hcond cfg ops dtMs rfl rfl rfl
    rw [run_step]
    rcases hcond with hlost | hkeeps
    · exact highBeamNeedsLowBeam_of_commsLost cfg dtMs hlost
    · exact highBeamNeedsLowBeam_of_keepsBeams cfg dtMs hkeeps

/-- A host that asks for the high beam, and for nothing else, gets it alone. -/
theorem highBeam_alone :
    ¬ HighBeamNeedsLowBeam
      (run .shipped (wakingOps ++
        [.setHostRequest (LampState.dark.set .highBeam .on) 8#16, .step 5])).lamps := by
  decide +kernel

/-! ### A lost link -/

/-- The lamps that comms loss leaves to the overlay: it forces two off, and brake follows the
pedal. -/
def heldOnCommsLoss (id : LampId) : Bool :=
  decide (id ≠ .brake ∧ id ≠ .highBeam ∧ id ≠ .reverse)

/-- Two overlays say the same of every lamp that comms loss leaves to them. -/
def AgreeOnHeldLamps (request₁ request₂ : LampState) (mask₁ mask₂ : BitVec 16) : Prop :=
  ∀ id, heldOnCommsLoss id = true → overlayAt request₁ mask₁ id = overlayAt request₂ mask₂ id

theorem lamps_eq_of_agree (cfg : Config) (dtMs : Nat) {s : BcmCore} (hlost : s.commsLost = true)
    {request₁ request₂ : LampState} {mask₁ mask₂ : BitVec 16}
    (hagree : AgreeOnHeldLamps request₁ request₂ mask₁ mask₂) :
    ((s.setHostRequest request₁ mask₁).step cfg dtMs).lamps =
      ((s.setHostRequest request₂ mask₂).step cfg dtMs).lamps := by
  apply LampState.ext_get
  intro id
  simp only [step_get_lamps, step_arbiterInputs_setHostRequest, step_wanted_setHostRequest,
    get_mergeHost]
  by_cases hbrake : id = .brake
  · rw [if_pos hbrake, if_pos hbrake]
    rfl
  · rw [if_neg hbrake, if_neg hbrake]
    by_cases hopen : LampArbiter.leavesOpen (s.step cfg dtMs).arbiterInputs id = true
    · rw [if_pos hopen, if_pos hopen]
      have hheld : heldOnCommsLoss id = true := by
        obtain ⟨-, -, hlink, -⟩ := leavesOpen_iff.mp hopen
        rw [step_commsLost, hlost] at hlink
        have hbeams := hlink.resolve_left (by decide)
        simpa [heldOnCommsLoss] using ⟨hbrake, hbeams⟩
      change (overlayAt request₁ mask₁ id).getD _ = (overlayAt request₂ mask₂ id).getD _
      rw [hagree id hheld]
    · rw [if_neg hopen, if_neg hopen]

/-- A core on its way into shutdown with everything the first one has dark lit, and its doors
unlocked: low beam, hazard, welcome lighting. -/
def partingOps : List CoreOp :=
  let charged := { Inputs.initial with batteryPermille := 800 }
  let hazard := { charged with hazard := true }
  wakingOps ++ [.step 300, .setInputs { charged with ignition := true }, .step 5,
    .setInputs hazard, .step 5, .requestLightMode, .requestDoorUnlock, .step 5,
    .requestLightMode, .step 5, .requestLightMode, .step 5]

/-- The two cores show every held lamp, and wish for it differently. -/
theorem wishes_differ : ∀ id, heldOnCommsLoss id = true →
    LampArbiter.leavesOpen
        (((run .shipped wakingOps).setCommsLost true).step .shipped 5).arbiterInputs id = true ∧
      LampArbiter.leavesOpen
        (((run .shipped partingOps).setCommsLost true).step .shipped 5).arbiterInputs id = true ∧
      (((run .shipped wakingOps).setCommsLost true).step .shipped 5).wanted.get id ≠
        (((run .shipped partingOps).setCommsLost true).step .shipped 5).wanted.get id := by
  decide +kernel

theorem setInputs_self (s : BcmCore) {inputs : Inputs} (h : s.inputs = inputs) :
    s.setInputs inputs = s := by
  rw [← h]
  rfl

theorem eq_of_getD_eq {α : Type} {x y : Option α} {a b : α} (hne : a ≠ b)
    (ha : x.getD a = y.getD a) (hb : x.getD b = y.getD b) : x = y := by
  cases x with
  | none =>
      cases y with
      | none => rfl
      | some d => exact absurd (ha.trans hb.symm) hne
  | some c =>
      cases y with
      | none => exact absurd (ha.symm.trans hb) hne
      | some d => exact congrArg some ha

/-- **Comms loss and the overlay, exactly.** Two overlays give the same lamps in every cycle taken
with the link lost, from every state a run reaches, if and only if they agree on every lamp other
than high beam, reverse and brake. -/
theorem commsLost_lamps_eq_iff (request₁ request₂ : LampState) (mask₁ mask₂ : BitVec 16) :
    (∀ cfg ops inputs dtMs, (run cfg ops).commsLost = true →
        ((((run cfg ops).setInputs inputs).setHostRequest request₁ mask₁).step cfg dtMs).lamps =
          ((((run cfg ops).setInputs inputs).setHostRequest request₂ mask₂).step cfg dtMs).lamps) ↔
      AgreeOnHeldLamps request₁ request₂ mask₁ mask₂ := by
  constructor
  · intro hall id hheld
    have hshown : ∀ ops, LampArbiter.leavesOpen
          (((run .shipped ops).setCommsLost true).step .shipped 5).arbiterInputs id = true →
        (overlayAt request₁ mask₁ id).getD
            ((((run .shipped ops).setCommsLost true).step .shipped 5).wanted.get id) =
          (overlayAt request₂ mask₂ id).getD
            ((((run .shipped ops).setCommsLost true).step .shipped 5).wanted.get id) := by
      intro ops hopen
      have hlost : run .shipped (ops ++ [.setCommsLost true]) =
          (run .shipped ops).setCommsLost true := run_concat .shipped ops _
      have hsame := hall .shipped (ops ++ [.setCommsLost true]) (run .shipped ops).inputs 5
        (by rw [hlost]; rfl)
      rw [hlost, setInputs_self _ (by rfl)] at hsame
      generalize (run .shipped ops).setCommsLost true = s at hopen hsame ⊢
      rw [← get_lamps_setHostRequest _ _ _ hopen, ← get_lamps_setHostRequest _ _ _ hopen, hsame]
    obtain ⟨hopenWaking, hopenParting, hdiffer⟩ := wishes_differ id hheld
    exact eq_of_getD_eq hdiffer (hshown wakingOps hopenWaking) (hshown partingOps hopenParting)
  · intro hagree cfg ops inputs dtMs hlost
    have hlink : ((run cfg ops).setInputs inputs).commsLost = true := hlost
    exact lamps_eq_of_agree cfg dtMs hlink hagree

/-- A host that lit the low beam and vanished leaves it lit. -/
theorem commsLost_keeps_lowBeam :
    (((run .shipped (wakingOps ++ [.setCommsLost true])).setHostRequest
        (LampState.dark.set .lowBeam .on) 4#16).step .shipped 5).lamps ≠
      (((run .shipped (wakingOps ++ [.setCommsLost true])).setHostRequest .dark 0#16).step
        .shipped 5).lamps := by
  decide +kernel

end Bcm.BcmCore
