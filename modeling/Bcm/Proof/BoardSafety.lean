import Bcm.Proof.DoorRequests
import Bcm.Proof.FirmwareCore
import Bcm.Proof.SafetyEnvelope

/-!
# What the pins show

The lamps of the core reach the pins through the drivers, each lamp its own pin, and between two
cycles nothing but the heartbeat moves. So the safety envelope of the control cycle is one of the
pins, at every moment of every run.
-/

namespace Bcm

/-! ### One pin a lamp -/

theorem Firmware.writePins_lamp (outputs : OutputStage) (levels : Bsp.Levels) (id : LampId) :
    (Bsp.lampPin id).read (writePins outputs levels) = (outputs.lamps id).pin := by
  cases id <;> rfl

theorem Firmware.writePins_buzzer (outputs : OutputStage) (levels : Bsp.Levels) :
    Bsp.buzzerPin.read (writePins outputs levels) = outputs.buzzer := rfl

/-- A lamp that is on or off has its pin so. Only a blinking one is either. -/
theorem Led.drive_pin (cfg : Config) (l : Led) (wanted : LampDrive) (dtMs : Nat) :
    (wanted = .on → (l.drive cfg wanted dtMs).pin = true) ∧
      (wanted = .off → (l.drive cfg wanted dtMs).pin = false) := by
  constructor
  · rintro rfl
    rfl
  · rintro rfl
    rfl

namespace Firmware

variable {Q : Type} {M : MessageQueue Q LogRecord} {cfg : Config} {up : PowerUp Q}

/-- Between two cycles the core has only its faults and its log changed. -/
theorem core_frame {f f' : Firmware Q} {a : Action} (h : f.exec M cfg a = some f')
    (ha : a.isCycle = false) :
    ∃ faults log, f'.app.core = { f.app.core with faults := faults, log := log } := by
  cases moves h with
  | idle _ _ _ _ happ =>
      rcases happ with happ | happ
      · rw [happ]
        exact ⟨_, _, rfl⟩
      · rw [happ]
        exact ⟨_, _, rfl⟩
  | cycled pins heq =>
      rw [heq] at ha
      exact absurd ha (by simp [Action.isCycle])
  | served _ _ _ _ _ _ _ hserve =>
      rcases BcmApp.serve_faults hserve with hsame | ⟨-, hcleared⟩
      · rw [hsame]
        exact ⟨_, _, rfl⟩
      · rw [hcleared]
        exact ⟨_, _, rfl⟩
  | sampled _ raw _ happ =>
      rw [happ]
      exact ⟨_, _, rfl⟩
  | drained _ _ happ =>
      rw [happ]
      exact ⟨_, _, rfl⟩

/-- The pins show the lamps and the horn of the core, which stay inside the envelope. -/
structure Shows (f : Firmware Q) : Prop where
  envelope : SafetyEnvelope f.app.core.inputs f.app.core.commsLost f.app.core
  gear : f.app.core.inputs.reverseGear = false
  on : ∀ id, f.app.core.lamps.get id = .on → (Bsp.lampPin id).read f.levels = true
  off : ∀ id, f.app.core.lamps.get id = .off → (Bsp.lampPin id).read f.levels = false
  buzzer : Bsp.buzzerPin.read f.levels = f.app.core.horn.output

theorem shows_start : (start M cfg up).Shows := by
  have hcore : (start M cfg up).app.core.lamps = .dark ∧
      (start M cfg up).app.core.inputs = .initial ∧
      (start M cfg up).app.core.horn = .new := by
    simp only [start, BcmApp.init, BcmApp.new, apply_ite BcmCore.lamps, apply_ite BcmCore.inputs,
      apply_ite BcmCore.horn, BcmCore.new, ite_self, and_self]
  obtain ⟨hlamps, hinputs, hhorn⟩ := hcore
  have hdark : ∀ id, (start M cfg up).app.core.lamps.get id = .off := fun id => by
    rw [hlamps]
    rfl
  refine ⟨⟨?_, fun hlit => ?_, fun _ id _ _ => hdark id, fun _ id _ => hdark id,
    fun _ => hdark _⟩, ?_, fun id hon => ?_, fun id _ => ?_, ?_⟩
  · rw [hdark, hinputs]
    rfl
  · exact absurd (hdark _) hlit
  · rw [hinputs]
    rfl
  · exact absurd (hon.symm.trans (hdark id)) (by simp)
  · exact writePins_lamp .init up.levels id
  · rw [hhorn]
    rfl

theorem Shows.cycle {f f' : Firmware Q} (pins : Bsp.Levels) (hf' : f' = f.cycle cfg pins) :
    f'.Shows := by
  obtain ⟨hinputs, -, -, hlost, -⟩ :=
    (f.app.gatherInputs (f.readButtons pins kControlMs).snapshot).core.step_frame cfg kControlMs
  have henvelope := BcmCore.step_safetyEnvelope cfg kControlMs
    (f.app.gatherInputs (f.readButtons pins kControlMs).snapshot).core
  rw [← hinputs, ← hlost] at henvelope
  rw [hf']
  refine ⟨henvelope, ?_, fun id hon => ?_, fun id hoff => ?_, writePins_buzzer _ _⟩
  · have hgather := (f.app.gatherInputs_core (f.readButtons pins kControlMs).snapshot).2.1
    exact (congrArg Inputs.reverseGear (hinputs.trans hgather)).trans rfl
  · exact (writePins_lamp _ _ id).trans ((Led.drive_pin cfg _ _ kControlMs).1 hon)
  · exact (writePins_lamp _ _ id).trans ((Led.drive_pin cfg _ _ kControlMs).2 hoff)

theorem SameBoard.read_lamp {f f' : Firmware Q} (h : SameBoard f f') (id : LampId) :
    (Bsp.lampPin id).read f'.levels = (Bsp.lampPin id).read f.levels := by
  have hother : ((Bsp.lampPin id).port, (Bsp.lampPin id).pin) ≠
      (Bsp.heartbeatPin.port, Bsp.heartbeatPin.pin) := by
    cases id <;> decide
  rw [Bsp.GpioPin.read, Bsp.GpioPin.read, h.levels _ _ hother]

theorem SameBoard.read_buzzer {f f' : Firmware Q} (h : SameBoard f f') :
    Bsp.buzzerPin.read f'.levels = Bsp.buzzerPin.read f.levels := by
  rw [Bsp.GpioPin.read, Bsp.GpioPin.read, h.levels _ _ (by decide)]

theorem Shows.exec {f f' : Firmware Q} {a : Action} (h : f.Shows)
    (hexec : f.exec M cfg a = some f') : f'.Shows := by
  cases ha : a.isCycle with
  | true =>
      cases moves hexec with
      | cycled pins _ heq => exact Shows.cycle pins heq
      | idle hother | served hother | sampled hother | drained hother =>
          exact absurd (ha.symm.trans hother) (by simp)
  | false =>
      have hboard := sameBoard_exec hexec ha
      obtain ⟨faults, log, hcore⟩ := core_frame hexec ha
      obtain ⟨henvelope, hgear, hon, hoff, hbuzzer⟩ := h
      refine ⟨?_, ?_, fun id hlit => ?_, fun id hdark => ?_, ?_⟩
      · rw [hcore]
        exact ⟨henvelope.brake, henvelope.reverse, henvelope.sleep, henvelope.shed,
          henvelope.commsLost⟩
      · rw [hcore]
        exact hgear
      · rw [hcore] at hlit
        rw [hboard.read_lamp]
        exact hon id hlit
      · rw [hcore] at hdark
        rw [hboard.read_lamp]
        exact hoff id hdark
      · rw [hcore, hboard.read_buzzer]
        exact hbuzzer

theorem shows_of_run {actions : List Action} {f : Firmware Q}
    (h : run M cfg up actions = some f) : f.Shows :=
  PartialRuns.run_invariant shows_start (fun _ _ _ hs hexec => hs.exec hexec) h

/-- **The envelope holds at the pins.** Whatever the host asks for and whenever it does, the reverse
lamp is never lit, since no gear switch is wired. In Sleep no lamp is but the brake's and the lock's,
with the load shed no lamp is that is not essential, and with the link lost the high beam is not.
The buzzer is what the horn is. -/
theorem pins_inside_envelope {actions : List Action} {f : Firmware Q}
    (h : run M cfg up actions = some f) :
    (Bsp.lampPin .reverse).read f.levels = false ∧
      (f.app.core.power.state = .sleep → ∀ id, id ≠ .doorLock → id ≠ .brake →
        (Bsp.lampPin id).read f.levels = false) ∧
      (f.app.core.power.loadShed = true → ∀ id ∈ [LampId.ignition, .drl, .highBeam, .doorLock],
        (Bsp.lampPin id).read f.levels = false) ∧
      (f.app.core.commsLost = true → (Bsp.lampPin .highBeam).read f.levels = false) ∧
      Bsp.buzzerPin.read f.levels = f.app.core.horn.output := by
  obtain ⟨henvelope, hgear, -, hoff, hbuzzer⟩ := shows_of_run h
  refine ⟨hoff _ ?_, fun hsleep id hlock hbrake => hoff id (henvelope.sleep hsleep id hlock hbrake),
    fun hshed id hid => hoff id (henvelope.shed hshed id hid),
    fun hlost => hoff _ (henvelope.commsLost hlost), hbuzzer⟩
  by_contra hlit
  have hwired := (henvelope.reverse hlit).1
  rw [hgear] at hwired
  exact absurd hwired (by simp)

/-- Asks for the high beam and the reverse lamp, 2 s of silence, and an empty battery. -/
def darkActions : List Action :=
  arrivals [0xAA, 0x04, 0x02, 0x03, 0x01, 0xB6, 0x55] ++
    arrivals [0xAA, 0x04, 0x02, 0x08, 0x01, 0x21, 0x55] ++ List.replicate 400 .pollEnd ++
    [.cycle PowerUp.quiet.pins, .cycle PowerUp.quiet.pins]

theorem pins_inside_envelope_dark :
    ∃ f, run (MessageQueue.plain LogRecord kLogQueueLength) .shipped .quiet darkActions = some f ∧
      f.app.core.hostRequest.get .highBeam = .on ∧
      f.app.core.hostRequest.get .reverse = .on ∧
      (Bsp.lampPin .reverse).read f.levels = false ∧
      (∀ id, id ≠ .doorLock → id ≠ .brake → (Bsp.lampPin id).read f.levels = false) ∧
      (Bsp.lampPin .doorLock).read f.levels = false ∧
      (Bsp.lampPin .highBeam).read f.levels = false ∧
      Bsp.buzzerPin.read f.levels = f.app.core.horn.output := by
  have hfacts : (run (MessageQueue.plain LogRecord kLogQueueLength) .shipped .quiet
      darkActions).any (fun f =>
        decide (f.app.core.hostRequest.get .highBeam = .on) &&
          (decide (f.app.core.hostRequest.get .reverse = .on) &&
            (decide (f.app.core.power.state = .sleep) &&
              (f.app.core.power.loadShed && f.app.core.commsLost)))) = true := by decide +kernel
  simp only [Option.any_eq_true, Bool.and_eq_true, decide_eq_true_eq] at hfacts
  obtain ⟨f, hf, hhigh, hreverse, hsleep, hshed, hlost⟩ := hfacts
  obtain ⟨hgear, hasleep, hless, hmute, hbuzzer⟩ := pins_inside_envelope hf
  exact ⟨f, hf, hhigh, hreverse, hgear, hasleep hsleep, hless hshed _ (by simp), hmute hlost,
    hbuzzer⟩

end Firmware

end Bcm
