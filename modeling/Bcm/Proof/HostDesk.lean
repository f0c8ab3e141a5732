import Bcm.Lib.Register
import Bcm.Proof.DoorRequests
import Bcm.Proof.FirmwareCore
import Bcm.Proof.HostOverlay

/-!
# What the host has asked for

What the command context holds of the host's requests is a function of the bytes read. Each lamp of
the overlay is a register that the frames for that lamp write, and nothing takes the overlay down
again. A door request lasts until the next cycle. A reset is what a RESET asks for, and nothing
else.
-/

namespace Bcm

/-- What a request puts a lamp to. -/
def lampWord (id : LampId) (request : Frame) : Option LampDrive :=
  match request.asks with
  | .lamp id' on => if id' = id then some (if on then .on else .off) else none
  | _ => none

theorem getLsbD_lampBit (id id' : LampId) :
    (1#16 <<< id.toNat).getLsbD id'.toNat = decide (id = id') := by
  cases id <;> cases id' <;> decide

theorem BcmCore.overlayAt_empty (request : LampState) (id : LampId) :
    overlayAt request 0 id = none := by
  simp [overlayAt]

theorem BcmCore.overlayAt_set (request : LampState) (mask : BitVec 16) (id id' : LampId)
    (d : LampDrive) :
    overlayAt (request.set id d) (mask ||| (1#16 <<< id.toNat)) id' =
      if id = id' then some d else overlayAt request mask id' := by
  unfold overlayAt
  rw [BitVec.getLsbD_or, getLsbD_lampBit]
  by_cases hsame : id = id'
  · simp [hsame]
  · simp [hsame, Ne.symm hsame]

/-- The overlay of a context says this of each lamp. -/
def CommandContext.Overlays (c : CommandContext) (words : LampId → Option LampDrive) : Prop :=
  ∃ request, c.hostRequest = some request ∧ ∀ id, BcmCore.overlayAt request c.hostMask id = words id

theorem CommandContext.Overlays.apply {c : CommandContext} {words : LampId → Option LampDrive}
    (h : c.Overlays words) (request : Frame) :
    (request.asks.apply c).Overlays fun id => (lampWord id request).or (words id) := by
  obtain ⟨hostRequest, hhost, hwords⟩ := h
  cases hasks : request.asks with
  | lamp id on =>
      refine ⟨hostRequest.set id (if on then .on else .off), ?_, fun id' => ?_⟩
      · simp only [HostAct.apply, hhost]
      · have hmask : (HostAct.apply c (.lamp id on)).hostMask =
            c.hostMask ||| (1#16 <<< id.toNat) := by
          simp only [HostAct.apply, hhost]
        rw [hmask, BcmCore.overlayAt_set, hwords]
        simp only [lampWord, hasks]
        split
        · rfl
        · rfl
  | nothing | lock | unlock | clearFaults | reset =>
      refine ⟨hostRequest, hhost, fun id => ?_⟩
      simp only [lampWord, hasks, Option.none_or]
      exact hwords id

namespace Firmware

variable {Q : Type} {M : MessageQueue Q LogRecord} {cfg : Config} {up : PowerUp Q}

/-- What the frames read so far put a lamp to. -/
def lastWord (f : Firmware Q) (id : LampId) : Option LampDrive :=
  Register.last (lampWord id) (FrameParser.new.frames f.consumed)

theorem lastWord_since {f f' : Firmware Q} {bytes : List UInt8} (hsince : Since f f' bytes)
    (hparser : f.parser = FrameParser.new.after f.consumed) (id : LampId) :
    f'.lastWord id =
      (Register.last (lampWord id) (f.parser.frames bytes)).or (f.lastWord id) := by
  rw [lastWord, hsince.consumed, FrameParser.frames_append, Register.last_append, ← hparser]
  rfl

theorem overlays_exec {f f' : Firmware Q} {a : Action} (h : f.exec M cfg a = some f')
    (hparser : f.parser = FrameParser.new.after f.consumed)
    (hoverlay : f.app.cmdCtx.Overlays f.lastWord) : f'.app.cmdCtx.Overlays f'.lastWord := by
  have hquiet : ∀ {bytes}, Since f f' bytes → f.parser.frames bytes = [] →
      f'.lastWord = f.lastWord := by
    intro bytes hsince hframes
    funext id
    rw [lastWord_since hsince hparser, hframes, Register.last_nil, Option.none_or]
  cases moves h with
  | idle _ bytes hsince hframes happ =>
      rw [hquiet hsince hframes]
      rcases happ with happ | happ
      · rwa [happ]
      · rw [happ]
        exact hoverlay
  | cycled pins _ heq =>
      rw [heq]
      exact hoverlay
  | served _ bytes request hsince hframes reply response hserve =>
      obtain ⟨hctx, -⟩ := BcmApp.serve_asks hserve
      have hlent : CommandContext.Overlays
          { f.app.cmdCtx with faults := f.app.cmdCtx.faults.map fun _ => f.app.core.faults }
          f.lastWord := hoverlay
      have hwords : f'.lastWord = fun id => (lampWord id request).or (f.lastWord id) := by
        funext id
        rw [lastWord_since hsince hparser, hframes]
        have hone := Register.last_concat (lampWord id) [] request
        rw [Register.last_nil, Option.or_none] at hone
        rw [← List.nil_append [request], hone]
      rw [hctx, hwords]
      exact hlent.apply request
  | sampled _ raw hsince happ =>
      rw [hquiet hsince rfl, happ]
      exact hoverlay
  | drained _ hsince happ =>
      rw [hquiet hsince rfl, happ]
      exact hoverlay

theorem overlays_of_run {actions : List Action} {f : Firmware Q}
    (h : run M cfg up actions = some f) : f.app.cmdCtx.Overlays f.lastWord := by
  refine history_of_run (I := fun _ f => f.app.cmdCtx.Overlays f.lastWord)
    ⟨.dark, rfl, BcmCore.overlayAt_empty .dark⟩ ?_ h
  intro actions a s t hs hoverlay hexec
  exact overlays_exec hexec (reads_of_run hs).parser hoverlay

theorem gatherInputs_overlay (a : BcmApp) (board : Snapshot) :
    (a.gatherInputs board).core.hostRequest = a.cmdCtx.hostRequest.getD .dark ∧
      (a.gatherInputs board).core.hostMask = a.cmdCtx.hostMask := by
  simp only [BcmApp.gatherInputs, BcmCore.setInputs, BcmCore.setCommsLost, BcmCore.setHostRequest,
    BcmCore.requestDoorLock, BcmCore.requestDoorUnlock, apply_ite BcmCore.hostRequest,
    apply_ite BcmCore.hostMask, ite_self, and_self]

/-- **What each lamp is after a cycle.** The brake lamp is the switch. Another lamp that the arbiter
leaves open is what the last SET_LAMP for it among the frames read put it to, or else what the
managers want of it. The rest are off. -/
theorem lamps_of_frames {actions : List Action} {s f : Firmware Q} {pins : Bsp.Levels}
    (hs : run M cfg up actions = some s) (hf : s.exec M cfg (.cycle pins) = some f)
    (id : LampId) :
    f.app.core.lamps.get id =
      if id = .brake then (if (f.buttons .brake).state then .on else .off)
      else if LampArbiter.leavesOpen f.app.core.arbiterInputs id then
        (Register.last (lampWord id) (FrameParser.new.frames s.consumed)).getD
          (f.app.core.wanted.get id)
      else .off := by
  rw [exec, Option.ite_none_left_eq_some] at hf
  obtain ⟨-, hcycle⟩ := hf
  obtain ⟨request, hrequest, hwords⟩ := overlays_of_run hs
  obtain ⟨hhost, hmask⟩ := gatherInputs_overlay s.app (s.readButtons pins kControlMs).snapshot
  rw [hrequest, Option.getD_some] at hhost
  have hbrake : (s.app.gatherInputs (s.readButtons pins kControlMs).snapshot).core.inputs.brake =
      ((s.readButtons pins kControlMs).buttons .brake).state := by
    rw [(s.app.gatherInputs_core _).2.1]
    rfl
  have hlamp := BcmCore.step_get_lamps cfg kControlMs
    (s.app.gatherInputs (s.readButtons pins kControlMs).snapshot).core id
  rw [hbrake, hhost, hmask, BcmCore.get_mergeHost, hwords] at hlamp
  rw [← Option.some.inj hcycle]
  exact hlamp

/-- A SET_LAMP for the low beam after the first cycle. -/
def lampActions : List Action :=
  .cycle PowerUp.quiet.pins :: arrivals [0xAA, 0x04, 0x02, 0x02, 0x01, 0xA3, 0x55]

theorem lamps_of_frames_lowBeam :
    let M := MessageQueue.plain LogRecord kLogQueueLength
    ∃ s f, run M .shipped .quiet lampActions = some s ∧
      s.exec M .shipped (.cycle PowerUp.quiet.pins) = some f ∧
      f.app.core.lamps.get .lowBeam =
        if LampArbiter.leavesOpen f.app.core.arbiterInputs .lowBeam then
          (Register.last (lampWord .lowBeam) (FrameParser.new.frames s.consumed)).getD
            (f.app.core.wanted.get .lowBeam)
        else .off := by
  intro M
  have hstays : (run M .shipped .quiet lampActions).any
      (fun s => !s.app.cmdCtx.resetRequested) = true := by decide +kernel
  obtain ⟨s, hs, hstays⟩ := (Option.any_eq_true _ _).mp hstays
  rw [Bool.not_eq_true'] at hstays
  have hf : s.exec M .shipped (.cycle PowerUp.quiet.pins) =
      some (s.cycle .shipped PowerUp.quiet.pins) := by
    rw [exec, hstays]
    rfl
  exact ⟨s, _, hs, hf, lamps_of_frames hs hf .lowBeam⟩

/-! ### The reset -/

theorem resetRequested_apply (act : HostAct) (c : CommandContext) :
    (act.apply c).resetRequested = (c.resetRequested || decide (act = .reset)) := by
  cases act with
  | reset => exact (Bool.or_true _).symm
  | lamp id on =>
      unfold HostAct.apply
      dsimp only
      split
      · exact (Bool.or_false _).symm
      · exact (Bool.or_false _).symm
  | nothing | lock | unlock | clearFaults => exact (Bool.or_false _).symm

theorem asks_eq_reset_iff (request : Frame) :
    request.asks = .reset ↔ request.cmd = Cmd.reset.toUInt8 := by
  constructor
  · intro hasks
    by_contra hcmd
    rw [Frame.asks, if_neg hcmd] at hasks
    split_ifs at hasks
    split at hasks
    · exact absurd hasks (by simp)
    · exact absurd hasks (by simp)
  · intro hcmd
    rw [Frame.asks, hcmd]
    rfl

/-- A RESET has been read. -/
def resetRead (f : Firmware Q) : Bool :=
  (FrameParser.new.frames f.consumed).any fun request => decide (request.asks = .reset)

theorem resetRead_since {f f' : Firmware Q} {bytes : List UInt8} (hsince : Since f f' bytes)
    (hparser : f.parser = FrameParser.new.after f.consumed) :
    f'.resetRead =
      (f.resetRead ||
        (f.parser.frames bytes).any fun request => decide (request.asks = .reset)) := by
  rw [resetRead, hsince.consumed, FrameParser.frames_append, List.any_append, ← hparser]
  rfl

theorem resetRequested_exec {f f' : Firmware Q} {a : Action} (h : f.exec M cfg a = some f')
    (hparser : f.parser = FrameParser.new.after f.consumed)
    (hreset : f.app.cmdCtx.resetRequested = f.resetRead) :
    f'.app.cmdCtx.resetRequested = f'.resetRead := by
  have hquiet : ∀ {bytes}, Since f f' bytes → f.parser.frames bytes = [] →
      f'.resetRead = f.resetRead := by
    intro bytes hsince hframes
    rw [resetRead_since hsince hparser, hframes, List.any_nil, Bool.or_false]
  cases moves h with
  | idle _ bytes hsince hframes happ =>
      rw [hquiet hsince hframes, ← hreset]
      rcases happ with happ | happ
      · rw [happ]
      · rw [happ]
        rfl
  | cycled pins _ heq =>
      rw [heq]
      exact hreset
  | served _ bytes request hsince hframes reply response hserve =>
      obtain ⟨hctx, -⟩ := BcmApp.serve_asks hserve
      rw [resetRead_since hsince hparser, hframes, hctx, resetRequested_apply, List.any_cons,
        List.any_nil, Bool.or_false, ← hreset]
  | sampled _ raw hsince happ =>
      rw [hquiet hsince rfl, happ]
      exact hreset
  | drained _ hsince happ =>
      rw [hquiet hsince rfl, happ]
      exact hreset

/-- **Only a RESET restarts the vehicle.** At any point of any interleaving there is a next cycle if
and only if no RESET is among the frames read so far. -/
theorem cycles_until_reset {actions : List Action} {f : Firmware Q}
    (h : run M cfg up actions = some f) (pins : Bsp.Levels) :
    (f.exec M cfg (.cycle pins)).isSome ↔
      ∀ request ∈ FrameParser.new.frames f.consumed, request.cmd ≠ Cmd.reset.toUInt8 := by
  have hreset : f.app.cmdCtx.resetRequested = f.resetRead :=
    history_of_run (I := fun _ f => f.app.cmdCtx.resetRequested = f.resetRead) rfl
      (fun _ _ _ _ hs hreset hexec =>
        resetRequested_exec hexec (reads_of_run hs).parser hreset) h
  have hread : f.resetRead = false ↔
      ∀ request ∈ FrameParser.new.frames f.consumed, request.cmd ≠ Cmd.reset.toUInt8 := by
    unfold resetRead
    rw [List.any_eq_false]
    simp only [decide_eq_true_eq, asks_eq_reset_iff, ne_eq]
  rw [← hread, ← hreset, exec]
  cases f.app.cmdCtx.resetRequested with
  | false => simp
  | true => simp

/-- A RESET of which the last byte is not read yet does not count, and with that byte it does. -/
theorem cycles_until_reset_unread :
    let M := MessageQueue.plain LogRecord kLogQueueLength
    ∃ f g, run M .shipped .quiet (arrivals [0xAA, 0x0B, 0x00, 0x97]) = some f ∧
      (f.exec M .shipped (.cycle PowerUp.quiet.pins)).isSome ∧
      run M .shipped .quiet (arrivals [0xAA, 0x0B, 0x00, 0x97, 0x55]) = some g ∧
      ¬(g.exec M .shipped (.cycle PowerUp.quiet.pins)).isSome := by
  intro M
  have hunread : (run M .shipped .quiet (arrivals [0xAA, 0x0B, 0x00, 0x97])).any (fun f : Firmware _ =>
      decide (∀ request ∈ FrameParser.new.frames f.consumed,
        request.cmd ≠ Cmd.reset.toUInt8)) = true := by decide +kernel
  have hread : (run M .shipped .quiet (arrivals [0xAA, 0x0B, 0x00, 0x97, 0x55])).any (fun f : Firmware _ =>
      decide (¬∀ request ∈ FrameParser.new.frames f.consumed,
        request.cmd ≠ Cmd.reset.toUInt8)) = true := by decide +kernel
  simp only [Option.any_eq_true, decide_eq_true_eq] at hunread hread
  obtain ⟨f, hf, hnone⟩ := hunread
  obtain ⟨g, hg, hsome⟩ := hread
  exact ⟨f, g, hf, (cycles_until_reset hf _).mpr hnone, hg,
    fun hnext => hsome ((cycles_until_reset hg _).mp hnext)⟩

end Firmware

end Bcm
