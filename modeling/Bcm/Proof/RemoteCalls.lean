import Bcm.Proof.PollBudget
import Bcm.Proof.ReplyPath

/-!
# Remote calls

The way of a call, from the encoder of the desktop tool through the firmware under its tasks and
back into the tool's parser. The wire delivers what the tool writes, up to some byte.
-/

namespace Bcm

namespace Desktop

/-- What `RequestAsync` writes to its port. A payload that is too long makes the encoder throw. -/
def Frame.bytes (f : Frame) : List UInt8 := (encode f.cmd f.payload).getD []

theorem exists_wire {f : Frame} (h : f.payload.length ≤ kMaxPayload.toNat) :
    ∃ g : Bcm.Frame, g.len ≤ kMaxPayload ∧ g.wire = f.bytes ∧ g.content = f.content := by
  obtain ⟨g, hg⟩ := exists_carries f.cmd h
  have hlen : g.len ≤ kMaxPayload := by
    rw [UInt8.le_iff_toNat_le, hg.len]
    exact h
  have hsize : g.encodedSize ≤ kMaxFrameSize :=
    Nat.add_le_add_right (UInt8.le_iff_toNat_le.mp hlen) kFrameOverhead
  refine ⟨g, hlen, ?_, ?_⟩
  · rw [Bcm.Frame.wire, Frame.bytes, encode_of_carries hg h hsize]
  · rw [Bcm.Frame.content, Frame.content, hg.cmd, hg.data, ← hg.len, UInt8.ofNat_toNat]

theorem exists_wires {calls : List Frame}
    (h : ∀ call ∈ calls, call.payload.length ≤ kMaxPayload.toNat) :
    ∃ sent : List Bcm.Frame, (∀ g ∈ sent, g.len ≤ kMaxPayload) ∧
      sent.flatMap Bcm.Frame.wire = calls.flatMap Frame.bytes ∧
      sent.map Bcm.Frame.content = calls.map Frame.content := by
  induction calls with
  | nil => exact ⟨[], fun _ hg => absurd hg List.not_mem_nil, rfl, rfl⟩
  | cons call calls ih =>
      obtain ⟨g, hlen, hwire, hcontent⟩ := exists_wire (h call List.mem_cons_self)
      obtain ⟨sent, hlens, hwires, hcontents⟩ := ih fun c hc => h c (List.mem_cons_of_mem call hc)
      refine ⟨g :: sent, ?_, ?_, ?_⟩
      · exact List.forall_mem_cons.mpr ⟨hlen, hlens⟩
      · rw [List.flatMap_cons, List.flatMap_cons, hwire, hwires]
      · rw [List.map_cons, List.map_cons, hcontent, hcontents]

end Desktop

namespace Firmware

variable {Q : Type} {M : MessageQueue Q LogRecord} {cfg : Config} {up : PowerUp Q}

/-- A frame with the response flag is no request, and the dispatcher leaves it alone. -/
def isRequest (content : FrameContent) : Bool := decide (content.1 &&& kResponseFlag = 0)

theorem requests_content (f : Firmware Q) :
    f.requests.map Frame.content =
      ((FrameParser.new.frames f.consumed).map Frame.content).filter isRequest := by
  rw [requests, List.filter_map]
  rfl

end Firmware

end Bcm
