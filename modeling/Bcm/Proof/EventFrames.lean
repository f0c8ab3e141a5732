import Bcm.Proof.LinkBytes
import Bcm.Proof.StatusQueries

/-!
# What the desktop tool is sent

The frame of a record gives the desktop tool the record's own time, event and argument, and no
answer of the dispatcher is taken for an event. So the frames that the line has accepted tell the
two kinds apart, and the tool gets them as they went out, up to the last one that is out whole.
-/

namespace Bcm

namespace Desktop

/-- What the desktop tool makes of a record. -/
def eventArgs (r : LogRecord) : BcmEventArgs :=
  ⟨BitVec.ofNat 32 r.timestampMs, r.event.toUInt8, UInt8.ofNat r.arg⟩

/-- A big-endian time comes apart into its bytes and back. -/
theorem bytes_timestamp (n : Nat) :
    ((UInt8.ofNat (n >>> 24)).toBitVec.setWidth 32 <<< 24) |||
        ((UInt8.ofNat (n >>> 16)).toBitVec.setWidth 32 <<< 16) |||
        ((UInt8.ofNat (n >>> 8)).toBitVec.setWidth 32 <<< 8) |||
        (UInt8.ofNat n).toBitVec.setWidth 32 = BitVec.ofNat 32 n := by
  have hbyte : ∀ m j, (UInt8.ofNat m).toBitVec.getLsbD j = (decide (j < 8) && m.testBit j) :=
    fun m j => BitVec.getLsbD_ofNat ..
  apply BitVec.eq_of_getLsbD_eq
  intro i hi
  simp only [BitVec.getLsbD_or, BitVec.getLsbD_shiftLeft, BitVec.getLsbD_setWidth, hbyte,
    BitVec.getLsbD_ofNat, Nat.testBit_shiftRight, hi, decide_true, Bool.true_and]
  -- one byte has the bit, and the others have been shifted past it
  by_cases h8 : i < 8
  · simp [h8, show i < 16 by omega, show i < 24 by omega]
  · by_cases h16 : i < 16
    · simp [h8, h16, show i < 24 by omega, show i - 8 < 8 by omega, show i - 8 < 32 by omega,
        show 8 + (i - 8) = i by omega]
    · by_cases h24 : i < 24
      · simp [h8, h16, h24, show i - 16 < 8 by omega, show ¬i - 8 < 8 by omega,
          show i - 16 < 32 by omega, show 16 + (i - 16) = i by omega]
      · simp [h8, h16, h24, show ¬i - 16 < 8 by omega, show ¬i - 8 < 8 by omega,
          show i - 24 < 8 by omega, show i - 24 < 32 by omega, show 24 + (i - 24) = i by omega]

theorem data_logFrame (r : LogRecord) :
    (logFrame r).data =
      [UInt8.ofNat (r.timestampMs >>> 24), UInt8.ofNat (r.timestampMs >>> 16),
        UInt8.ofNat (r.timestampMs >>> 8), UInt8.ofNat r.timestampMs, r.event.toUInt8,
        UInt8.ofNat r.arg] := rfl

theorem eventOf_logFrame (r : LogRecord) :
    eventOf ⟨(logFrame r).cmd, (logFrame r).data⟩ = some (eventArgs r) := by
  have hcmd : (logFrame r).cmd = logEventCmd := rfl
  rw [data_logFrame]
  unfold eventOf
  rw [if_pos hcmd]
  exact congrArg (fun time => some (BcmEventArgs.mk time r.event.toUInt8 (UInt8.ofNat r.arg)))
    (bytes_timestamp r.timestampMs)

theorem eventOf_of_ne {f : Frame} (h : f.cmd ≠ logEventCmd) : eventOf f = none := if_neg h

theorem eventOf_of_short {f : Frame} (h : f.payload.length < 6) : eventOf f = none := by
  unfold eventOf dispatchEvent
  split_ifs
  · rfl
  · rfl

end Desktop

/-! ### The answers -/

/-- The flag comes off again. -/
theorem cmd_of_flagged {cmd : UInt8} (h : cmd &&& kResponseFlag = 0) :
    (cmd ||| kResponseFlag) ^^^ kResponseFlag = cmd := by
  have hbits : ∀ bits : BitVec 8, bits &&& 0x80#8 = 0#8 →
      (bits ||| 0x80#8) ^^^ 0x80#8 = bits := by decide
  exact UInt8.toBitVec_inj.mp (hbits cmd.toBitVec (UInt8.toBitVec_inj.mpr h))

namespace Commands

/-- **What the dispatcher answers.** A reply answers a request, under its command and with a payload
that fits, and it is no event. -/
theorem dispatch_reply {request response answer : Frame} {d d' : Dispatcher}
    {context context' : Option CommandContext} (hlen : request.len ≤ kMaxPayload)
    (h : d.dispatch commandTable request response context = some (true, answer, d', context')) :
    request.cmd &&& kResponseFlag = 0 ∧ answer.cmd = request.cmd ||| kResponseFlag ∧
      answer.len ≤ kMaxPayload ∧ Desktop.eventOf ⟨answer.cmd, answer.data⟩ = none := by
  have hplain : request.cmd &&& kResponseFlag = 0 := by
    by_contra hflag
    rw [Dispatcher.dispatch, if_pos hflag] at h
    exact absurd (congrArg (·.1) (Option.some.inj h)) (by simp)
  have hnot : ¬(request.cmd = Cmd.ping.toUInt8 ∧ request.len = kMaxPayload) := by
    rintro ⟨hping, hfull⟩
    rw [dispatch_full_ping hping hfull] at h
    exact absurd h (by simp)
  obtain ⟨sent, d'', context'', hsent, hcmd, -, hfits, -⟩ :=
    sends_of_not_full hplain hlen hnot d response context
  obtain rfl : sent = answer := by
    rw [h] at hsent
    exact (congrArg (·.2.1) (Option.some.inj hsent)).symm
  refine ⟨hplain, hcmd, hfits, ?_⟩
  by_cases hlog : request.cmd = Cmd.logEvent.toUInt8
  · -- the log event is no row of the table, and its refusal is too short
    have hrefused : d.dispatch commandTable request response context =
        some (true, makeStatusResponse request.cmd .unknownCmd, d.reject, context) := by
      rw [Dispatcher.dispatch, if_neg (not_not.mpr hplain), hlog]
      rfl
    rw [h] at hrefused
    obtain rfl : sent = makeStatusResponse request.cmd .unknownCmd :=
      congrArg (·.2.1) (Option.some.inj hrefused)
    apply Desktop.eventOf_of_short
    change 1 < 6
    decide
  · apply Desktop.eventOf_of_ne
    intro hevent
    apply hlog
    calc request.cmd = (request.cmd ||| kResponseFlag) ^^^ kResponseFlag :=
          (cmd_of_flagged hplain).symm
      _ = Cmd.logEvent.toUInt8 := by
          rw [← hcmd]
          dsimp only at hevent
          rw [hevent]
          rfl

end Commands

/-! ### The frames on the line -/

namespace Desktop.FrameParser

theorem frames_append (p : FrameParser) (xs ys : List UInt8) :
    p.frames (xs ++ ys) = p.frames xs ++ (p.after xs).frames ys := by
  induction xs generalizing p with
  | nil => rfl
  | cons byte xs ih =>
      have hafter : p.after (byte :: xs) = (p.feed byte).1.after xs := rfl
      rw [hafter, List.cons_append, frames, frames]
      dsimp only
      split
      · exact ih _
      · rw [ih, List.append_assoc]

theorem hunting_after_wire {p : FrameParser} (hp : p.state = .header) {f : Bcm.Frame}
    (hlen : f.len ≤ kMaxPayload) : (p.after f.wire).state = .header := by
  have hholds : p.Holds [] := by
    unfold Holds pending Buffered
    rw [hp]
    exact ⟨rfl, trivial⟩
  have hempty := (collects.final_of_whole hholds (FrameUnit.frame f hlen)).1.1
  unfold pending at hempty
  cases hstate : (p.after f.wire).state with
  | header => rfl
  | _ =>
      unfold after at hstate
      rw [hstate] at hempty
      exact absurd hempty (by simp)

end Desktop.FrameParser

namespace Line

/-- Every block that was accepted is a frame. -/
def Framed (line : Line) : Prop :=
  ∀ block ∈ line.accepted, ∃ f : Frame, f.len ≤ kMaxPayload ∧ block = f.wire

/-- The frames of the blocks, as the desktop tool has them. -/
def frames (line : Line) : List Desktop.Frame :=
  line.accepted.flatMap Desktop.FrameParser.new.frames

theorem framed_start (u : Uart) : (start u).Framed := fun _ h => absurd h List.not_mem_nil

theorem encode_wire {f : Frame} (hlen : f.len ≤ kMaxPayload) :
    f.encode true kMaxFrameSize = some f.wire := by
  have hsize : f.encodedSize ≤ kMaxFrameSize :=
    Nat.add_le_add_right (UInt8.le_iff_toNat_le.mp hlen) kFrameOverhead
  rw [Frame.wire_eq hlen]
  exact f.encode_eq hlen hsize

section

variable {line : Line} {f : Frame} (hlen : f.len ≤ kMaxPayload)

include hlen

theorem framed_send (h : line.Framed) : (line.send f).Framed := by
  intro block hblock
  rw [send_accepted, encode_wire hlen] at hblock
  split at hblock
  · rcases List.mem_append.mp hblock with hearlier | hlast
    · exact h block hearlier
    · exact ⟨f, hlen, List.mem_singleton.mp hlast⟩
  · exact h block hblock

theorem frames_send :
    (line.send f).frames =
      line.frames ++ if line.takes f then [⟨f.cmd, f.data⟩] else [] := by
  unfold frames
  rw [send_accepted, encode_wire hlen]
  split
  · rw [List.flatMap_append]
    congr 1
    change [f.wire].flatMap Desktop.FrameParser.new.frames = _
    rw [List.flatMap_singleton, Desktop.FrameParser.frames_wire rfl hlen]
  · exact (List.append_nil _).symm

end

/-! ### The line in use -/

/-- With room for it, a frame is taken. -/
theorem takes_of_room {line : Line} {f : Frame} (hlen : f.len ≤ kMaxPayload)
    (hinit : line.uart.initialised = true)
    (hroom : line.uart.tx.count + (f.len.toNat + 5) ≤ kTxCapacity) : line.takes f = true := by
  have hlength := Frame.length_wire hlen
  have hsize : line.uart.tx.size = line.uart.tx.count := rfl
  unfold takes Uart.write
  rw [encode_wire hlen]
  dsimp only
  rw [hinit, hlength, hsize, if_neg (by decide), if_neg (by omega), if_neg (by omega),
    if_neg (by omega)]

/-- The line carries frames, and nothing is lost on it. -/
structure Ready (line : Line) : Prop where
  sound : line.Sound
  framed : line.Framed
  initialised : line.uart.initialised = true

theorem ready_start (u : Uart) : (start u).Ready := ⟨sound_start u, framed_start u, rfl⟩

theorem Ready.send {line : Line} (h : line.Ready) {f : Frame} (hlen : f.len ≤ kMaxPayload) :
    (line.send f).Ready :=
  ⟨sound_exec h.sound _, framed_send hlen h.framed, initialised_exec h.initialised _⟩

/-- Only a write is accepted. -/
theorem Ready.other {line : Line} (h : line.Ready) (op : UartOp)
    (hop : (line.exec op).accepted = line.accepted) :
    (line.exec op).Ready ∧ (line.exec op).frames = line.frames := by
  refine ⟨⟨sound_exec h.sound op, ?_, initialised_exec h.initialised op⟩, ?_⟩
  · unfold Framed
    rw [hop]
    exact h.framed
  · rw [frames, hop]
    rfl

/-- A parser between two frames makes of the blocks what it makes of each. -/
theorem frames_flatten {p : Desktop.FrameParser} (hp : p.state = .header) {line : Line}
    (h : line.Framed) : p.frames line.accepted.flatten = line.frames := by
  unfold Framed at h
  unfold frames
  generalize line.accepted = blocks at h
  induction blocks generalizing p with
  | nil => rfl
  | cons block blocks ih =>
      obtain ⟨f, hlen, rfl⟩ := h block List.mem_cons_self
      rw [List.flatten_cons, Desktop.FrameParser.frames_append,
        ih (Desktop.FrameParser.hunting_after_wire hp hlen)
          fun b hb => h b (List.mem_cons_of_mem _ hb),
        List.flatMap_cons, Desktop.FrameParser.frames_wire hp hlen,
        Desktop.FrameParser.frames_wire rfl hlen]

/-- **What the desktop tool gets** is what was accepted, up to the last frame that is out whole. -/
theorem delivers {p : Desktop.FrameParser} (hp : p.state = .header) {line : Line}
    (h : line.Ready) :
    Passed (line.uart.tx.contents = []) (p.frames line.emitted) line.frames := by
  have hstream := frames_flatten hp h.framed
  rw [← h.sound.bytes, Desktop.FrameParser.frames_append] at hstream
  rw [← hstream]
  refine (Passed.front _ _).imp fun hdrained => ?_
  rw [hdrained]
  rfl

end Line

end Bcm
