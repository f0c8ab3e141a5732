import Bcm.FrameCodec
import Bcm.Lib.Framing

/-!
# The frame parser and its grammar

The units of a byte stream, in the bytes alone: noise outside a frame, a frame, and the three ways
a frame is rejected, each cut where it goes wrong. The parser collects these units, and that is all
the later proofs know of it.
-/

namespace Bcm

open FrameParser (Answer)

/-- The start of a unit that has not ended. -/
inductive FramePart : List UInt8 → Prop where
  | header : FramePart [kFrameHeader]
  | command (cmd : UInt8) : FramePart [kFrameHeader, cmd]
  | payload (f : Frame) (k : Nat) (hlen : f.len ≤ kMaxPayload) (hk : k ≤ f.len.toNat) :
      FramePart (kFrameHeader :: f.cmd :: f.len :: f.data.take k)
  | checksum (f : Frame) (hlen : f.len ≤ kMaxPayload) :
      FramePart (kFrameHeader :: f.cmd :: f.len :: f.data ++ [f.checksum])

/-- A whole unit, and how its last byte is answered. -/
inductive FrameUnit : List UInt8 → Answer → Prop where
  | noise (byte : UInt8) (hbyte : byte ≠ kFrameHeader) : FrameUnit [byte] (.needMore, none)
  | overflow (cmd len : UInt8) (hlen : kMaxPayload < len) :
      FrameUnit [kFrameHeader, cmd, len] (.overflow, none)
  | badChecksum (f : Frame) (byte : UInt8) (hlen : f.len ≤ kMaxPayload)
      (hbyte : byte ≠ f.checksum) :
      FrameUnit (kFrameHeader :: f.cmd :: f.len :: f.data ++ [byte]) (.checksumError, none)
  | badFooter (f : Frame) (byte : UInt8) (hlen : f.len ≤ kMaxPayload)
      (hbyte : byte ≠ kFrameFooter) :
      FrameUnit (kFrameHeader :: f.cmd :: f.len :: f.data ++ [f.checksum, byte])
        (.framingError, none)
  | frame (f : Frame) (hlen : f.len ≤ kMaxPayload) :
      FrameUnit f.wire (.complete, some f.content)

/-! ### Parts and units do not overlap -/

/-- The verdict on a string as a function of its bytes, `none` for an unfinished unit. -/
def judge : List UInt8 → Option Answer
  | [] => none
  | [header] => if header = kFrameHeader then none else some (.needMore, none)
  | [_, _] => none
  | _ :: cmd :: len :: rest =>
      if kMaxPayload < len then some (.overflow, none)
      else if rest.length ≤ len.toNat then none
      else if rest.length = len.toNat + 1 then
        if rest[len.toNat]? = some (Crc8.compute (cmd :: len :: rest.take len.toNat)) then none
        else some (.checksumError, none)
      else if rest[len.toNat + 1]? = some kFrameFooter then
        some (.complete, some (cmd, len, rest.take len.toNat))
      else some (.framingError, none)

theorem judge_part {w : List UInt8} (h : FramePart w) : judge w = none := by
  cases h with
  | header => rfl
  | command cmd => rfl
  | payload f k hlen hk =>
      have hle : (f.data.take k).length ≤ f.len.toNat := by
        rw [List.length_take]
        omega
      rw [judge, if_neg (UInt8.not_lt.mpr hlen), if_pos hle]
  | checksum f hlen =>
      have hlength := Frame.length_data hlen
      simp [judge, UInt8.not_lt.mpr hlen, ← hlength, Frame.checksum]

theorem judge_unit {w : List UInt8} {answer : Answer} (h : FrameUnit w answer) :
    judge w = some answer := by
  cases h with
  | noise byte hbyte => simp [judge, hbyte]
  | overflow cmd len hlen => simp [judge, hlen]
  | badChecksum f byte hlen hbyte =>
      have hlength := Frame.length_data hlen
      have hcheck : byte ≠ Crc8.compute (f.cmd :: f.len :: f.data) := hbyte
      simp [judge, UInt8.not_lt.mpr hlen, ← hlength, hcheck]
  | badFooter f byte hlen hbyte =>
      have hlength := Frame.length_data hlen
      simp [judge, UInt8.not_lt.mpr hlen, ← hlength, hbyte]
  | frame f hlen =>
      have hlength := Frame.length_data hlen
      rw [Frame.wire_eq hlen]
      simp [judge, UInt8.not_lt.mpr hlen, ← hlength, Frame.content]

/-! ### A unit is finished one byte at a time -/

theorem data_take_length {f : Frame} (hlen : f.len ≤ kMaxPayload) :
    f.data.take f.len.toNat = f.data := by
  rw [← Frame.length_data hlen, List.take_length]

theorem part_data (f : Frame) (hlen : f.len ≤ kMaxPayload) :
    FramePart (kFrameHeader :: f.cmd :: f.len :: f.data) := by
  have hpart := FramePart.payload f f.len.toNat hlen (le_refl _)
  rwa [data_take_length hlen] at hpart

theorem part_of_part {w : List UInt8} {byte : UInt8} (h : FramePart (w ++ [byte]))
    (hw : w ≠ []) : FramePart w := by
  generalize hv : w ++ [byte] = v at h
  cases h with
  | header =>
      have hnil : w = [] := List.append_inj_left' (hv.trans (List.nil_append _).symm) rfl
      exact absurd hnil hw
  | command cmd =>
      have hsplit : w ++ [byte] = [kFrameHeader] ++ [cmd] := hv
      rw [List.append_inj_left' hsplit rfl]
      exact FramePart.header
  | payload f k hlen hk =>
      cases k with
      | zero =>
          have hsplit : w ++ [byte] = [kFrameHeader, f.cmd] ++ [f.len] := hv
          rw [List.append_inj_left' hsplit rfl]
          exact FramePart.command f.cmd
      | succ k =>
          have hdata : k < f.data.length := by
            rw [Frame.length_data hlen]
            omega
          rw [List.take_succ_eq_append_getElem hdata] at hv
          have hsplit : w ++ [byte] =
              (kFrameHeader :: f.cmd :: f.len :: f.data.take k) ++ [f.data[k]] := hv
          rw [List.append_inj_left' hsplit rfl]
          exact FramePart.payload f k hlen (by omega)
  | checksum f hlen =>
      rw [List.append_inj_left' hv rfl]
      exact part_data f hlen

theorem part_of_unit {w : List UInt8} {byte : UInt8} {answer : Answer}
    (h : FrameUnit (w ++ [byte]) answer) (hw : w ≠ []) : FramePart w := by
  generalize hv : w ++ [byte] = v at h
  cases h with
  | noise other =>
      have hnil : w = [] := List.append_inj_left' (hv.trans (List.nil_append _).symm) rfl
      exact absurd hnil hw
  | overflow cmd len =>
      have hsplit : w ++ [byte] = [kFrameHeader, cmd] ++ [len] := hv
      rw [List.append_inj_left' hsplit rfl]
      exact FramePart.command cmd
  | badChecksum f other hlen =>
      rw [List.append_inj_left' hv rfl]
      exact part_data f hlen
  | badFooter f other hlen =>
      have hsplit : w ++ [byte] =
          (kFrameHeader :: f.cmd :: f.len :: f.data ++ [f.checksum]) ++ [other] := by
        rw [hv, List.append_assoc]
        rfl
      rw [List.append_inj_left' hsplit rfl]
      exact FramePart.checksum f hlen
  | frame f hlen =>
      have hsplit : w ++ [byte] =
          (kFrameHeader :: f.cmd :: f.len :: f.data ++ [f.checksum]) ++ [kFrameFooter] := by
        rw [hv, Frame.wire_eq hlen, List.append_assoc]
        rfl
      rw [List.append_inj_left' hsplit rfl]
      exact FramePart.checksum f hlen

def frameGrammar : Framing.Grammar UInt8 Answer where
  Part := FramePart
  Whole := FrameUnit
  part_of_part := part_of_part
  part_of_whole := part_of_unit
  whole_ne_nil := by
    rintro w answer h rfl
    exact absurd (judge_unit h) (by simp [judge])
  not_whole_of_part := by
    intro w answer hpart hunit
    have hboth := (judge_part hpart).symm.trans (judge_unit hunit)
    exact Option.some_ne_none answer hboth.symm
  whole_unique := by
    intro w answer answer' h h'
    exact Option.some.inj ((judge_unit h).symm.trans (judge_unit h'))

namespace FrameParser

/-! ### What the parser holds -/

/-- The bytes of the unfinished unit a parser stands in. -/
def pending (p : FrameParser) : List UInt8 :=
  match p.state with
  | .header => []
  | .command => [kFrameHeader]
  | .length => [kFrameHeader, p.frame.cmd]
  | .payload =>
      kFrameHeader :: p.frame.cmd :: p.frame.len :: p.frame.payload.toList.take p.index
  | .checksum => kFrameHeader :: p.frame.cmd :: p.frame.len :: p.frame.data
  | .footer => kFrameHeader :: p.frame.cmd :: p.frame.len :: p.frame.data ++ [p.frame.checksum]

/-- The check register has run over the pending bytes after the header, and the length that passed
the check on it is still there. -/
def Checked (p : FrameParser) : Prop :=
  match p.state with
  | .header => True
  | .command => p.crc = .new
  | .length => p.crc = Crc8.new.update p.frame.cmd
  | .payload =>
      p.crc = (p.frame.cmd :: p.frame.len :: p.frame.payload.toList.take p.index).foldl
        Crc8.update .new
  | .checksum => p.frame.len ≤ kMaxPayload ∧ p.crc.value = p.frame.checksum
  | .footer => p.frame.len ≤ kMaxPayload

def Holds (p : FrameParser) (held : List UInt8) : Prop := p.pending = held ∧ p.Checked

theorem holds_nil_of_hunting {p : FrameParser} (h : p.state = .header) : p.Holds [] := by
  rw [Holds, pending, Checked, h]
  exact ⟨rfl, trivial⟩

theorem receive_of_feed {p p' : FrameParser} {byte : UInt8} (result : FeedResult)
    (hresult : result ≠ .complete) (h : p.feed byte = (p', result)) :
    p.receive byte = (p', result, none) := by
  rw [receive, h]
  simp [hresult]

theorem take_payload_set (payload : Vector UInt8 32) {index : Nat} (h : index < 32) (byte : UInt8) :
    (payload.set index byte h).toList.take (index + 1) = payload.toList.take index ++ [byte] := by
  have hlength : index < payload.toList.length := by
    rw [Vector.length_toList]
    exact h
  have hset : (payload.set index byte h).toList = payload.toList.set index byte :=
    Vector.toList_set h
  rw [hset, List.take_add_one, List.getElem?_set_self hlength, List.take_set_of_le (le_refl _)]
  rfl

/-- What the next byte does to a parser and to what it holds. -/
def StepCases (p : FrameParser) (byte : UInt8) : Prop :=
  FramePart (p.pending ++ [byte]) ∧ (p.receive byte).1.Holds (p.pending ++ [byte]) ∧
      (p.receive byte).2 = (.needMore, none) ∨
    FrameUnit (p.pending ++ [byte]) (p.receive byte).2 ∧ (p.receive byte).1.Holds []

theorem step_header {p : FrameParser} (hstate : p.state = .header) (byte : UInt8) :
    p.StepCases byte := by
  obtain ⟨state, frame, index, crc, framesOk, framesBad, inBounds⟩ := p
  subst hstate
  by_cases hbyte : byte = kFrameHeader
  · left
    rw [receive_of_feed .needMore (by decide) (by rw [feed, if_pos hbyte]), hbyte]
    exact ⟨FramePart.header, ⟨rfl, rfl⟩, rfl⟩
  · right
    rw [receive_of_feed .needMore (by decide) (by rw [feed, if_neg hbyte])]
    exact ⟨FrameUnit.noise byte hbyte, rfl, trivial⟩

theorem step_command {p : FrameParser} (hstate : p.state = .command) (hchecked : p.Checked)
    (byte : UInt8) : p.StepCases byte := by
  obtain ⟨state, frame, index, crc, framesOk, framesBad, inBounds⟩ := p
  subst hstate
  have hcrc : crc = .new := hchecked
  left
  rw [receive_of_feed .needMore (by decide) (by rw [feed])]
  refine ⟨FramePart.command byte, ⟨rfl, ?_⟩, rfl⟩
  exact congrArg (Crc8.update · byte) hcrc

theorem step_length {p : FrameParser} (hstate : p.state = .length) (hchecked : p.Checked)
    (byte : UInt8) : p.StepCases byte := by
  obtain ⟨state, frame, index, crc, framesOk, framesBad, inBounds⟩ := p
  subst hstate
  have hcrc : crc = Crc8.new.update frame.cmd := hchecked
  by_cases hlen : kMaxPayload < byte
  · right
    rw [receive_of_feed .overflow (by decide) (by rw [feed, dif_pos hlen, fail])]
    exact ⟨FrameUnit.overflow frame.cmd byte hlen, rfl, trivial⟩
  · left
    have hle : byte ≤ kMaxPayload := UInt8.not_lt.mp hlen
    have hpart : FramePart [kFrameHeader, frame.cmd, byte] :=
      FramePart.payload { frame with len := byte } 0 hle (Nat.zero_le _)
    have hrun : crc.update byte = (Crc8.new.update frame.cmd).update byte := by rw [hcrc]
    by_cases hzero : byte = 0
    · rw [receive_of_feed .needMore (by decide) (by rw [feed, dif_neg hlen, dif_pos hzero])]
      have hdata : Frame.data { frame with len := byte } = [] := by
        rw [Frame.data, hzero]
        rfl
      refine ⟨hpart, ⟨?_, hle, ?_⟩, rfl⟩
      · change kFrameHeader :: frame.cmd :: byte :: Frame.data { frame with len := byte } = _
        rw [hdata]
        rfl
      · change (crc.update byte).value =
          Crc8.compute (frame.cmd :: byte :: Frame.data { frame with len := byte })
        rw [hdata, hrun]
        rfl
    · rw [receive_of_feed .needMore (by decide) (by rw [feed, dif_neg hlen, dif_neg hzero])]
      exact ⟨hpart, ⟨rfl, hrun⟩, rfl⟩

theorem step_payload {p : FrameParser} (hstate : p.state = .payload) (hchecked : p.Checked)
    (byte : UInt8) : p.StepCases byte := by
  obtain ⟨state, frame, index, crc, framesOk, framesBad, inBounds⟩ := p
  subst hstate
  obtain ⟨hindex, hlen⟩ := inBounds rfl
  have hcrc : crc = (frame.cmd :: frame.len :: frame.payload.toList.take index).foldl
    Crc8.update .new := hchecked
  have hlt : index < 32 := index_lt ⟨.payload, frame, index, crc, framesOk, framesBad, inBounds⟩ rfl
  have htake := take_payload_set frame.payload hlt byte
  have hdata : Frame.data { frame with payload := frame.payload.set index byte hlt } =
    (frame.payload.set index byte hlt).toList.take frame.len.toNat := rfl
  have hpart : FramePart (kFrameHeader :: frame.cmd :: frame.len ::
      frame.payload.toList.take index ++ [byte]) := by
    have hfirst := FramePart.payload
      { frame with payload := frame.payload.set index byte hlt } (index + 1) hlen hindex
    rw [hdata, List.take_take, Nat.min_eq_left (by omega), htake] at hfirst
    exact hfirst
  have hrun : crc.update byte = (frame.cmd :: frame.len ::
      (frame.payload.set index byte hlt).toList.take (index + 1)).foldl Crc8.update .new := by
    rw [htake, hcrc, ← List.cons_append, ← List.cons_append, List.foldl_append]
    rfl
  left
  by_cases hmore : index + 1 < frame.len.toNat
  · rw [receive_of_feed .needMore (by decide) (by unfold feed; dsimp only; rw [dif_pos hmore])]
    refine ⟨hpart, ⟨?_, hrun⟩, rfl⟩
    exact congrArg (fun bytes => kFrameHeader :: frame.cmd :: frame.len :: bytes) htake
  · have hend : frame.len.toNat = index + 1 := by omega
    rw [receive_of_feed .needMore (by decide) (by unfold feed; dsimp only; rw [dif_neg hmore])]
    rw [hend] at hdata
    refine ⟨hpart, ⟨?_, hlen, ?_⟩, rfl⟩
    · exact congrArg (fun bytes => kFrameHeader :: frame.cmd :: frame.len :: bytes)
        (hdata.trans htake)
    · change (crc.update byte).value = Crc8.compute (frame.cmd :: frame.len ::
        Frame.data { frame with payload := frame.payload.set index byte hlt })
      rw [hdata, hrun]
      rfl

theorem step_checksum {p : FrameParser} (hstate : p.state = .checksum) (hchecked : p.Checked)
    (byte : UInt8) : p.StepCases byte := by
  obtain ⟨state, frame, index, crc, framesOk, framesBad, inBounds⟩ := p
  subst hstate
  obtain ⟨hlen, hcrc⟩ : frame.len ≤ kMaxPayload ∧ crc.value = frame.checksum := hchecked
  by_cases hbyte : byte ≠ crc.value
  · right
    rw [receive_of_feed .checksumError (by decide)
      (by unfold feed; dsimp only; rw [if_pos hbyte]; rfl)]
    refine ⟨FrameUnit.badChecksum frame byte hlen ?_, rfl, trivial⟩
    rw [← hcrc]
    exact hbyte
  · left
    rw [receive_of_feed .needMore (by decide) (by rw [feed, if_neg hbyte])]
    have hsame : byte = frame.checksum := (not_not.mp hbyte).trans hcrc
    rw [hsame]
    exact ⟨FramePart.checksum frame hlen, ⟨rfl, hlen⟩, rfl⟩

theorem step_footer {p : FrameParser} (hstate : p.state = .footer) (hchecked : p.Checked)
    (byte : UInt8) : p.StepCases byte := by
  obtain ⟨state, frame, index, crc, framesOk, framesBad, inBounds⟩ := p
  subst hstate
  have hlen : frame.len ≤ kMaxPayload := hchecked
  right
  have hpending : pending ⟨.footer, frame, index, crc, framesOk, framesBad, inBounds⟩ ++ [byte] =
      kFrameHeader :: frame.cmd :: frame.len :: frame.data ++ [frame.checksum, byte] := by
    rw [pending, List.append_assoc]
    rfl
  rw [hpending]
  by_cases hbyte : byte ≠ kFrameFooter
  · rw [receive_of_feed .framingError (by decide)
      (by unfold feed; dsimp only; rw [if_pos hbyte]; rfl)]
    exact ⟨FrameUnit.badFooter frame byte hlen hbyte, rfl, trivial⟩
  · have hreceive : (receive ⟨.footer, frame, index, crc, framesOk, framesBad, inBounds⟩ byte) =
        (⟨.header, frame, 0, crc, framesOk + 1, framesBad, fun h => absurd h (by decide)⟩,
          .complete, some frame.content) := by
      rw [receive, feed, if_neg hbyte]
      rfl
    rw [hreceive, not_not.mp hbyte, ← Frame.wire_eq hlen]
    exact ⟨FrameUnit.frame frame hlen, rfl, trivial⟩

/-- **The parser collects the units of the grammar.** -/
theorem collects : Framing.Collects frameGrammar receive (.needMore, none) Holds where
  step_cases := by
    rintro p _ byte ⟨rfl, hchecked⟩
    cases hstate : p.state with
    | header => exact step_header hstate byte
    | command => exact step_command hstate hchecked byte
    | length => exact step_length hstate hchecked byte
    | payload => exact step_payload hstate hchecked byte
    | checksum => exact step_checksum hstate hchecked byte
    | footer => exact step_footer hstate hchecked byte
  holds_unique := by
    rintro p _ _ ⟨rfl, -⟩ ⟨rfl, -⟩
    rfl

end FrameParser

end Bcm
