import Bcm.DesktopCodec
import Bcm.Proof.FrameStreams

/-!
# One protocol on both ends

The firmware keeps a check register and fills one payload array again and again. The desktop tool
buffers the bytes of the frame and runs the check over them at its end. Both collect the same units
from a stream, so they answer alike at every byte, and count alike.
-/

namespace Bcm

/-! ### The check -/

theorem desktop_compute_eq (data : List UInt8) : Desktop.Crc8.compute data = Crc8.compute data := by
  have hfold : ∀ crc : Crc8,
      data.foldl (fun value b => (List.range 8).foldl (fun value _ => Desktop.Crc8.shift value)
        (value ^^^ b)) crc.value = (data.foldl Crc8.update crc).value := by
    induction data with
    | nil => exact fun _ => rfl
    | cons b data ih => exact fun crc => ih (crc.update b)
  exact hfold .new

/-! ### The units, from the bytes alone -/

namespace Frame

/-- The frame with these bytes at the start of its payload. -/
def ofData (cmd len : UInt8) (data : List UInt8) : Frame :=
  ⟨cmd, len, Vector.ofFn fun i => data.getD i 0⟩

theorem data_ofData (cmd : UInt8) {len : UInt8} {data : List UInt8} (hlen : len ≤ kMaxPayload)
    (hdata : data.length ≤ len.toNat) : (ofData cmd len data).data.take data.length = data := by
  have hle : len.toNat ≤ 32 := UInt8.le_iff_toNat_le.mp hlen
  have hmin : min data.length (ofData cmd len data).len.toNat = data.length := Nat.min_eq_left hdata
  rw [Frame.data, List.take_take, hmin]
  apply List.ext_getElem
  · simp [ofData]
    omega
  · intro i hi hi'
    simp [ofData, hi']

end Frame

theorem framePart_bytes (cmd : UInt8) {len : UInt8} {data : List UInt8} (hlen : len ≤ kMaxPayload)
    (hdata : data.length ≤ len.toNat) : FramePart (kFrameHeader :: cmd :: len :: data) := by
  have hpart := FramePart.payload (.ofData cmd len data) data.length hlen hdata
  rwa [Frame.data_ofData cmd hlen hdata] at hpart

theorem exists_frame (cmd : UInt8) {len : UInt8} {data : List UInt8} (hlen : len ≤ kMaxPayload)
    (hdata : data.length = len.toNat) : ∃ f : Frame, f.cmd = cmd ∧ f.len = len ∧ f.data = data := by
  refine ⟨.ofData cmd len data, rfl, rfl, ?_⟩
  have htake := Frame.data_ofData cmd hlen hdata.le
  have hlength : (Frame.ofData cmd len data).data.length = data.length := by
    rw [Frame.length_data hlen, hdata]
    rfl
  rwa [← hlength, List.take_length] at htake

namespace Desktop.FrameParser

open Bcm.FrameParser (Answer)

/-- The bytes of the unfinished unit a parser stands in. -/
def pending (p : FrameParser) : List UInt8 :=
  match p.state with
  | .header => []
  | .command => [kFrameHeader]
  | .length => [kFrameHeader, p.cmd]
  | .payload => kFrameHeader :: p.cmd :: p.len :: p.payload.take p.index
  | .checksum => kFrameHeader :: p.cmd :: p.len :: p.payload
  | .footer => kFrameHeader :: p.cmd :: p.len :: p.payload ++
      [Bcm.Crc8.compute (p.cmd :: p.len :: p.payload)]

/-- The buffer of the check is the pending bytes after the header. -/
def Buffered (p : FrameParser) : Prop :=
  match p.state with
  | .header => True
  | .command => p.crcInput = []
  | .length => p.crcInput = [p.cmd]
  | .payload => p.len ≤ kMaxPayload ∧ p.crcInput = p.cmd :: p.len :: p.payload.take p.index
  | .checksum => p.len ≤ kMaxPayload ∧ p.payload.length = p.len.toNat ∧
      p.crcInput = p.cmd :: p.len :: p.payload
  | .footer => p.len ≤ kMaxPayload ∧ p.payload.length = p.len.toNat

def Holds (p : FrameParser) (held : List UInt8) : Prop := p.pending = held ∧ p.Buffered

theorem receive_of_feed {p p' : FrameParser} {byte : UInt8} (result : FeedResult)
    (hresult : result ≠ .complete) (h : p.feed byte = (p', result)) :
    p.receive byte = (p', result, none) := by
  rw [receive, h]
  simp [hresult]

def StepCases (p : FrameParser) (byte : UInt8) : Prop :=
  FramePart (p.pending ++ [byte]) ∧ (p.receive byte).1.Holds (p.pending ++ [byte]) ∧
      (p.receive byte).2 = (.needMore, none) ∨
    FrameUnit (p.pending ++ [byte]) (p.receive byte).2 ∧ (p.receive byte).1.Holds []

theorem step_header {p : FrameParser} (hstate : p.state = .header) (byte : UInt8) :
    p.StepCases byte := by
  obtain ⟨state, cmd, len, payload, index, crcInput, frame, framesOk, framesBad, inBounds⟩ := p
  subst hstate
  by_cases hbyte : byte = kFrameHeader
  · left
    rw [receive_of_feed .needMore (by decide) (by rw [feed, if_pos hbyte]), hbyte]
    exact ⟨FramePart.header, ⟨rfl, rfl⟩, rfl⟩
  · right
    rw [receive_of_feed .needMore (by decide) (by rw [feed, if_neg hbyte])]
    exact ⟨FrameUnit.noise byte hbyte, rfl, trivial⟩

theorem step_command {p : FrameParser} (hstate : p.state = .command) (hbuffered : p.Buffered)
    (byte : UInt8) : p.StepCases byte := by
  obtain ⟨state, cmd, len, payload, index, crcInput, frame, framesOk, framesBad, inBounds⟩ := p
  subst hstate
  have hempty : crcInput = [] := hbuffered
  left
  rw [receive_of_feed .needMore (by decide) (by rw [feed])]
  refine ⟨FramePart.command byte, ⟨rfl, ?_⟩, rfl⟩
  exact congrArg (· ++ [byte]) hempty

theorem step_length {p : FrameParser} (hstate : p.state = .length) (hbuffered : p.Buffered)
    (byte : UInt8) : p.StepCases byte := by
  obtain ⟨state, cmd, len, payload, index, crcInput, frame, framesOk, framesBad, inBounds⟩ := p
  subst hstate
  have hcmd : crcInput = [cmd] := hbuffered
  by_cases hlen : kMaxPayload < byte
  · right
    rw [receive_of_feed .overflow (by decide) (by rw [feed, if_pos hlen, fail])]
    exact ⟨FrameUnit.overflow cmd byte hlen, rfl, trivial⟩
  · left
    have hle : byte ≤ kMaxPayload := UInt8.not_lt.mp hlen
    have hpart : FramePart [kFrameHeader, cmd, byte] := framePart_bytes cmd hle (Nat.zero_le _)
    have hbuffer : crcInput ++ [byte] = [cmd, byte] := by rw [hcmd]; rfl
    by_cases hzero : byte = 0
    · rw [receive_of_feed .needMore (by decide) (by rw [feed, if_neg hlen, dif_pos hzero])]
      subst hzero
      exact ⟨hpart, ⟨rfl, hle, rfl, hbuffer⟩, rfl⟩
    · rw [receive_of_feed .needMore (by decide) (by rw [feed, if_neg hlen, dif_neg hzero])]
      exact ⟨hpart, ⟨rfl, hle, hbuffer⟩, rfl⟩

theorem step_payload {p : FrameParser} (hstate : p.state = .payload) (hbuffered : p.Buffered)
    (byte : UInt8) : p.StepCases byte := by
  obtain ⟨state, cmd, len, payload, index, crcInput, frame, framesOk, framesBad, inBounds⟩ := p
  subst hstate
  obtain ⟨hindex, hlength⟩ := inBounds rfl
  obtain ⟨hlen, hbuffer⟩ : len ≤ kMaxPayload ∧ crcInput = cmd :: len :: payload.take index :=
    hbuffered
  have htake : (payload.set index byte).take (index + 1) = payload.take index ++ [byte] := by
    rw [List.take_add_one, List.getElem?_set_self (by omega), List.take_set_of_le (le_refl _)]
    rfl
  have hpart : FramePart (kFrameHeader :: cmd :: len :: payload.take index ++ [byte]) := by
    rw [List.cons_append, List.cons_append, List.cons_append, ← htake]
    refine framePart_bytes cmd hlen ?_
    rw [List.length_take]
    omega
  have hbuffer' : crcInput ++ [byte] =
      cmd :: len :: (payload.set index byte).take (index + 1) := by
    rw [hbuffer, htake]
    rfl
  have hpending : kFrameHeader :: cmd :: len :: (payload.set index byte).take (index + 1) =
      kFrameHeader :: cmd :: len :: payload.take index ++ [byte] := by
    rw [htake]
    rfl
  left
  by_cases hend : len.toNat ≤ index + 1
  · rw [receive_of_feed .needMore (by decide) (by unfold feed; dsimp only; rw [dif_pos hend])]
    have hall : (payload.set index byte).take (index + 1) = payload.set index byte := by
      refine List.take_of_length_le ?_
      rw [List.length_set]
      omega
    rw [hall] at hpending hbuffer'
    exact ⟨hpart, ⟨hpending, hlen, List.length_set.trans hlength, hbuffer'⟩, rfl⟩
  · rw [receive_of_feed .needMore (by decide) (by unfold feed; dsimp only; rw [dif_neg hend])]
    exact ⟨hpart, ⟨hpending, hlen, hbuffer'⟩, rfl⟩

theorem step_checksum {p : FrameParser} (hstate : p.state = .checksum) (hbuffered : p.Buffered)
    (byte : UInt8) : p.StepCases byte := by
  obtain ⟨state, cmd, len, payload, index, crcInput, frame, framesOk, framesBad, inBounds⟩ := p
  subst hstate
  obtain ⟨hlen, hlength, rfl⟩ : len ≤ kMaxPayload ∧ payload.length = len.toNat ∧
    crcInput = cmd :: len :: payload := hbuffered
  obtain ⟨f, rfl, rfl, rfl⟩ := exists_frame cmd hlen hlength
  have hcheck : Desktop.Crc8.compute (f.cmd :: f.len :: f.data) = f.checksum :=
    desktop_compute_eq _
  by_cases hbyte : byte ≠ f.checksum
  · right
    rw [receive_of_feed .checksumError (by decide)
      (by unfold feed; dsimp only; rw [hcheck, if_pos hbyte]; rfl)]
    exact ⟨FrameUnit.badChecksum f byte hlen hbyte, rfl, trivial⟩
  · left
    rw [receive_of_feed .needMore (by decide)
      (by unfold feed; dsimp only; rw [hcheck, if_neg hbyte])]
    rw [not_not.mp hbyte]
    exact ⟨FramePart.checksum f hlen, ⟨rfl, hlen, hlength⟩, rfl⟩

theorem step_footer {p : FrameParser} (hstate : p.state = .footer) (hbuffered : p.Buffered)
    (byte : UInt8) : p.StepCases byte := by
  obtain ⟨state, cmd, len, payload, index, crcInput, frame, framesOk, framesBad, inBounds⟩ := p
  subst hstate
  obtain ⟨hlen, hlength⟩ : len ≤ kMaxPayload ∧ payload.length = len.toNat := hbuffered
  obtain ⟨f, rfl, rfl, rfl⟩ := exists_frame cmd hlen hlength
  right
  have hpending : pending ⟨.footer, f.cmd, f.len, f.data, index, crcInput, frame, framesOk,
      framesBad, inBounds⟩ ++ [byte] =
        kFrameHeader :: f.cmd :: f.len :: f.data ++ [f.checksum, byte] := by
    rw [pending, List.append_assoc]
    rfl
  rw [hpending]
  by_cases hbyte : byte ≠ kFrameFooter
  · rw [receive_of_feed .framingError (by decide)
      (by unfold feed; dsimp only; rw [if_pos hbyte]; rfl)]
    exact ⟨FrameUnit.badFooter f byte hlen hbyte, rfl, trivial⟩
  · have hcontent : Frame.content ⟨f.cmd, f.data⟩ = f.content := by
      rw [Frame.content, hlength, UInt8.ofNat_toNat]
      rfl
    have hreceive : receive ⟨.footer, f.cmd, f.len, f.data, index, crcInput, frame, framesOk,
        framesBad, inBounds⟩ byte =
          (⟨.header, f.cmd, f.len, f.data, 0, [], some ⟨f.cmd, f.data⟩, framesOk + 1, framesBad,
            fun h => absurd h (by decide)⟩, .complete, some f.content) := by
      rw [receive, feed, if_neg hbyte, ← hcontent]
      rfl
    rw [hreceive, not_not.mp hbyte, ← Frame.wire_eq hlen]
    exact ⟨FrameUnit.frame f hlen, rfl, trivial⟩

/-- **The desktop parser collects the units of the same grammar.** -/
theorem collects : Framing.Collects frameGrammar receive (.needMore, none) Holds where
  step_cases := by
    rintro p _ byte ⟨rfl, hbuffered⟩
    cases hstate : p.state with
    | header => exact step_header hstate byte
    | command => exact step_command hstate hbuffered byte
    | length => exact step_length hstate hbuffered byte
    | payload => exact step_payload hstate hbuffered byte
    | checksum => exact step_checksum hstate hbuffered byte
    | footer => exact step_footer hstate hbuffered byte
  holds_unique := by
    rintro p _ _ ⟨rfl, -⟩ ⟨rfl, -⟩
    rfl

/-! ### The counters -/

theorem feed_counts (p : FrameParser) (byte : UInt8) :
    (p.feed byte).1.framesBad =
        (if Bcm.FrameParser.rejects (p.feed byte).2 then p.framesBad + 1 else p.framesBad) ∧
      (p.feed byte).1.framesOk =
        (if (p.feed byte).2 = .complete then p.framesOk + 1 else p.framesOk) := by
  unfold feed
  split
  · split <;> exact ⟨rfl, rfl⟩
  · exact ⟨rfl, rfl⟩
  · split
    · exact ⟨rfl, rfl⟩
    · split <;> exact ⟨rfl, rfl⟩
  · split <;> exact ⟨rfl, rfl⟩
  · split <;> exact ⟨rfl, rfl⟩
  · split <;> exact ⟨rfl, rfl⟩

theorem counts_eq {p : FrameParser} {q : Bcm.FrameParser} {bytes : List UInt8}
    (hanswers : p.answers bytes = q.answers bytes) (hok : p.framesOk = q.framesOk)
    (hbad : p.framesBad = q.framesBad) :
    (p.after bytes).framesOk = (q.after bytes).framesOk ∧
      (p.after bytes).framesBad = (q.after bytes).framesBad := by
  induction bytes generalizing p q with
  | nil => exact ⟨hok, hbad⟩
  | cons byte bytes ih =>
      rw [answers, Bcm.FrameParser.answers, Transducer.outputs_cons, Transducer.outputs_cons,
        List.cons.injEq] at hanswers
      obtain ⟨hfirst, hrest⟩ := hanswers
      have hresult : (p.feed byte).2 = (q.feed byte).2 := congrArg Prod.fst hfirst
      refine ih hrest ?_ ?_
      · change (p.feed byte).1.framesOk = (q.feed byte).1.framesOk
        rw [(feed_counts ..).2, (Bcm.FrameParser.feed_counts ..).2, hresult, hok]
      · change (p.feed byte).1.framesBad = (q.feed byte).1.framesBad
        rw [(feed_counts ..).1, (Bcm.FrameParser.feed_counts ..).1, hresult, hbad]

end Desktop.FrameParser

namespace Desktop

/-! ### The encoders -/

/-- A firmware frame with this command and this payload. -/
structure Carries (f : Bcm.Frame) (cmd : UInt8) (payload : List UInt8) : Prop where
  cmd : f.cmd = cmd
  len : f.len.toNat = payload.length
  data : f.data = payload

theorem exists_carries (cmd : UInt8) {payload : List UInt8}
    (h : payload.length ≤ kMaxPayload.toNat) : ∃ f, Carries f cmd payload := by
  have hsmall : payload.length < 256 := Nat.lt_of_le_of_lt h (by decide)
  have hlen : (UInt8.ofNat payload.length).toNat = payload.length :=
    UInt8.toNat_ofNat_of_lt' hsmall
  have hle : UInt8.ofNat payload.length ≤ kMaxPayload := by
    rw [UInt8.le_iff_toNat_le, hlen]
    exact h
  obtain ⟨f, hcmd, hflen, hdata⟩ := exists_frame cmd hle hlen.symm
  exact ⟨f, hcmd, by rw [hflen, hlen], hdata⟩

theorem encode_of_carries {f : Bcm.Frame} {cmd : UInt8} {payload : List UInt8}
    (hf : Carries f cmd payload) (h : payload.length ≤ kMaxPayload.toNat) {outSize : Nat}
    (hsize : f.encodedSize ≤ outSize) : f.encode true outSize = encode cmd payload := by
  obtain ⟨rfl, hlen, rfl⟩ := hf
  have hle : f.len ≤ kMaxPayload := by
    rw [UInt8.le_iff_toNat_le, hlen]
    exact h
  have hofNat : UInt8.ofNat f.data.length = f.len := by rw [← hlen, UInt8.ofNat_toNat]
  rw [Bcm.Frame.encode_eq f hle hsize, encode, if_neg (Nat.not_lt.mpr h), hofNat]
  dsimp only
  have hchecked : ((kFrameHeader :: f.cmd :: f.len :: f.data).drop 1).take (f.data.length + 2) =
      f.cmd :: f.len :: f.data := by
    simp
  rw [hchecked, desktop_compute_eq]
  rfl

/-- Longer payloads are refused, by the desktop tool as they are and by the firmware as any frame
that claims their length. -/
theorem encode_of_long (cmd : UInt8) {payload : List UInt8}
    (h : kMaxPayload.toNat < payload.length) :
    encode cmd payload = none ∧
      ∀ (f : Bcm.Frame) (out : Bool) (outSize : Nat), f.len.toNat = payload.length →
        f.encode out outSize = none := by
  refine ⟨by rw [encode, if_pos h], fun f out outSize hlen => ?_⟩
  by_contra hsome
  have hle := ((f.encode_isSome_iff out outSize).mp (Option.isSome_iff_ne_none.mpr hsome)).2.1
  have hbound := UInt8.le_iff_toNat_le.mp hle
  omega

/-- **The two codecs are one protocol.** From the start, the parsers answer every byte of every
stream alike and count alike. The encoders produce the same bytes for every command and payload that
fits, and both refuse the rest. -/
theorem same_protocol :
    (∀ bytes : List UInt8,
      FrameParser.new.answers bytes = Bcm.FrameParser.new.answers bytes ∧
        (FrameParser.new.after bytes).framesOk = (Bcm.FrameParser.new.after bytes).framesOk ∧
        (FrameParser.new.after bytes).framesBad = (Bcm.FrameParser.new.after bytes).framesBad) ∧
      (∀ (cmd : UInt8) (payload : List UInt8), payload.length ≤ kMaxPayload.toNat →
        (encode cmd payload).isSome ∧ (∃ f, Carries f cmd payload) ∧
          ∀ f outSize, Carries f cmd payload → f.encodedSize ≤ outSize →
            f.encode true outSize = encode cmd payload) ∧
      (∀ (cmd : UInt8) (payload : List UInt8), kMaxPayload.toNat < payload.length →
        encode cmd payload = none ∧
          ∀ (f : Bcm.Frame) (out : Bool) (outSize : Nat), f.len.toNat = payload.length →
            f.encode out outSize = none) := by
  refine ⟨fun bytes => ?_, fun cmd payload h => ?_, fun cmd payload h => encode_of_long cmd h⟩
  · have hfresh : FrameParser.new.Holds [] := ⟨rfl, trivial⟩
    have hfirmware : Bcm.FrameParser.new.Holds [] := ⟨rfl, trivial⟩
    have hanswers : FrameParser.new.answers bytes = Bcm.FrameParser.new.answers bytes :=
      FrameParser.collects.outputs_eq Bcm.FrameParser.collects hfresh hfirmware bytes
    exact ⟨hanswers, FrameParser.counts_eq hanswers rfl rfl⟩
  · refine ⟨?_, exists_carries cmd h, fun f outSize hf hsize => encode_of_carries hf h hsize⟩
    rw [encode, if_neg (Nat.not_lt.mpr h)]
    rfl

end Desktop

end Bcm
