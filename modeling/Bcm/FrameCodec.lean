import Bcm.Crc8
import Bcm.Lib.Transducer
import Bcm.Protocol

/-!
# Frame encoding and parsing

`FrameCodec::encode` and the byte-at-a-time `FrameParser` (`frame_codec.h`, `frame_codec.cpp`). The
parser writes the payload array at a running index, which is below `len`, and so below 32, whenever
it is in the payload state: that is a field of the parser here.
-/

namespace Bcm

namespace Frame

def encodedSize (f : Frame) : Nat := f.len.toNat + kFrameOverhead

/-- The loop over the payload: each byte goes out and into the check. -/
def encodePayload (bytes : List UInt8) (out : List UInt8 × Crc8) : List UInt8 × Crc8 :=
  bytes.foldl (fun (out, crc) byte => (out ++ [byte], crc.update byte)) out

/-- `FrameCodec::encode`. `out` tells whether the buffer pointer is non-null; the result is the
bytes written, and `none` where the source returns false. -/
def encode (f : Frame) (out : Bool) (outSize : Nat) : Option (List UInt8) :=
  if !out then none
  else if kMaxPayload < f.len then none
  else if outSize < f.encodedSize then none
  else
    let crc := (Crc8.new.update f.cmd).update f.len
    let (bytes, crc) := encodePayload f.data ([kFrameHeader, f.cmd, f.len], crc)
    some (bytes ++ [crc.value, kFrameFooter])

/-- The bytes of a frame on the wire: what `encode` leaves in a buffer of the largest size. -/
def wire (f : Frame) : List UInt8 := (f.encode true kMaxFrameSize).getD []

def checksum (f : Frame) : UInt8 := Crc8.compute (f.cmd :: f.len :: f.data)

theorem encodePayload_eq (bytes out : List UInt8) (crc : Crc8) :
    encodePayload bytes (out, crc) = (out ++ bytes, bytes.foldl Crc8.update crc) := by
  induction bytes generalizing out crc with
  | nil => rw [List.append_nil]; rfl
  | cons byte bytes ih =>
      have hstep : encodePayload (byte :: bytes) (out, crc) =
          encodePayload bytes (out ++ [byte], crc.update byte) := rfl
      rw [hstep, ih, List.append_assoc, List.foldl_cons]
      rfl

theorem encode_eq (f : Frame) {outSize : Nat} (hlen : f.len ≤ kMaxPayload)
    (hsize : f.encodedSize ≤ outSize) :
    f.encode true outSize =
      some (kFrameHeader :: f.cmd :: f.len :: f.data ++ [f.checksum, kFrameFooter]) := by
  have hpayload := UInt8.not_lt.mpr hlen
  have hroom := Nat.not_lt.mpr hsize
  unfold encode
  rw [Bool.not_true, if_neg (by decide), if_neg hpayload, if_neg hroom]
  dsimp only
  rw [encodePayload_eq, checksum, Crc8.compute, List.foldl_cons, List.foldl_cons]
  simp only [List.cons_append, List.nil_append]

theorem encode_isSome_iff (f : Frame) (out : Bool) (outSize : Nat) :
    (f.encode out outSize).isSome ↔
      out = true ∧ f.len ≤ kMaxPayload ∧ f.len.toNat + 5 ≤ outSize := by
  constructor
  · intro hsome
    unfold encode at hsome
    cases out with
    | false => simp at hsome
    | true =>
        by_cases hlen : kMaxPayload < f.len
        · simp [hlen] at hsome
        · by_cases hsize : outSize < f.encodedSize
          · simp [hsize] at hsome
          · exact ⟨rfl, UInt8.not_lt.mp hlen, Nat.not_lt.mp hsize⟩
  · rintro ⟨rfl, hlen, hsize⟩
    rw [f.encode_eq hlen hsize]
    rfl

theorem wire_eq {f : Frame} (hlen : f.len ≤ kMaxPayload) :
    f.wire = kFrameHeader :: f.cmd :: f.len :: f.data ++ [f.checksum, kFrameFooter] := by
  have hsize : f.encodedSize ≤ kMaxFrameSize :=
    Nat.add_le_add_right (UInt8.le_iff_toNat_le.mp hlen) kFrameOverhead
  rw [wire, f.encode_eq hlen hsize, Option.getD_some]

theorem length_wire {f : Frame} (hlen : f.len ≤ kMaxPayload) :
    f.wire.length = f.len.toNat + 5 := by
  rw [wire_eq hlen]
  simp [length_data hlen]

theorem wire_eq_of_content_eq {f g : Frame} (hf : f.len ≤ kMaxPayload)
    (heq : f.content = g.content) : f.wire = g.wire := by
  simp only [content, Prod.mk.injEq] at heq
  obtain ⟨hcmd, hlen, hdata⟩ := heq
  rw [wire_eq hf, wire_eq (hlen ▸ hf), checksum, checksum, hcmd, hlen, hdata]

end Frame

inductive FeedResult where
  | needMore
  | complete
  | checksumError
  | framingError
  | overflow
  deriving DecidableEq, Repr

inductive ParserState where
  | header
  | command
  | length
  | payload
  | checksum
  | footer
  deriving DecidableEq, Repr

structure FrameParser where
  state : ParserState
  frame : Frame
  index : Nat
  crc : Crc8
  framesOk : UInt32
  framesBad : UInt32
  inBounds : state = .payload → index < frame.len.toNat ∧ frame.len ≤ kMaxPayload

namespace FrameParser

def new : FrameParser := ⟨.header, .new, 0, .new, 0, 0, nofun⟩

def reset (p : FrameParser) : FrameParser :=
  { p with state := .header, index := 0, crc := .new, inBounds := nofun }

def fail (p : FrameParser) (why : FeedResult) : FrameParser × FeedResult :=
  ({ p with framesBad := p.framesBad + 1 }.reset, why)

theorem index_lt (p : FrameParser) (h : p.state = .payload) : p.index < 32 := by
  obtain ⟨hindex, hlen⟩ := p.inBounds h
  have hle : p.frame.len.toNat ≤ 32 := UInt8.le_iff_toNat_le.mp hlen
  omega

def feed (p : FrameParser) (byte : UInt8) : FrameParser × FeedResult :=
  match hstate : p.state with
  | .header =>
      if byte = kFrameHeader then
        ({ p with
            crc := .new
            frame := { p.frame with cmd := 0, len := 0 }
            index := 0
            state := .command
            inBounds := nofun }, .needMore)
      else (p, .needMore)
  | .command =>
      ({ p with
          frame := { p.frame with cmd := byte }
          crc := p.crc.update byte
          state := .length
          inBounds := nofun }, .needMore)
  | .length =>
      if hlen : kMaxPayload < byte then p.fail .overflow
      else if hzero : byte = 0 then
        ({ p with
            frame := { p.frame with len := byte }
            crc := p.crc.update byte
            index := 0
            state := .checksum
            inBounds := nofun }, .needMore)
      else
        ({ p with
            frame := { p.frame with len := byte }
            crc := p.crc.update byte
            index := 0
            state := .payload
            inBounds := fun _ => ⟨UInt8.pos_iff_ne_zero.mpr hzero, UInt8.not_lt.mp hlen⟩ },
          .needMore)
  | .payload =>
      let frame := { p.frame with payload := p.frame.payload.set p.index byte (p.index_lt hstate) }
      if hmore : p.index + 1 < frame.len.toNat then
        ({ p with
            frame := frame
            crc := p.crc.update byte
            index := p.index + 1
            inBounds := fun _ => ⟨hmore, (p.inBounds hstate).2⟩ }, .needMore)
      else
        ({ p with
            frame := frame
            crc := p.crc.update byte
            index := p.index + 1
            state := .checksum
            inBounds := nofun }, .needMore)
  | .checksum =>
      if byte ≠ p.crc.value then p.fail .checksumError
      else ({ p with state := .footer, inBounds := nofun }, .needMore)
  | .footer =>
      if byte ≠ kFrameFooter then p.fail .framingError
      else
        ({ p with
            framesOk := p.framesOk + 1
            state := .header
            index := 0
            inBounds := nofun }, .complete)

/-- What a caller sees after a byte: the result, and right after Complete what `frame()` says. -/
abbrev Answer : Type := FeedResult × Option FrameContent

def receive (p : FrameParser) (byte : UInt8) : FrameParser × Answer :=
  let (p', result) := p.feed byte
  (p', result, if result = .complete then some p'.frame.content else none)

def answers (p : FrameParser) (bytes : List UInt8) : List Answer :=
  Transducer.outputs receive p bytes

def after (p : FrameParser) (bytes : List UInt8) : FrameParser :=
  Transducer.final receive p bytes

end FrameParser

end Bcm
