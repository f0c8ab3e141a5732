import Bcm.FrameCodec

/-!
# The codec of the desktop tool

`Crc8`, `FrameCodec` and `FrameParser` of the C# diagnostic tool (`Crc8.cs`, `FrameCodec.cs`),
written against the interface document and not ported from the firmware. The encoder takes a command
and a payload of any length, and the parser buffers what the check runs over.

The results and the states of the parser carry the same names as the firmware's, and are the same
types here. So are the protocol constants, which have the same values.
-/

namespace Bcm.Desktop

namespace Crc8

def polynomial : UInt8 := 0x07

def initial : UInt8 := 0x00

/-- The body of the inner loop. -/
def shift (crc : UInt8) : UInt8 :=
  if crc &&& 0x80 ≠ 0 then (crc <<< 1) ^^^ polynomial else crc <<< 1

def compute (data : List UInt8) : UInt8 :=
  data.foldl (fun crc b => (List.range 8).foldl (fun crc _ => shift crc) (crc ^^^ b)) initial

end Crc8

/-- `FrameCodec.Encode`, with `none` for its exception. -/
def encode (cmd : UInt8) (payload : List UInt8) : Option (List UInt8) :=
  if kMaxPayload.toNat < payload.length then none
  else
    let frame := kFrameHeader :: cmd :: UInt8.ofNat payload.length :: payload
    -- the check covers what stands between the header and itself
    let crc := Crc8.compute ((frame.drop 1).take (payload.length + 2))
    some (frame ++ [crc, kFrameFooter])

structure Frame where
  cmd : UInt8
  payload : List UInt8
  deriving DecidableEq, Repr

/-- What a frame says. The firmware's frame has its length beside the payload. -/
def Frame.content (f : Frame) : FrameContent := (f.cmd, UInt8.ofNat f.payload.length, f.payload)

structure FrameParser where
  state : ParserState
  cmd : UInt8
  len : UInt8
  payload : List UInt8
  index : Nat
  crcInput : List UInt8
  frame : Option Frame
  framesOk : UInt32
  framesBad : UInt32
  inBounds : state = .payload → index < len.toNat ∧ payload.length = len.toNat

namespace FrameParser

def new : FrameParser := ⟨.header, 0, 0, [], 0, [], none, 0, 0, nofun⟩

def reset (p : FrameParser) : FrameParser :=
  { p with state := .header, index := 0, crcInput := [], inBounds := nofun }

def fail (p : FrameParser) (why : FeedResult) : FrameParser × FeedResult :=
  ({ p with framesBad := p.framesBad + 1 }.reset, why)

def feed (p : FrameParser) (b : UInt8) : FrameParser × FeedResult :=
  match hstate : p.state with
  | .header =>
      if b = kFrameHeader then
        ({ p with crcInput := [], index := 0, state := .command, inBounds := nofun }, .needMore)
      else (p, .needMore)
  | .command =>
      ({ p with cmd := b, crcInput := p.crcInput ++ [b], state := .length, inBounds := nofun },
        .needMore)
  | .length =>
      if kMaxPayload < b then p.fail .overflow
      else if hzero : b = 0 then
        ({ p with
            len := b
            crcInput := p.crcInput ++ [b]
            payload := List.replicate b.toNat 0
            index := 0
            state := .checksum
            inBounds := nofun }, .needMore)
      else
        ({ p with
            len := b
            crcInput := p.crcInput ++ [b]
            payload := List.replicate b.toNat 0
            index := 0
            state := .payload
            inBounds := fun _ => ⟨UInt8.pos_iff_ne_zero.mpr hzero, List.length_replicate⟩ },
          .needMore)
  | .payload =>
      if hend : p.len.toNat ≤ p.index + 1 then
        ({ p with
            payload := p.payload.set p.index b
            index := p.index + 1
            crcInput := p.crcInput ++ [b]
            state := .checksum
            inBounds := nofun }, .needMore)
      else
        ({ p with
            payload := p.payload.set p.index b
            index := p.index + 1
            crcInput := p.crcInput ++ [b]
            inBounds := fun _ => ⟨Nat.lt_of_not_le hend,
              List.length_set.trans (p.inBounds hstate).2⟩ }, .needMore)
  | .checksum =>
      if b ≠ Crc8.compute p.crcInput then p.fail .checksumError
      else ({ p with state := .footer, inBounds := nofun }, .needMore)
  | .footer =>
      if b ≠ kFrameFooter then p.fail .framingError
      else
        ({ p with frame := some ⟨p.cmd, p.payload⟩, framesOk := p.framesOk + 1 }.reset, .complete)

def receive (p : FrameParser) (b : UInt8) : FrameParser × Bcm.FrameParser.Answer :=
  let (p', result) := p.feed b
  (p', result, if result = .complete then p'.frame.map Frame.content else none)

def answers (p : FrameParser) (bytes : List UInt8) : List Bcm.FrameParser.Answer :=
  Transducer.outputs receive p bytes

def after (p : FrameParser) (bytes : List UInt8) : FrameParser :=
  Transducer.final receive p bytes

end FrameParser

end Bcm.Desktop
