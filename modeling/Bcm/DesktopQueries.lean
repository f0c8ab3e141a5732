import Bcm.Commands
import Bcm.DesktopClient

/-!
# The queries of the desktop tool

What the desktop reads from a response (`Frame.cs`) and the helpers that ask for the state of the
BCM (`BcmClient.cs`). A helper gets what `RequestAsync` returned, with `none` for null. The lengths
it checks keep every access inside the payload.
-/

namespace Bcm.Desktop

namespace Frame

def isResponse (f : Frame) : Bool := decide (f.cmd &&& kResponseFlag ≠ 0)

def status (f : Frame) : UInt8 :=
  if h : 0 < f.payload.length then f.payload[0] else Status.badLength.toUInt8

def ok (f : Frame) : Bool :=
  f.isResponse && decide (0 < f.payload.length) && decide (f.status = Status.ok.toUInt8)

/-- Big-endian. -/
def readUInt16 (f : Frame) (offset : Nat) (h : offset + 1 < f.payload.length) : BitVec 16 :=
  (f.payload[offset].toBitVec.setWidth 16 <<< 8) ||| f.payload[offset + 1].toBitVec.setWidth 16

end Frame

namespace FrameParser

/-- The frames that `ReadLoop` takes from the parser, each as `Frame` stands right after. -/
def frames (p : FrameParser) : List UInt8 → List Frame
  | [] => []
  | byte :: bytes =>
      let (p', result) := p.feed byte
      if result ≠ .complete then p'.frames bytes else p'.frame.toList ++ p'.frames bytes

end FrameParser

/-- `RequestAsync` for a command, where these frames arrive before its deadline. -/
def requestAsync (cmd : Cmd) (arrived : List Frame) : Option Frame :=
  (arrived.filter fun f => decide (f.cmd ≠ logEventCmd)).find? fun f =>
    decide (f.cmd = cmd.toUInt8 ||| kResponseFlag)

structure BcmStatus where
  lampBitmap : BitVec 16
  switchBitmap : UInt8
  power : UInt8
  deriving DecidableEq, Repr

def getStatusAsync : Option Frame → Option BcmStatus
  | none => none
  | some r =>
      if !r.ok then none
      else if h : r.payload.length < 5 then none
      else some ⟨r.readUInt16 1 (by omega), r.payload[3], r.payload[4]⟩

def getBatteryAsync : Option Frame → Option (BitVec 16)
  | none => none
  | some r =>
      if !r.ok then none
      else if h : r.payload.length < 3 then none
      else some (r.readUInt16 1 (by omega))

def getDtcsAsync : Option Frame → List Dtc
  | none => []
  | some r =>
      if !r.ok then []
      else if h : r.payload.length < 2 then []
      else
        let count := min r.payload[1].toNat (r.payload.length - 2)
        List.ofFn (n := count) fun i => r.payload[2 + i.val]

end Bcm.Desktop

namespace Bcm

/-- One query over a link that loses nothing: the request dispatched, the reply encoded and written,
and what the desktop then takes from its port. -/
def query (cmd : Cmd) (request : Frame) (d : Dispatcher) (context : Option CommandContext)
    (p : Desktop.FrameParser) : Option Desktop.Frame := do
  let (reply, response, _, _) ←
    d.dispatch Commands.commandTable { request with cmd := cmd.toUInt8 } .new context
  let bytes ← if reply then response.encode true kMaxFrameSize else none
  Desktop.requestAsync cmd (p.frames bytes)

end Bcm
