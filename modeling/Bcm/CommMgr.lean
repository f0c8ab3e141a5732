import Bcm.Dispatcher
import Bcm.Drivers
import Bcm.FrameCodec

/-!
# The communication manager

Transport → parser → dispatcher → reply, and the supervision of the link (`comm_mgr.h`,
`comm_mgr.cpp`). What the transport holds for one poll is a list of bytes, and `write` is whatever
it does with the bytes of a reply. `none` stands for a handler that leaves the bounds of a payload
array.
-/

namespace Bcm

/-- The manager, with the dispatcher and the transport it refers to. -/
structure CommMgr (C T : Type) where
  transport : T
  dispatcher : Dispatcher
  context : C
  parser : FrameParser
  linkTimer : SoftTimer
  timeoutMs : Nat
  txFailures : UInt32
  linkLost : Bool

namespace CommMgr

def kDefaultTimeoutMs : Nat := 2000

section

variable {C T : Type}

def new (transport : T) (dispatcher : Dispatcher) (context : C)
    (timeoutMs : Nat := kDefaultTimeoutMs) : CommMgr C T where
  transport := transport
  dispatcher := dispatcher
  context := context
  parser := .new
  linkTimer := SoftTimer.new.start timeoutMs
  timeoutMs := timeoutMs
  txFailures := 0
  linkLost := false

variable (write : List UInt8 → T → Bool × T) (table : List (CommandEntry C))

def send (m : CommMgr C T) (frame : Frame) : Bool × CommMgr C T :=
  match frame.encode true kMaxFrameSize with
  | none => (false, { m with txFailures := m.txFailures + 1 })
  | some bytes =>
      let (accepted, transport) := write bytes m.transport
      if !accepted then
        (false, { m with transport := transport, txFailures := m.txFailures + 1 })
      else (true, { m with transport := transport })

/-- A valid frame: it proves the host alive, whatever it asks for, and is answered. -/
def serve (m : CommMgr C T) : Option (CommMgr C T) := do
  let m := { m with linkTimer := m.linkTimer.start m.timeoutMs, linkLost := false }
  let (reply, response, dispatcher, context) ←
    m.dispatcher.dispatch table m.parser.frame .new m.context
  let m := { m with dispatcher := dispatcher, context := context }
  return if reply then (m.send write response).2 else m

/-- One pass of the loop of `poll`, with the number of frames handled so far. -/
def receive : UInt8 × CommMgr C T → UInt8 → Option (UInt8 × CommMgr C T)
  | (handled, m), byte => do
      let (parser, result) := m.parser.feed byte
      let m := { m with parser := parser }
      if result ≠ .complete then return (handled, m)
      else return (handled + 1, ← m.serve write table)

/-- The timer is advanced only while the loss is not latched. -/
def superviseLink (dtMs : Nat) (m : CommMgr C T) : CommMgr C T :=
  if m.linkLost then m
  else
    let (expired, linkTimer) := m.linkTimer.update dtMs
    { m with linkTimer := linkTimer, linkLost := expired }

/-- `poll(dt_ms, budget)`, with the bytes the transport has pending. Those past the budget stay
there. -/
def poll (dtMs budget : Nat) (pending : List UInt8) (m : CommMgr C T) :
    Option (UInt8 × CommMgr C T) := do
  let (handled, m) ← (pending.take budget).foldlM (receive write table) (0, m)
  return (handled, m.superviseLink dtMs)

/-- One call of `poll`, with what the transport then has pending. -/
structure Poll where
  dtMs : Nat
  budget : Nat
  pending : List UInt8

/-- The bytes the call consumes. -/
def Poll.bytes (p : Poll) : List UInt8 := p.pending.take p.budget

def polls (m : CommMgr C T) (ps : List Poll) : Option (CommMgr C T) :=
  ps.foldlM (fun m p => (·.2) <$> m.poll write table p.dtMs p.budget p.pending) m

end

end CommMgr

end Bcm
