import Bcm.DesktopCodec

/-!
# The client of the desktop tool

`RequestAsync` and `ReadLoop` of `BcmClient` (`BcmClient.cs`) between a `Connect` and the
`Disconnect`, with the link and the BCM at its other end. The request lock lets one call wait at a
time, so that the calls are numbered in the order in which they take it. The link carries whole
frames in order, and loses any of them.

A frame does not say which request it answers. The number is kept beside it here, and nothing the
client does reads it.
-/

namespace Bcm.Desktop

/-- `Cmd.LogEvent`, as the BCM sends it. -/
def logEventCmd : UInt8 := 0x0D ||| kResponseFlag

/-- A frame from the BCM, with the call it answers, or `none` for an unsolicited one. -/
structure Reply where
  frame : Frame
  answers : Option Nat
  deriving DecidableEq, Repr

/-- The frame a call has sent. -/
structure Request where
  call : Nat
  frame : Frame
  deriving DecidableEq, Repr

/-- The BCM's answer, with whatever payload the command comes to. The dispatcher drops what has the
response flag. -/
def Request.reply (r : Request) (payload : List UInt8) : Option Reply :=
  if r.frame.cmd &&& kResponseFlag ≠ 0 then none
  else some ⟨⟨r.frame.cmd ||| kResponseFlag, payload⟩, some r.call⟩

/-- `awaiting` is the call that holds the lock, with its `expected`. `returned` collects what the
calls gave back other than null. -/
structure BcmClient where
  calls : Nat
  awaiting : Option (Nat × UInt8)
  responses : List Reply
  returned : List (Nat × Reply)
  deriving DecidableEq, Repr

namespace BcmClient

def new : BcmClient := ⟨0, none, [], []⟩

/-- `RequestAsync` up to its loop. A payload that is too long makes the encoder throw, and the call
returns null. -/
def requestAsync (c : BcmClient) (cmd : UInt8) (payload : List UInt8) :
    BcmClient × Option Request :=
  match encode cmd payload with
  | none => ({ c with calls := c.calls + 1 }, none)
  | some _ =>
      ({ c with calls := c.calls + 1, awaiting := some (c.calls, cmd ||| kResponseFlag) },
        some ⟨c.calls, ⟨cmd, payload⟩⟩)

/-- One pass of its loop that finds a response. -/
def tryTake (c : BcmClient) : BcmClient :=
  match c.awaiting, c.responses with
  | some (call, expected), candidate :: rest =>
      if candidate.frame.cmd = expected then
        { c with
          awaiting := none
          responses := rest
          returned := c.returned ++ [(call, candidate)] }
      else { c with responses := rest }
  | _, _ => c

/-- The deadline passes, or the port throws, and the call returns null. -/
def timeOut (c : BcmClient) : BcmClient := { c with awaiting := none }

/-- What `ReadLoop` does with a complete frame. A `LOG_EVENT` goes to `DispatchEvent`. -/
def readFrame (c : BcmClient) (reply : Reply) : BcmClient :=
  if reply.frame.cmd = logEventCmd then c else { c with responses := c.responses ++ [reply] }

end BcmClient

/-- The client, and what is under way in either direction. -/
structure Session where
  client : BcmClient
  outbound : List Request
  inbound : List Reply
  deriving DecidableEq, Repr

inductive Action where
  | requestAsync (cmd : UInt8) (payload : List UInt8)
  | tryTake
  | timeOut
  | loseRequest (i : Nat)
  | serve (payload : List UInt8)
  | logEvent (payload : List UInt8)
  | loseFrame (i : Nat)
  | deliver
  deriving DecidableEq, Repr

namespace Session

def new : Session := ⟨.new, [], []⟩

def exec (s : Session) : Action → Session
  | .requestAsync cmd payload =>
      -- a second caller waits for the lock
      if s.client.awaiting.isSome then s
      else
        let (client, request) := s.client.requestAsync cmd payload
        { s with client := client, outbound := s.outbound ++ request.toList }
  | .tryTake => { s with client := s.client.tryTake }
  | .timeOut => { s with client := s.client.timeOut }
  | .loseRequest i => { s with outbound := s.outbound.eraseIdx i }
  | .serve payload =>
      match s.outbound with
      | [] => s
      | request :: rest =>
          { s with outbound := rest, inbound := s.inbound ++ (request.reply payload).toList }
  | .logEvent payload => { s with inbound := s.inbound ++ [⟨⟨logEventCmd, payload⟩, none⟩] }
  | .loseFrame i => { s with inbound := s.inbound.eraseIdx i }
  | .deliver =>
      match s.inbound with
      | [] => s
      | reply :: rest => { s with client := s.client.readFrame reply, inbound := rest }

end Session

end Bcm.Desktop
