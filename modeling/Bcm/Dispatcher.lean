import Bcm.Protocol

/-!
# Command dispatch

The table-driven dispatcher (`dispatcher.h`, `dispatcher.cpp`). The table is constant, and the
handlers' context is passed through, so that a dispatcher is its two counters.
-/

namespace Bcm

/-- A handler reads the request, fills in the response and acts on the context. Its result is
whether to reply, and `none` stands for an access past the end of a payload array. -/
abbrev CommandHandler (C : Type) : Type := Frame → Frame → C → Option (Bool × Frame × C)

/-- A row of the table. `handler` is `none` for a null pointer. -/
structure CommandEntry (C : Type) where
  cmd : UInt8
  handler : Option (CommandHandler C)
  minPayload : UInt8

structure Dispatcher where
  handled : UInt32
  rejected : UInt32
  deriving DecidableEq, Repr

namespace Dispatcher

variable {C : Type}

def new : Dispatcher := ⟨0, 0⟩

def find (table : List (CommandEntry C)) (cmd : UInt8) : Option (CommandEntry C) :=
  table.find? fun entry => decide (entry.cmd = cmd)

def reject (d : Dispatcher) : Dispatcher := { d with rejected := d.rejected + 1 }

/-- Route one request. A response is dropped, and an unknown command or a short payload is answered
with an error. Otherwise the handler gets the success case to fill in. -/
def dispatch (table : List (CommandEntry C)) (d : Dispatcher) (request response : Frame)
    (context : C) : Option (Bool × Frame × Dispatcher × C) :=
  if request.cmd &&& kResponseFlag ≠ 0 then some (false, response, d.reject, context)
  else
    match find table request.cmd with
    | none => some (true, makeStatusResponse request.cmd .unknownCmd, d.reject, context)
    | some entry =>
        match entry.handler with
        | none => some (true, makeStatusResponse request.cmd .unknownCmd, d.reject, context)
        | some handler =>
            if request.len < entry.minPayload then
              some (true, makeStatusResponse request.cmd .badLength, d.reject, context)
            else do
              let (reply, response, context) ←
                handler request (makeStatusResponse request.cmd .ok) context
              return (reply, response, { d with handled := d.handled + 1 }, context)

end Dispatcher

end Bcm
