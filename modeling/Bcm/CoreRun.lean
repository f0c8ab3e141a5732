import Bcm.Core
import Bcm.Lib.Runs

/-!
# Runs of the core

Everything the rest of the firmware may do to a `BcmCore`: supply inputs, link state and host
requests, run a cycle, reset, and reach the fault store and the event log through their accessors.
-/

namespace Bcm

inductive CoreOp where
  | setInputs (inputs : Inputs)
  | setCommsLost (lost : Bool)
  | setHostRequest (request : LampState) (mask : BitVec 16)
  | requestDoorLock
  | requestDoorUnlock
  | requestLightMode
  | step (dtMs : Nat)
  | reset
  | setFault (code : Dtc)
  /-- `faults().clear_all()`, the trouble-code clear of the diagnostic link. -/
  | clearFaults
  /-- `log().pop(out)`, the drain of the logger task. -/
  | popLog

namespace BcmCore

def exec (cfg : Config) (s : BcmCore) : CoreOp → BcmCore
  | .setInputs inputs => s.setInputs inputs
  | .setCommsLost lost => s.setCommsLost lost
  | .setHostRequest request mask => s.setHostRequest request mask
  | .requestDoorLock => s.requestDoorLock
  | .requestDoorUnlock => s.requestDoorUnlock
  | .requestLightMode => s.requestLightMode
  | .step dtMs => s.step cfg dtMs
  | .reset => s.reset
  | .setFault code => { s with faults := s.faults.set code }
  | .clearFaults => { s with faults := s.faults.clearAll }
  | .popLog => { s with log := s.log.pop.2 }

def run (cfg : Config) (ops : List CoreOp) : BcmCore := Runs.run (exec cfg) (new cfg) ops

def Reachable (cfg : Config) (s : BcmCore) : Prop :=
  Runs.Reachable (exec cfg) (new cfg) (fun _ => True) s

theorem run_concat (cfg : Config) (ops : List CoreOp) (op : CoreOp) :
    run cfg (ops ++ [op]) = exec cfg (run cfg ops) op :=
  Runs.run_concat (exec cfg) (new cfg) ops op

theorem run_step (cfg : Config) (ops : List CoreOp) (dtMs : Nat) :
    run cfg (ops ++ [.step dtMs]) = (run cfg ops).step cfg dtMs :=
  run_concat cfg ops (.step dtMs)

theorem reachable_run (cfg : Config) (ops : List CoreOp) : Reachable cfg (run cfg ops) :=
  ⟨ops, fun _ _ => trivial, rfl⟩

/-- A condition on the cycles of a run alone. -/
def AtStep (cond : BcmCore → Nat → Prop) (s : BcmCore) : CoreOp → Prop
  | .step dtMs => cond s dtMs
  | _ => True

instance (cond : BcmCore → Nat → Prop) [∀ s dtMs, Decidable (cond s dtMs)] (s : BcmCore)
    (op : CoreOp) : Decidable (AtStep cond s op) :=
  match op with
  | .step dtMs => inferInstanceAs (Decidable (cond s dtMs))
  | .setInputs _ | .setCommsLost _ | .setHostRequest _ _ | .requestDoorLock | .requestDoorUnlock
  | .requestLightMode | .reset | .setFault _ | .clearFaults | .popLog =>
      inferInstanceAs (Decidable True)

/-! ### The inputs of a run, step by step -/

/-- What a run supplied: the inputs now in force, and those of each step so far with its length. -/
structure History where
  inputs : Inputs
  steps : List (Inputs × Nat)

def History.observe (h : History) : CoreOp → History
  | .setInputs inputs => { h with inputs := inputs }
  | .step dtMs => { h with steps := h.steps ++ [(h.inputs, dtMs)] }
  | .reset => { h with inputs := .initial }
  | _ => h

def history (ops : List CoreOp) : History := Runs.run History.observe ⟨.initial, []⟩ ops

theorem history_concat (ops : List CoreOp) (op : CoreOp) :
    history (ops ++ [op]) = (history ops).observe op :=
  Runs.run_concat History.observe ⟨.initial, []⟩ ops op

/-- A core that holds 80 % of its battery and has just been woken by a short ignition press. -/
def wakingOps : List CoreOp :=
  let charged := { Inputs.initial with batteryPermille := 800 }
  [.setInputs charged, .step 5, .setInputs { charged with ignition := true }, .step 5,
    .setInputs charged, .step 5]

end BcmCore

end Bcm
