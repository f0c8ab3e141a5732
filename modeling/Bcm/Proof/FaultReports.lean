import Bcm.Proof.FaultStore
import Bcm.Proof.LockRefusal
import Bcm.Proof.StepRecords

/-!
# Fault reporting

The codes that have a name fit in the store together, so no cycle finds it full, and what a cycle
reports is there after it.
-/

namespace Bcm

/-- The codes of the enumeration, its end included. -/
def Dtc.named : List Dtc :=
  [batteryLow, commsLost, lockRefusedDoorOpen, watchdogReset, uartOverrun, postFailed, count]

namespace BcmCore

variable {cfg : Config} (dtMs : Nat) {s : BcmCore}

theorem lockRefused_mem_records (h : s.lockRefusal cfg dtMs = true) :
    ⟨0, .lockRefused, 0⟩ ∈ s.records cfg dtMs := by
  rw [records_eq, List.mem_append]
  right
  have hblock : (cycleBlocks cfg dtMs)[4]? = some reportLockRefused := rfl
  rw [writtenBy_split hblock, List.mem_append, List.mem_append]
  right
  left
  rw [written_of_logsWhen logsWhen_reportLockRefused]
  have hflag : (runBlocks ((cycleBlocks cfg dtMs).take 4) (s.applyEdges cfg dtMs)).door =
      (s.applyEdges cfg dtMs).door.update cfg dtMs := rfl
  rw [hflag]
  unfold lockRefusal at h
  rw [h]
  exact List.mem_singleton_self _

/-! ### The store over a run -/

theorem named_room : Dtc.named.length < maxDtc := by decide

variable (cfg)

/-- The store as the cycle has it when the battery and the link are reported. -/
def refusalFaults (s : BcmCore) : FaultMgr :=
  if s.lockRefusal cfg dtMs then s.faults.set Dtc.lockRefusedDoorOpen else s.faults

theorem within_refusalFaults {s : BcmCore} (h : s.faults.Within Dtc.named) :
    (s.refusalFaults cfg dtMs).Within Dtc.named := by
  unfold refusalFaults
  split
  · exact h.set named_room (Or.inr (by decide))
  · exact h

theorem within_step {s : BcmCore} (h : s.faults.Within Dtc.named) :
    (s.step cfg dtMs).faults.Within Dtc.named := by
  have hrefusal := within_refusalFaults cfg dtMs h
  have hbattery := hrefusal.report named_room Dtc.batteryLow (by decide)
    (s.step cfg dtMs).power.loadShed
  rw [step_faults]
  exact hbattery.report named_room Dtc.commsLost (by decide) s.commsLost

/-- What the store says of each code after a cycle. -/
theorem isActive_step {s : BcmCore} (h : s.faults.Within Dtc.named) (code : Dtc) :
    (s.step cfg dtMs).faults.isActive code =
      if code = Dtc.commsLost then s.commsLost
      else if code = Dtc.batteryLow then (s.step cfg dtMs).power.loadShed
      else (s.refusalFaults cfg dtMs).isActive code := by
  have hrefusal := within_refusalFaults cfg dtMs h
  have hbattery := hrefusal.report named_room Dtc.batteryLow (by decide)
    (s.step cfg dtMs).power.loadShed
  calc (s.step cfg dtMs).faults.isActive code
      = if code = Dtc.commsLost then s.commsLost
        else (if (s.step cfg dtMs).power.loadShed then
          (s.refusalFaults cfg dtMs).set Dtc.batteryLow
        else (s.refusalFaults cfg dtMs).clear Dtc.batteryLow).isActive code := by
        rw [step_faults]
        exact FaultMgr.isActive_report (by decide) (hbattery.fits named_room _) _ code
    _ = _ := by
        rw [FaultMgr.isActive_report (by decide) (hrefusal.fits named_room _)]

/-- A fault set from outside is one that has a name. -/
def NamesFaults (op : CoreOp) : Prop :=
  ∀ code, op = .setFault code → code = Dtc.none ∨ code ∈ Dtc.named

theorem within_exec {s : BcmCore} (h : s.faults.Within Dtc.named) {op : CoreOp}
    (hop : NamesFaults op) : (s.exec cfg op).faults.Within Dtc.named := by
  cases op with
  | step dtMs => exact within_step cfg dtMs h
  | setFault code => exact h.set named_room (hop code rfl)
  | reset | clearFaults => exact FaultMgr.within_new Dtc.named
  | setInputs _ | setCommsLost _ | setHostRequest _ _ | requestDoorLock | requestDoorUnlock
  | requestLightMode | popLog => exact h

theorem within_run {ops : List CoreOp} (hops : ∀ op ∈ ops, NamesFaults op) :
    (run cfg ops).faults.Within Dtc.named := by
  have hreach : Runs.Reachable (exec cfg) (new cfg) NamesFaults (run cfg ops) := ⟨ops, hops, rfl⟩
  exact hreach.invariant (I := fun s => s.faults.Within Dtc.named) (FaultMgr.within_new Dtc.named)
    fun _ _ hop h => within_exec cfg h hop

/-- **Fault reporting tracks the vehicle.** After every cycle of every run in which the faults set
from outside have names, a low battery is active while the load is shed, a lost link is active while
the link is lost, and a cycle in which the open-door guard refused a lock has recorded and logged
it. -/
theorem faults_track_vehicle {ops : List CoreOp} (hops : ∀ op ∈ ops, NamesFaults op) :
    let before := run cfg ops
    let after := run cfg (ops ++ [.step dtMs])
    after.faults.isActive Dtc.batteryLow = after.power.loadShed ∧
      after.faults.isActive Dtc.commsLost = after.commsLost ∧
      (before.refusesRequest cfg = true →
        after.faults.isActive Dtc.lockRefusedDoorOpen = true ∧
        ⟨0, .lockRefused, 0⟩ ∈ before.records cfg dtMs) := by
  have hwithin := within_run cfg hops
  intro before after
  have hstep : after = before.step cfg dtMs := run_step cfg ops dtMs
  rw [hstep]
  refine ⟨?_, ?_, fun hrefuses => ?_⟩
  · rw [isActive_step cfg dtMs hwithin, if_neg (by decide), if_pos rfl]
  · rw [isActive_step cfg dtMs hwithin, if_pos rfl, step_commsLost]
  · have hrefusal := lockRefusal_of_refusesRequest dtMs hrefuses
    refine ⟨?_, lockRefused_mem_records dtMs hrefusal⟩
    rw [isActive_step cfg dtMs hwithin, if_neg (by decide), if_neg (by decide), refusalFaults,
      if_pos hrefusal, FaultMgr.isActive_set (by decide) (hwithin.fits named_room _)]
    rfl

/-- Every named fault stored and cleared again, and then a lock with the door open. -/
theorem faults_track_vehicle_ajar :
    let ajar := { Inputs.initial with batteryPermille := 800, doorOpen := true }
    let ops := Dtc.named.map .setFault ++ [.setInputs ajar, .step 5, .requestDoorUnlock, .step 5,
      .clearFaults, .requestDoorLock, .requestDoorUnlock]
    (run .shipped (ops ++ [.step 5])).faults.isActive Dtc.lockRefusedDoorOpen = true ∧
      ⟨0, .lockRefused, 0⟩ ∈ (run .shipped ops).records .shipped 5 :=
  (faults_track_vehicle .shipped 5 (by simp [NamesFaults, Dtc.named])).2.2 (by decide +kernel)

end BcmCore

end Bcm
