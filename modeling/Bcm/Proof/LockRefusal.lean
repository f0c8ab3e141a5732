import Bcm.Proof.CoreStep

/-!
# A refused lock

A refusal by the open-door guard outlives the other requests of its cycle: the open door keeps the
lock from changing, and only a change clears the flag.
-/

namespace Bcm

namespace DoorMgr

/-- The open-door guard refuses a lock requested now. -/
def refusesLock (d : DoorMgr) : Bool :=
  decide ((d.dispatch .lockRequest).2.fsm.blocked ≠ d.fsm.blocked)

theorem refusesLock_iff (d : DoorMgr) :
    d.refusesLock = true ↔ d.ctx.doorOpen = true ∧ d.state ≠ .locked := by
  cases hstate : d.fsm.state <;> cases hopen : d.ctx.doorOpen <;>
    simp [refusesLock, dispatch_lockRequest, state, hstate, hopen]

/-- A refusal stands to be reported, and the open door keeps the lock as it is. -/
structure Refused (d : DoorMgr) : Prop where
  doorOpen : d.ctx.doorOpen = true
  unlocked : d.state ≠ .locked
  lockRefused : d.ctx.lockRefused = true

theorem refused_of_refusesLock {d : DoorMgr} (h : d.refusesLock = true) : d.requestLock.Refused := by
  obtain ⟨hopen, hunlocked⟩ := d.refusesLock_iff.mp h
  obtain ⟨hstate, hctx⟩ := requestLock_of_open hopen hunlocked
  constructor
  · rw [hctx]
    exact hopen
  · rw [hstate]
    exact hunlocked
  · rw [hctx]

theorem Refused.requestLock {d : DoorMgr} (h : d.Refused) : d.requestLock.Refused :=
  refused_of_refusesLock (d.refusesLock_iff.mpr ⟨h.doorOpen, h.unlocked⟩)

theorem Refused.requestUnlock {d : DoorMgr} (h : d.Refused) (cfg : Config) :
    (d.requestUnlock cfg).Refused := by
  rw [requestUnlock_of_unlocked cfg h.unlocked]
  exact h

end DoorMgr

namespace BcmCore

variable (cfg : Config) (dtMs : Nat) (s : BcmCore)

/-- The door once the cycle has dealt with its switch. -/
def switchedDoor : DoorMgr :=
  let d := s.door.setDoorOpen s.inputs.doorOpen
  if s.doorSwitch then (if d.locked then d.requestUnlock cfg else d.requestLock) else d

/-- The open-door guard refuses a lock that the switch or the host asks for in this cycle. -/
def refusesRequest : Bool :=
  let d := s.door.setDoorOpen s.inputs.doorOpen
  !s.firstCycle &&
    ((s.doorSwitch && !d.locked && d.refusesLock) ||
      (s.hostLock && (s.switchedDoor cfg).refusesLock))

variable {cfg s}

theorem refused_requestedDoor (h : s.refusesRequest cfg = true) : (s.requestedDoor cfg).Refused := by
  have hswitched : (if s.hostLock then (s.switchedDoor cfg).requestLock
      else s.switchedDoor cfg).Refused := by
    unfold refusesRequest at h
    rw [Bool.and_eq_true, Bool.or_eq_true] at h
    rcases h.2 with hswitch | hhost
    · rw [Bool.and_eq_true, Bool.and_eq_true] at hswitch
      obtain ⟨⟨hpress, hunlocked⟩, hrefuses⟩ := hswitch
      have hdoor : (s.switchedDoor cfg).Refused := by
        unfold switchedDoor
        dsimp only
        rw [if_pos hpress, if_neg (by simpa using hunlocked)]
        exact DoorMgr.refused_of_refusesLock hrefuses
      split
      · exact hdoor.requestLock
      · exact hdoor
    · rw [Bool.and_eq_true] at hhost
      rw [if_pos hhost.1]
      exact DoorMgr.refused_of_refusesLock hhost.2
  change (if s.hostUnlock then DoorMgr.requestUnlock cfg _ else _).Refused
  split
  · exact hswitched.requestUnlock cfg
  · exact hswitched

/-- Nothing in the rest of the cycle clears the flag before it is reported. -/
theorem lockRefusal_of_refusesRequest (h : s.refusesRequest cfg = true) :
    s.lockRefusal cfg dtMs = true := by
  have hrefused := refused_requestedDoor h
  have hfirst : ¬s.firstCycle = true := by
    unfold refusesRequest at h
    rw [Bool.and_eq_true] at h
    simpa using h.1
  rw [lockRefusal, applyEdges_door, if_neg hfirst,
    DoorMgr.update_ctx_of_open cfg dtMs hrefused.doorOpen]
  exact hrefused.lockRefused

end BcmCore

end Bcm
