import Bcm.Proof.CoreStep

/-!
# No lock with a door open

A lock may come from the switch, from the host or from the auto-lock timer, several times in one
cycle, and be undone before the cycle ends. So the statement is about every state between two blocks
of the cycle: at most one transition lies between two neighbours, and one that ends in Locked lies
in a cycle whose inputs show every door closed.

The open-door flag of the machine is refreshed halfway through `apply_edges`, and not at all on the
first cycle. Before the refresh nothing touches the machine, and on the first cycle the door is
locked with both its timers stopped.
-/

namespace Bcm

namespace DoorMgr

/-- What one piece of door code does to the machine: nothing, or one transition, which ends in
Locked only with the flag clear. The flag itself stays. -/
def Guarded (d d' : DoorMgr) : Prop :=
  d'.ctx.doorOpen = d.ctx.doorOpen ∧
    (d'.fsm.transitions = d.fsm.transitions ∧ d'.state = d.state ∨
      d'.fsm.transitions = d.fsm.transitions + 1 ∧ (d'.state = .locked → d.ctx.doorOpen = false))

theorem guarded_refl (d : DoorMgr) : Guarded d d := ⟨rfl, Or.inl ⟨rfl, rfl⟩⟩

theorem action_doorOpen {t : FsmTransition DoorState DoorEvent DoorContext}
    (hmem : t ∈ doorTable) (c : DoorContext) :
    (t.action.elim c fun action => action c).doorOpen = c.doorOpen := by
  simp only [doorTable, List.mem_cons, List.not_mem_nil, or_false] at hmem
  rcases hmem with rfl | rfl | rfl | rfl | rfl <;> rfl

theorem guarded_dispatch (d : DoorMgr) (event : DoorEvent) : Guarded d (d.dispatch event).2 := by
  rcases Fsm.dispatch_cases doorTable d.fsm event d.ctx with
    ⟨fsm, hdispatch, hstate, hcount⟩ | ⟨t, hmem, -, hguard, hdispatch⟩
  · have hresult : (d.dispatch event).2 = { d with fsm := fsm } := by
      simp only [dispatch, hdispatch]
    rw [hresult]
    exact ⟨rfl, Or.inl ⟨hcount, hstate⟩⟩
  · have hresult : (d.dispatch event).2 =
        { d with
          fsm := { d.fsm with state := t.target, transitions := d.fsm.transitions + 1 }
          ctx := t.action.elim d.ctx fun action => action d.ctx } := by
      simp only [dispatch, hdispatch]
    rw [hresult]
    refine ⟨action_doorOpen hmem d.ctx, Or.inr ⟨rfl, fun hlocked => ?_⟩⟩
    have hsome := guard_of_target_locked hmem hlocked
    have hclosed := hguard DoorContext.noDoorOpen (by rw [hsome]; rfl)
    simpa [DoorContext.noDoorOpen] using hclosed

theorem guarded_requestLock (d : DoorMgr) : Guarded d d.requestLock := by
  have hdispatch := d.guarded_dispatch .lockRequest
  unfold requestLock
  dsimp only
  split
  · split
    · exact hdispatch
    · exact hdispatch
  · exact hdispatch

theorem guarded_requestUnlock (cfg : Config) (d : DoorMgr) : Guarded d (d.requestUnlock cfg) := by
  have hdispatch := d.guarded_dispatch .unlockRequest
  unfold requestUnlock
  dsimp only
  split
  · exact hdispatch
  · exact hdispatch

theorem guarded_updateWelcome (cfg : Config) (dtMs : Nat) (d : DoorMgr) :
    Guarded d (d.updateWelcome cfg dtMs) := by
  have hdispatch := guarded_dispatch { d with welcome := d.welcome.advance dtMs } .welcomeExpired
  unfold updateWelcome
  dsimp only
  split
  · exact hdispatch
  · exact d.guarded_refl

theorem guarded_updateAutoLock (cfg : Config) (dtMs : Nat) (d : DoorMgr) :
    Guarded d (d.updateAutoLock cfg dtMs) := by
  have hdispatch := guarded_dispatch { d with autoLock := d.autoLock.advance dtMs } .autoLockElapsed
  unfold updateAutoLock
  dsimp only
  split
  · split
    · exact hdispatch
    · exact hdispatch
  · exact d.guarded_refl

/-- A locked door whose timers are stopped stays as it is through both halves of `update`. -/
def Parked (d : DoorMgr) : Prop :=
  d.state = .locked ∧ d.welcome.running = false ∧ d.autoLock.running = false

theorem Parked.updateWelcome {d : DoorMgr} (h : d.Parked) (cfg : Config) (dtMs : Nat) :
    d.updateWelcome cfg dtMs = d :=
  updateWelcome_of_stopped cfg dtMs h.2.1

theorem Parked.updateAutoLock {d : DoorMgr} (h : d.Parked) (cfg : Config) (dtMs : Nat) :
    d.updateAutoLock cfg dtMs = d := by
  obtain ⟨-, -, hautoLock⟩ := h
  rw [updateAutoLock_of_not_expires cfg (SoftTimer.expires_of_stopped hautoLock dtMs),
    SoftTimer.advance_of_stopped hautoLock]

end DoorMgr

namespace BcmCore

/-! ### From blocks to cycles -/

/-- Between two neighbouring states of a cycle with these inputs the door machine does nothing, or
takes one transition, which ends in Locked only if the inputs show no open door. -/
def DoorMove (inputs : Inputs) (a b : BcmCore) : Prop :=
  b.door.fsm.transitions = a.door.fsm.transitions ∧ b.door.state = a.door.state ∨
    b.door.fsm.transitions = a.door.fsm.transitions + 1 ∧
      (b.door.state = .locked → inputs.doorOpen = false)

/-- What every block from the refresh of the flag on does: it keeps the inputs, and is door code
only. -/
def Follows (s s' : BcmCore) : Prop := s'.inputs = s.inputs ∧ DoorMgr.Guarded s.door s'.door

def Refreshed (inputs : Inputs) (s : BcmCore) : Prop :=
  s.inputs = inputs ∧ s.door.ctx.doorOpen = inputs.doorOpen

theorem Follows.doorMove {s s' : BcmCore} (h : Follows s s') {inputs : Inputs}
    (hrefreshed : Refreshed inputs s) : DoorMove inputs s s' ∧ Refreshed inputs s' := by
  obtain ⟨hinputs, hflag, hmove⟩ := h
  obtain ⟨hs, hopen⟩ := hrefreshed
  refine ⟨?_, hinputs.trans hs, hflag.trans hopen⟩
  rcases hmove with hstay | ⟨hcount, hclosed⟩
  · exact Or.inl hstay
  · exact Or.inr ⟨hcount, fun hlocked => hopen.symm.trans (hclosed hlocked)⟩

theorem follows_of_eq {s s' : BcmCore} (hinputs : s'.inputs = s.inputs) (hdoor : s'.door = s.door) :
    Follows s s' :=
  ⟨hinputs, by rw [hdoor]; exact s.door.guarded_refl⟩

theorem follows_pressDoorLock (cfg : Config) (s : BcmCore) : Follows s (pressDoorLock cfg s) := by
  unfold pressDoorLock
  split
  · split
    · exact ⟨rfl, s.door.guarded_requestUnlock cfg⟩
    · exact ⟨rfl, s.door.guarded_requestLock⟩
  · exact follows_of_eq rfl rfl

theorem follows_takeHostLock (s : BcmCore) : Follows s (takeHostLock s) := by
  unfold takeHostLock
  split
  · exact ⟨rfl, s.door.guarded_requestLock⟩
  · exact follows_of_eq rfl rfl

theorem follows_takeHostUnlock (cfg : Config) (s : BcmCore) :
    Follows s (takeHostUnlock cfg s) := by
  unfold takeHostUnlock
  split
  · exact ⟨rfl, s.door.guarded_requestUnlock cfg⟩
  · exact follows_of_eq rfl rfl

theorem follows_reportLockRefused (s : BcmCore) : Follows s (reportLockRefused s) := by
  unfold reportLockRefused
  dsimp only
  split
  · exact ⟨rfl, s.door.guarded_refl⟩
  · exact ⟨rfl, s.door.guarded_refl⟩

theorem follows_chirpHorn (cfg : Config) (s : BcmCore) : Follows s (chirpHorn cfg s) :=
  ⟨rfl, s.door.guarded_refl⟩

/-- The blocks of `apply_edges` after the refresh of the open-door flag. -/
theorem follows_lateEdge (cfg : Config) {block : BcmCore → BcmCore}
    (hmem : block ∈ [pressDoorLock cfg, takeHostLock, takeHostUnlock cfg, takeHostLightMode,
      logBrakeChange, rememberInputs]) (s : BcmCore) : Follows s (block s) := by
  simp only [List.mem_cons, List.not_mem_nil, or_false] at hmem
  rcases hmem with rfl | rfl | rfl | rfl | rfl | rfl
  · exact follows_pressDoorLock cfg s
  · exact follows_takeHostLock s
  · exact follows_takeHostUnlock cfg s
  · refine follows_of_eq ?_ ?_ <;> simp only [takeHostLightMode, apply_ite, ite_self]
  · refine follows_of_eq ?_ ?_ <;> simp only [logBrakeChange, logEvent, apply_ite, ite_self]
  · exact follows_of_eq rfl rfl

theorem follows_cycle (cfg : Config) (dtMs : Nat) {block : BcmCore → BcmCore}
    (hmem : block ∈ cycleBlocks cfg dtMs) (s : BcmCore) : Follows s (block s) := by
  simp only [cycleBlocks, List.mem_cons, List.not_mem_nil, or_false] at hmem
  rcases hmem with rfl | rfl | rfl | rfl | rfl | rfl | rfl | rfl | rfl | rfl | rfl | rfl
  · exact follows_of_eq rfl rfl
  · exact follows_of_eq rfl rfl
  · exact ⟨rfl, s.door.guarded_updateWelcome cfg dtMs⟩
  · exact ⟨rfl, s.door.guarded_updateAutoLock cfg dtMs⟩
  · exact follows_reportLockRefused s
  · exact follows_chirpHorn cfg s
  · exact follows_of_eq rfl rfl
  · refine follows_of_eq ?_ ?_ <;> simp only [logLoadShedChange, logEvent, apply_ite, ite_self]
  · refine follows_of_eq ?_ ?_ <;> simp only [logCommsChange, logEvent, apply_ite, ite_self]
  · refine follows_of_eq ?_ ?_ <;> simp only [logDoorChange, logEvent, apply_ite, ite_self]
  · exact follows_of_eq rfl rfl
  · exact follows_of_eq rfl rfl

/-! ### The first cycle -/

/-- On the first cycle no block of `step` does more to a parked door than set or take a flag. -/
theorem door_of_parked (cfg : Config) (dtMs : Nat) {block : BcmCore → BcmCore}
    (hmem : block ∈ seedHistory :: cycleBlocks cfg dtMs) {s : BcmCore} (hparked : s.door.Parked) :
    ∃ ctx, (block s).door = { s.door with ctx := ctx } := by
  simp only [cycleBlocks, List.mem_cons, List.not_mem_nil, or_false] at hmem
  rcases hmem with rfl | rfl | rfl | rfl | rfl | rfl | rfl | rfl | rfl | rfl | rfl | rfl | rfl
  · exact ⟨_, rfl⟩
  · exact ⟨_, rfl⟩
  · exact ⟨_, rfl⟩
  · exact ⟨_, hparked.updateWelcome cfg dtMs⟩
  · exact ⟨_, hparked.updateAutoLock cfg dtMs⟩
  · refine ⟨{ s.door.ctx with lockRefused := false }, ?_⟩
    unfold reportLockRefused
    dsimp only
    split
    · rfl
    · rfl
  · exact ⟨_, rfl⟩
  · exact ⟨_, rfl⟩
  · exact ⟨s.door.ctx, by simp only [logLoadShedChange, logEvent, apply_ite, ite_self]⟩
  · exact ⟨s.door.ctx, by simp only [logCommsChange, logEvent, apply_ite, ite_self]⟩
  · exact ⟨s.door.ctx, by simp only [logDoorChange, logEvent, apply_ite, ite_self]⟩
  · exact ⟨_, rfl⟩
  · exact ⟨_, rfl⟩

theorem parked_of_firstCycle (cfg : Config) (ops : List CoreOp) :
    (run cfg ops).firstCycle = true → (run cfg ops).door.Parked := by
  refine (reachable_run cfg ops).invariant (I := fun s => s.firstCycle = true → s.door.Parked)
    (fun _ => ⟨rfl, rfl, rfl⟩) ?_
  intro s op _ ih
  cases op with
  | step dtMs =>
      intro hfirst
      rw [exec, step_firstCycle] at hfirst
      exact absurd hfirst (by decide)
  | reset => exact fun _ => ⟨rfl, rfl, rfl⟩
  | _ => exact ih

/-! ### Every cycle of a run -/

theorem trail_head? (cfg : Config) (dtMs : Nat) (s : BcmCore) :
    (s.trail cfg dtMs).head? = some s := by
  rw [trail, List.head?_scanl]

theorem trail_getLast? (cfg : Config) (dtMs : Nat) (s : BcmCore) :
    (s.trail cfg dtMs).getLast? = some (s.step cfg dtMs) := by
  have hedges : runBlocks (if s.firstCycle then [seedHistory] else edgeBlocks cfg dtMs) s =
      s.applyEdges cfg dtMs := by
    unfold applyEdges
    split
    · rfl
    · rfl
  rw [trail, List.getLast?_scanl, blocksFrom, List.foldl_append]
  exact congrArg (fun t => some (runBlocks (cycleBlocks cfg dtMs) t)) hedges

/-- The door machine along one cycle, from a state where the door is parked if no cycle has run. -/
theorem isChain_trail (cfg : Config) (dtMs : Nat) {s : BcmCore}
    (hparked : s.firstCycle = true → s.door.Parked) :
    (s.trail cfg dtMs).IsChain (DoorMove s.inputs) := by
  unfold trail blocksFrom
  by_cases hfirst : s.firstCycle = true
  · rw [if_pos hfirst]
    refine Runs.isChain_scanl_blocks (I := fun t => t.door.Parked) (hparked hfirst) ?_
    intro block hmem t ht
    obtain ⟨ctx, hdoor⟩ := door_of_parked cfg dtMs hmem ht
    unfold DoorMove
    rw [hdoor]
    exact ⟨Or.inl ⟨rfl, rfl⟩, ht⟩
  · rw [if_neg hfirst]
    have hsplit : edgeBlocks cfg dtMs ++ cycleBlocks cfg dtMs =
        [holdIgnition cfg dtMs, releaseIgnition cfg, pressIndicatorLeft, pressIndicatorRight,
          pressHazard, readDoorOpen] ++
        ([pressDoorLock cfg, takeHostLock, takeHostUnlock cfg, takeHostLightMode, logBrakeChange,
          rememberInputs] ++ cycleBlocks cfg dtMs) := rfl
    rw [hsplit]
    refine Runs.isChain_scanl_append ?_ ?_
    · -- up to the refresh of the flag the machine is not touched
      refine Runs.isChain_scanl_blocks (I := fun _ => True) trivial ?_
      intro block hmem t _
      refine ⟨Or.inl ?_, trivial⟩
      have hfsm : (block t).door.fsm = t.door.fsm := by
        simp only [List.mem_cons, List.not_mem_nil, or_false] at hmem
        rcases hmem with rfl | rfl | rfl | rfl | rfl | rfl <;>
          simp only [holdIgnition, releaseIgnition, pressIndicatorLeft, pressIndicatorRight,
            pressHazard, readDoorOpen, DoorMgr.setDoorOpen, logEvent, apply_ite BcmCore.door,
            ite_self]
      exact ⟨by rw [hfsm], by rw [DoorMgr.state, hfsm]; rfl⟩
    · refine Runs.isChain_scanl_blocks (I := Refreshed s.inputs) ?_ ?_
      · constructor
        · simp only [List.foldl_cons, List.foldl_nil, holdIgnition, releaseIgnition,
            pressIndicatorLeft, pressIndicatorRight, pressHazard, readDoorOpen, logEvent,
            apply_ite BcmCore.inputs, ite_self]
        · simp only [List.foldl_cons, List.foldl_nil, holdIgnition, releaseIgnition,
            pressIndicatorLeft, pressIndicatorRight, pressHazard, readDoorOpen, logEvent,
            DoorMgr.setDoorOpen, apply_ite BcmCore.inputs, ite_self]
      · intro block hmem t ht
        rcases List.mem_append.mp hmem with hedge | hcycle
        · exact (follows_lateEdge cfg hedge t).doorMove ht
        · exact (follows_cycle cfg dtMs hcycle t).doorMove ht

/-- What an operation may do to the door. Along a cycle every move is a `DoorMove`, a reset forces
it locked, and nothing else touches it. -/
def DoorSafe (cfg : Config) (s : BcmCore) : CoreOp → Prop
  | .step dtMs =>
      (s.trail cfg dtMs).head? = some s ∧ (s.trail cfg dtMs).getLast? = some (s.step cfg dtMs) ∧
        (s.trail cfg dtMs).IsChain (DoorMove s.inputs)
  | .reset => True
  | op => (exec cfg s op).door = s.door

/-- **The doors never lock while one is open.** In every run, every transition of the door machine
into Locked happens in a cycle whose inputs show no open door, also one undone later in the same
cycle. -/
theorem run_doorSafe (cfg : Config) (ops : List CoreOp) (op : CoreOp) :
    DoorSafe cfg (run cfg ops) op := by
  have hparked := parked_of_firstCycle cfg ops
  generalize run cfg ops = s at hparked
  cases op with
  | step dtMs =>
      exact ⟨trail_head? cfg dtMs s, trail_getLast? cfg dtMs s, isChain_trail cfg dtMs hparked⟩
  | reset => trivial
  | _ => rfl

end BcmCore

end Bcm
