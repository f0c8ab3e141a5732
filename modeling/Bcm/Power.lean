import Bcm.Drivers
import Bcm.Fsm

/-!
# Power

Sleep → Wake → Run → Shutdown → Sleep, and battery supervision with its load shed (`power_mgr.h`,
`power_mgr.cpp`).
-/

namespace Bcm

inductive PowerState where
  | sleep
  | wake
  | run
  | shutdown
  deriving DecidableEq, Repr

inductive PowerEvent where
  | ignitionOn
  | ignitionOff
  | wakeComplete
  | shutdownComplete
  | inactivityElapsed
  deriving DecidableEq, Repr

structure PowerContext where
  loadShed : Bool
  deriving DecidableEq, Repr

def PowerContext.initial : PowerContext := ⟨false⟩

/-- `kTable` of `power_mgr.cpp`. -/
def powerTable : List (FsmTransition PowerState PowerEvent PowerContext) :=
  [⟨.sleep, false, .ignitionOn, .wake, none, none⟩,
    ⟨.wake, false, .wakeComplete, .run, none, none⟩,
    ⟨.run, false, .ignitionOff, .shutdown, none, none⟩,
    ⟨.wake, false, .ignitionOff, .shutdown, none, none⟩,
    ⟨.shutdown, false, .shutdownComplete, .sleep, none, none⟩,
    ⟨.shutdown, false, .ignitionOn, .run, none, none⟩,
    ⟨.run, false, .inactivityElapsed, .shutdown, none, none⟩]

def wakeMs : Nat := 200

def shutdownMs : Nat := 500

structure PowerMgr where
  fsm : Fsm PowerState
  ctx : PowerContext
  batteryOk : Hysteresis
  transition : SoftTimer
  inactivity : SoftTimer
  batteryKnown : Bool
  deriving DecidableEq, Repr

namespace PowerMgr

def new (cfg : Config) : PowerMgr where
  fsm := .new .sleep
  ctx := .initial
  batteryOk := ⟨cfg.batteryLowPermille, cfg.batteryOkPermille, true⟩
  transition := .new
  inactivity := .new
  batteryKnown := false

def state (p : PowerMgr) : PowerState := p.fsm.state

def running (p : PowerMgr) : Bool := decide (p.state = .run)

def loadShed (p : PowerMgr) : Bool := p.ctx.loadShed

def lampsPermitted (p : PowerMgr) : Bool := decide (p.state ≠ .sleep)

def dispatch (p : PowerMgr) (event : PowerEvent) : Bool × PowerMgr :=
  let (fired, fsm, ctx) := p.fsm.dispatch powerTable event p.ctx
  (fired, { p with fsm := fsm, ctx := ctx })

def ignitionOn (cfg : Config) (p : PowerMgr) : PowerMgr :=
  let (fired, p) := p.dispatch .ignitionOn
  if fired then
    let p := if p.state = .wake then { p with transition := p.transition.start wakeMs } else p
    if p.state = .run then { p with inactivity := p.inactivity.start cfg.sleepAfterMs } else p
  else p

def ignitionOff (p : PowerMgr) : PowerMgr :=
  let (fired, p) := p.dispatch .ignitionOff
  if fired then
    { p with transition := p.transition.start shutdownMs, inactivity := p.inactivity.stop }
  else p

/-- Feed the filtered battery reading. The first one never sheds. -/
def updateBattery (p : PowerMgr) (permille : Nat) : PowerMgr :=
  let (ok, batteryOk) := p.batteryOk.update permille
  if !p.batteryKnown then { p with batteryOk := batteryOk, batteryKnown := true }
  else { p with batteryOk := batteryOk, ctx := { p.ctx with loadShed := !ok } }

/-- The first half of `update`: the wake or shutdown transition. -/
def updateTransition (cfg : Config) (dtMs : Nat) (p : PowerMgr) : PowerMgr :=
  let (expired, transition) := p.transition.update dtMs
  let p := { p with transition := transition }
  if expired then
    if p.state = .wake then
      let (_, p) := p.dispatch .wakeComplete
      { p with inactivity := p.inactivity.start cfg.sleepAfterMs }
    else if p.state = .shutdown then (p.dispatch .shutdownComplete).2
    else p
  else p

/-- The second half of `update`: the inactivity timer. -/
def updateInactivity (dtMs : Nat) (p : PowerMgr) : PowerMgr :=
  let (expired, inactivity) := p.inactivity.update dtMs
  let p := { p with inactivity := inactivity }
  if expired then
    let (fired, p) := p.dispatch .inactivityElapsed
    if fired then { p with transition := p.transition.start shutdownMs } else p
  else p

def update (cfg : Config) (dtMs : Nat) (p : PowerMgr) : PowerMgr :=
  (p.updateTransition cfg dtMs).updateInactivity dtMs

def apply (p : PowerMgr) (out : LampState) : LampState :=
  if p.state = .run ∨ p.state = .wake then out.set .ignition .on else out

/-- `reset()` leaves the battery trigger as it is. -/
def reset (p : PowerMgr) : PowerMgr :=
  { p with
    fsm := p.fsm.setState .sleep
    ctx := .initial
    transition := p.transition.stop
    inactivity := p.inactivity.stop
    batteryKnown := false }

/-! ### What the table does with each event -/

theorem dispatch_ignitionOn (p : PowerMgr) :
    p.dispatch .ignitionOn =
      if p.state = .sleep then
        (true, { p with
          fsm := { p.fsm with state := .wake, transitions := p.fsm.transitions + 1 } })
      else if p.state = .shutdown then
        (true, { p with
          fsm := { p.fsm with state := .run, transitions := p.fsm.transitions + 1 } })
      else (false, p) := by
  cases hstate : p.fsm.state <;> simp [dispatch, Fsm.dispatch, powerTable, state, hstate]

theorem dispatch_ignitionOff (p : PowerMgr) :
    p.dispatch .ignitionOff =
      if p.state = .wake ∨ p.state = .run then
        (true, { p with
          fsm := { p.fsm with state := .shutdown, transitions := p.fsm.transitions + 1 } })
      else (false, p) := by
  cases hstate : p.fsm.state <;> simp [dispatch, Fsm.dispatch, powerTable, state, hstate]

theorem dispatch_wakeComplete (p : PowerMgr) :
    p.dispatch .wakeComplete =
      if p.state = .wake then
        (true, { p with
          fsm := { p.fsm with state := .run, transitions := p.fsm.transitions + 1 } })
      else (false, p) := by
  cases hstate : p.fsm.state <;> simp [dispatch, Fsm.dispatch, powerTable, state, hstate]

theorem dispatch_shutdownComplete (p : PowerMgr) :
    p.dispatch .shutdownComplete =
      if p.state = .shutdown then
        (true, { p with
          fsm := { p.fsm with state := .sleep, transitions := p.fsm.transitions + 1 } })
      else (false, p) := by
  cases hstate : p.fsm.state <;> simp [dispatch, Fsm.dispatch, powerTable, state, hstate]

theorem dispatch_inactivityElapsed (p : PowerMgr) :
    p.dispatch .inactivityElapsed =
      if p.state = .run then
        (true, { p with
          fsm := { p.fsm with state := .shutdown, transitions := p.fsm.transitions + 1 } })
      else (false, p) := by
  cases hstate : p.fsm.state <;> simp [dispatch, Fsm.dispatch, powerTable, state, hstate]

/-! ### What each operation does to the state and the inactivity timer -/

/-- The ignition-on press wakes a sleeping module, and turns a shutdown back into a run, with the
inactivity timer started afresh. In Wake and in Run nothing comes of it. -/
theorem ignitionOn_cases (cfg : Config) (p : PowerMgr) :
    p.state = .sleep ∧ (p.ignitionOn cfg).state = .wake ∧
        (p.ignitionOn cfg).inactivity = p.inactivity ∨
      p.state = .shutdown ∧ (p.ignitionOn cfg).state = .run ∧
        (p.ignitionOn cfg).inactivity = p.inactivity.start cfg.sleepAfterMs ∨
      (p.state = .wake ∨ p.state = .run) ∧ p.ignitionOn cfg = p := by
  cases hstate : p.fsm.state with
  | sleep =>
      refine Or.inl ⟨hstate, ?_, ?_⟩ <;>
        simp [ignitionOn, dispatch_ignitionOn, hstate, state]
  | wake =>
      refine Or.inr (Or.inr ⟨Or.inl hstate, ?_⟩)
      simp [ignitionOn, dispatch_ignitionOn, hstate, state]
  | run =>
      refine Or.inr (Or.inr ⟨Or.inr hstate, ?_⟩)
      simp [ignitionOn, dispatch_ignitionOn, hstate, state]
  | shutdown =>
      refine Or.inr (Or.inl ⟨hstate, ?_, ?_⟩) <;>
        simp [ignitionOn, dispatch_ignitionOn, hstate, state]

theorem ignitionOff_cases (p : PowerMgr) :
    (p.state = .wake ∨ p.state = .run) ∧ p.ignitionOff.state = .shutdown ∧
        p.ignitionOff.inactivity = p.inactivity.stop ∨
      (p.state = .sleep ∨ p.state = .shutdown) ∧ p.ignitionOff = p := by
  cases hstate : p.fsm.state with
  | sleep =>
      refine Or.inr ⟨Or.inl hstate, ?_⟩
      simp [ignitionOff, dispatch_ignitionOff, hstate, state]
  | wake =>
      refine Or.inl ⟨Or.inl hstate, ?_, ?_⟩ <;>
        simp [ignitionOff, dispatch_ignitionOff, hstate, state]
  | run =>
      refine Or.inl ⟨Or.inr hstate, ?_, ?_⟩ <;>
        simp [ignitionOff, dispatch_ignitionOff, hstate, state]
  | shutdown =>
      refine Or.inr ⟨Or.inr hstate, ?_⟩
      simp [ignitionOff, dispatch_ignitionOff, hstate, state]

@[simp]
theorem updateBattery_state (p : PowerMgr) (permille : Nat) :
    (p.updateBattery permille).state = p.state := by
  unfold updateBattery
  dsimp only
  split <;> rfl

@[simp]
theorem updateBattery_inactivity (p : PowerMgr) (permille : Nat) :
    (p.updateBattery permille).inactivity = p.inactivity := by
  unfold updateBattery
  dsimp only
  split <;> rfl

/-- The transition timer ends a Wake or a Shutdown. Only the end of a Wake touches the inactivity
timer, which it starts. -/
theorem updateTransition_cases (cfg : Config) (dtMs : Nat) (p : PowerMgr) :
    (p.updateTransition cfg dtMs).state = p.state ∧
        (p.updateTransition cfg dtMs).inactivity = p.inactivity ∨
      p.state = .wake ∧ (p.updateTransition cfg dtMs).state = .run ∧
        (p.updateTransition cfg dtMs).inactivity = p.inactivity.start cfg.sleepAfterMs ∨
      p.state = .shutdown ∧ (p.updateTransition cfg dtMs).state = .sleep ∧
        (p.updateTransition cfg dtMs).inactivity = p.inactivity := by
  cases hexpired : (p.transition.update dtMs).1 with
  | false =>
      refine Or.inl ⟨?_, ?_⟩ <;> simp [updateTransition, hexpired, state]
  | true =>
      cases hstate : p.fsm.state with
      | sleep =>
          refine Or.inl ⟨?_, ?_⟩ <;> simp [updateTransition, hexpired, hstate, state]
      | wake =>
          refine Or.inr (Or.inl ⟨hstate, ?_, ?_⟩) <;>
            simp [updateTransition, hexpired, hstate, state, dispatch_wakeComplete]
      | run =>
          refine Or.inl ⟨?_, ?_⟩ <;> simp [updateTransition, hexpired, hstate, state]
      | shutdown =>
          refine Or.inr (Or.inr ⟨hstate, ?_, ?_⟩) <;>
            simp [updateTransition, hexpired, hstate, state, dispatch_shutdownComplete]

@[simp]
theorem updateInactivity_inactivity (dtMs : Nat) (p : PowerMgr) :
    (p.updateInactivity dtMs).inactivity = p.inactivity.advance dtMs := by
  unfold updateInactivity
  dsimp only
  split
  · split <;> rfl
  · rfl

/-- The inactivity timer ends a Run, and nothing else does anything here. -/
theorem updateInactivity_state (dtMs : Nat) (p : PowerMgr) :
    (p.updateInactivity dtMs).state =
      if p.inactivity.expires dtMs = true ∧ p.state = .run then .shutdown else p.state := by
  cases hexpired : (p.inactivity.update dtMs).1 with
  | false => simp [updateInactivity, SoftTimer.expires, hexpired, state]
  | true =>
      cases hstate : p.fsm.state <;>
        simp [updateInactivity, SoftTimer.expires, hexpired, hstate, state,
          dispatch_inactivityElapsed]

/-! ### What each operation does to the transition timer -/

theorem ignitionOn_transition (cfg : Config) (p : PowerMgr) :
    (p.ignitionOn cfg).transition =
      if p.state = .sleep then p.transition.start wakeMs else p.transition := by
  cases hstate : p.fsm.state <;>
    simp [ignitionOn, dispatch_ignitionOn, hstate, state]

theorem ignitionOff_transition (p : PowerMgr) :
    p.ignitionOff.transition =
      if p.state = .wake ∨ p.state = .run then p.transition.start shutdownMs
      else p.transition := by
  cases hstate : p.fsm.state <;>
    simp [ignitionOff, dispatch_ignitionOff, hstate, state]

@[simp]
theorem updateBattery_transition (p : PowerMgr) (permille : Nat) :
    (p.updateBattery permille).transition = p.transition := by
  unfold updateBattery
  dsimp only
  split <;> rfl

/-- Where the transition timer leads. In Sleep and in Run its end means nothing. -/
def settled : PowerState → PowerState
  | .wake => .run
  | .shutdown => .sleep
  | .sleep => .sleep
  | .run => .run

theorem updateTransition_eq (cfg : Config) (dtMs : Nat) (p : PowerMgr) :
    (p.updateTransition cfg dtMs).state =
        (if p.transition.expires dtMs then settled p.state else p.state) ∧
      (p.updateTransition cfg dtMs).inactivity =
        (if p.transition.expires dtMs ∧ p.state = .wake then
          p.inactivity.start cfg.sleepAfterMs
        else p.inactivity) ∧
      (p.updateTransition cfg dtMs).transition = p.transition.advance dtMs := by
  unfold SoftTimer.expires SoftTimer.advance
  cases hexpired : (p.transition.update dtMs).1 with
  | false => simp [updateTransition, hexpired, state]
  | true =>
      cases hstate : p.fsm.state <;>
        simp [updateTransition, hexpired, hstate, state, settled, dispatch_wakeComplete,
          dispatch_shutdownComplete]

theorem updateInactivity_transition (dtMs : Nat) (p : PowerMgr) :
    (p.updateInactivity dtMs).transition =
      if p.inactivity.expires dtMs = true ∧ p.state = .run then p.transition.start shutdownMs
      else p.transition := by
  cases hexpired : (p.inactivity.update dtMs).1 with
  | false => simp [updateInactivity, SoftTimer.expires, hexpired]
  | true =>
      cases hstate : p.fsm.state <;>
        simp [updateInactivity, SoftTimer.expires, hexpired, hstate, state,
          dispatch_inactivityElapsed]

end PowerMgr

end Bcm
