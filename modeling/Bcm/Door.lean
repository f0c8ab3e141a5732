import Bcm.Drivers
import Bcm.Fsm

/-!
# Doors

Locked → Welcome → Unlocked → (auto-lock) → Locked (`door_mgr.h`, `door_mgr.cpp`).
-/

namespace Bcm

inductive DoorState where
  | locked
  | unlocked
  | welcome
  deriving DecidableEq, Repr

inductive DoorEvent where
  | lockRequest
  | unlockRequest
  | welcomeExpired
  | autoLockElapsed
  deriving DecidableEq, Repr

structure DoorContext where
  doorOpen : Bool
  lockRefused : Bool
  chirpLock : Bool
  chirpUnlock : Bool
  deriving DecidableEq, Repr

namespace DoorContext

def initial : DoorContext := ⟨false, false, false, false⟩

def noDoorOpen (c : DoorContext) : Bool := !c.doorOpen

def onLocked (c : DoorContext) : DoorContext := { c with chirpLock := true, lockRefused := false }

def onUnlocked (c : DoorContext) : DoorContext :=
  { c with chirpUnlock := true, lockRefused := false }

end DoorContext

open DoorContext in
/-- `kTable` of `door_mgr.cpp`. -/
def doorTable : List (FsmTransition DoorState DoorEvent DoorContext) :=
  [⟨.unlocked, false, .lockRequest, .locked, some noDoorOpen, some onLocked⟩,
    ⟨.welcome, false, .lockRequest, .locked, some noDoorOpen, some onLocked⟩,
    ⟨.locked, false, .unlockRequest, .welcome, none, some onUnlocked⟩,
    ⟨.welcome, false, .welcomeExpired, .unlocked, none, none⟩,
    ⟨.unlocked, false, .autoLockElapsed, .locked, some noDoorOpen, some onLocked⟩]

structure DoorMgr where
  fsm : Fsm DoorState
  ctx : DoorContext
  welcome : SoftTimer
  autoLock : SoftTimer
  deriving DecidableEq, Repr

namespace DoorMgr

def new : DoorMgr := ⟨.new .locked, .initial, .new, .new⟩

def state (d : DoorMgr) : DoorState := d.fsm.state

def locked (d : DoorMgr) : Bool := decide (d.state = .locked)

def setDoorOpen (d : DoorMgr) (isOpen : Bool) : DoorMgr :=
  { d with ctx := { d.ctx with doorOpen := isOpen } }

def dispatch (d : DoorMgr) (event : DoorEvent) : Bool × DoorMgr :=
  let (fired, fsm, ctx) := d.fsm.dispatch doorTable event d.ctx
  (fired, { d with fsm := fsm, ctx := ctx })

/-- The driver pressed lock. A refusal by the guard is told apart from "no rule for this state" by
the blocked counter. -/
def requestLock (d : DoorMgr) : DoorMgr :=
  let before := d.fsm.blocked
  let (fired, d') := d.dispatch .lockRequest
  if !fired then
    if d'.fsm.blocked ≠ before then { d' with ctx := { d'.ctx with lockRefused := true } } else d'
  else { d' with welcome := d'.welcome.stop, autoLock := d'.autoLock.stop }

def requestUnlock (cfg : Config) (d : DoorMgr) : DoorMgr :=
  let (fired, d') := d.dispatch .unlockRequest
  if fired then
    { d' with welcome := d'.welcome.start cfg.welcomeDurationMs, autoLock := d'.autoLock.stop }
  else d'

/-- The first half of `update`: the welcome timer. -/
def updateWelcome (cfg : Config) (dtMs : Nat) (d : DoorMgr) : DoorMgr :=
  let (expired, welcome) := d.welcome.update dtMs
  let d' := { d with welcome := welcome }
  if expired then
    let (_, d'') := d'.dispatch .welcomeExpired
    { d'' with autoLock := d''.autoLock.start cfg.autoLockDelayMs }
  else d'

/-- The second half of `update`: the auto-lock timer, armed again when the attempt is refused. -/
def updateAutoLock (cfg : Config) (dtMs : Nat) (d : DoorMgr) : DoorMgr :=
  let (expired, autoLock) := d.autoLock.update dtMs
  let d' := { d with autoLock := autoLock }
  if expired then
    let (fired, d'') := d'.dispatch .autoLockElapsed
    if !fired then { d'' with autoLock := d''.autoLock.start cfg.autoLockDelayMs } else d''
  else d'

def update (cfg : Config) (dtMs : Nat) (d : DoorMgr) : DoorMgr :=
  (d.updateWelcome cfg dtMs).updateAutoLock cfg dtMs

/-- The lock lamp shows the locked state, and welcome lighting lifts the daytime lamp. -/
def apply (d : DoorMgr) (out : LampState) : LampState :=
  let out := if d.state = .locked then out.set .doorLock .on else out
  if d.state = .welcome then out.set .drl .on else out

def takeLockRefused (d : DoorMgr) : Bool × DoorMgr :=
  (d.ctx.lockRefused, { d with ctx := { d.ctx with lockRefused := false } })

def takeChirpLock (d : DoorMgr) : Bool × DoorMgr :=
  (d.ctx.chirpLock, { d with ctx := { d.ctx with chirpLock := false } })

def takeChirpUnlock (d : DoorMgr) : Bool × DoorMgr :=
  (d.ctx.chirpUnlock, { d with ctx := { d.ctx with chirpUnlock := false } })

def reset (d : DoorMgr) : DoorMgr :=
  { fsm := d.fsm.setState .locked
    ctx := .initial
    welcome := d.welcome.stop
    autoLock := d.autoLock.stop }

/-! ### What the table does with each event -/

/-- No row into Locked is without the open-door guard. -/
theorem guard_of_target_locked {t : FsmTransition DoorState DoorEvent DoorContext}
    (hmem : t ∈ doorTable) (htarget : t.target = .locked) :
    t.guard = some DoorContext.noDoorOpen := by
  simp only [doorTable, List.mem_cons, List.not_mem_nil, or_false] at hmem
  rcases hmem with rfl | rfl | rfl | rfl | rfl
  · rfl
  · rfl
  · simp at htarget
  · simp at htarget
  · rfl

theorem dispatch_lockRequest (d : DoorMgr) :
    d.dispatch .lockRequest =
      if d.state = .locked then (false, d)
      else if d.ctx.doorOpen then
        (false, { d with fsm := { d.fsm with blocked := d.fsm.blocked + 1 } })
      else
        (true, { d with
          fsm := { d.fsm with state := .locked, transitions := d.fsm.transitions + 1 }
          ctx := d.ctx.onLocked }) := by
  cases hstate : d.fsm.state <;> cases hopen : d.ctx.doorOpen <;>
    simp [dispatch, Fsm.dispatch, doorTable, DoorContext.noDoorOpen, state, hstate, hopen]

theorem dispatch_unlockRequest (d : DoorMgr) :
    d.dispatch .unlockRequest =
      if d.state = .locked then
        (true, { d with
          fsm := { d.fsm with state := .welcome, transitions := d.fsm.transitions + 1 }
          ctx := d.ctx.onUnlocked })
      else (false, d) := by
  cases hstate : d.fsm.state <;> simp [dispatch, Fsm.dispatch, doorTable, state, hstate]

theorem dispatch_welcomeExpired (d : DoorMgr) :
    d.dispatch .welcomeExpired =
      if d.state = .welcome then
        (true, { d with
          fsm := { d.fsm with state := .unlocked, transitions := d.fsm.transitions + 1 } })
      else (false, d) := by
  cases hstate : d.fsm.state <;> simp [dispatch, Fsm.dispatch, doorTable, state, hstate]

theorem dispatch_autoLockElapsed (d : DoorMgr) :
    d.dispatch .autoLockElapsed =
      if d.state ≠ .unlocked then (false, d)
      else if d.ctx.doorOpen then
        (false, { d with fsm := { d.fsm with blocked := d.fsm.blocked + 1 } })
      else
        (true, { d with
          fsm := { d.fsm with state := .locked, transitions := d.fsm.transitions + 1 }
          ctx := d.ctx.onLocked }) := by
  cases hstate : d.fsm.state <;> cases hopen : d.ctx.doorOpen <;>
    simp [dispatch, Fsm.dispatch, doorTable, DoorContext.noDoorOpen, state, hstate, hopen]

/-! ### What the requests and the timers do -/

/-- A lock request locks, whatever the state, unless a door is open. -/
theorem requestLock_state (d : DoorMgr) :
    d.requestLock.state = if d.ctx.doorOpen then d.state else .locked := by
  cases hstate : d.fsm.state <;> cases hopen : d.ctx.doorOpen <;>
    simp [requestLock, dispatch_lockRequest, state, hstate, hopen]

/-- A lock request stops both timers, or leaves them with the state. -/
theorem requestLock_cases (d : DoorMgr) :
    d.requestLock.state = .locked ∧ d.requestLock.welcome = d.welcome.stop ∧
        d.requestLock.autoLock = d.autoLock.stop ∨
      d.requestLock.state = d.state ∧ d.requestLock.welcome = d.welcome ∧
        d.requestLock.autoLock = d.autoLock := by
  cases hstate : d.fsm.state <;> cases hopen : d.ctx.doorOpen <;>
    simp [requestLock, dispatch_lockRequest, state, hstate, hopen]

/-- The open-door guard refuses a lock request, and the refusal is kept to be reported. -/
theorem requestLock_of_open {d : DoorMgr} (hopen : d.ctx.doorOpen = true)
    (hstate : d.state ≠ .locked) :
    d.requestLock.state = d.state ∧ d.requestLock.ctx = { d.ctx with lockRefused := true } := by
  have hrefused : d.dispatch .lockRequest =
      (false, { d with fsm := { d.fsm with blocked := d.fsm.blocked + 1 } }) := by
    rw [dispatch_lockRequest, if_neg hstate, if_pos hopen]
  constructor <;> simp [requestLock, hrefused, state]

/-- With every door shut a lock request locks, and the timers stand still. -/
theorem requestLock_of_shut {d : DoorMgr} (hshut : d.ctx.doorOpen = false)
    (hstate : d.state ≠ .locked) :
    d.requestLock.state = .locked ∧ d.requestLock.ctx = d.ctx.onLocked ∧
      d.requestLock.welcome = d.welcome.stop ∧ d.requestLock.autoLock = d.autoLock.stop := by
  have hopen : ¬d.ctx.doorOpen = true := by
    rw [hshut]
    exact Bool.false_ne_true
  rw [requestLock, dispatch_lockRequest, if_neg hstate, if_neg hopen]
  exact ⟨rfl, rfl, rfl, rfl⟩

theorem requestUnlock_state (cfg : Config) (d : DoorMgr) :
    (d.requestUnlock cfg).state = if d.state = .locked then .welcome else d.state := by
  rw [requestUnlock, dispatch_unlockRequest]
  by_cases hlocked : d.state = .locked
  · rw [if_pos hlocked, if_pos hlocked]
    rfl
  · rw [if_neg hlocked, if_neg hlocked]
    rfl

theorem requestUnlock_ne_locked (cfg : Config) (d : DoorMgr) :
    (d.requestUnlock cfg).state ≠ .locked := by
  rw [requestUnlock_state]
  split
  · decide
  · assumption

theorem requestUnlock_of_unlocked (cfg : Config) {d : DoorMgr} (hstate : d.state ≠ .locked) :
    d.requestUnlock cfg = d := by
  rw [requestUnlock, dispatch_unlockRequest, if_neg hstate]
  rfl

theorem requestUnlock_of_locked (cfg : Config) {d : DoorMgr} (hstate : d.state = .locked) :
    (d.requestUnlock cfg).welcome = d.welcome.start cfg.welcomeDurationMs ∧
      (d.requestUnlock cfg).autoLock = d.autoLock.stop ∧
      (d.requestUnlock cfg).ctx = d.ctx.onUnlocked := by
  rw [requestUnlock, dispatch_unlockRequest, if_pos hstate]
  exact ⟨rfl, rfl, rfl⟩

theorem updateWelcome_of_not_expires (cfg : Config) {dtMs : Nat} {d : DoorMgr}
    (h : d.welcome.expires dtMs = false) :
    d.updateWelcome cfg dtMs = { d with welcome := d.welcome.advance dtMs } := by
  unfold updateWelcome
  dsimp only
  rw [SoftTimer.expires] at h
  rw [h]
  rfl

theorem updateAutoLock_of_not_expires (cfg : Config) {dtMs : Nat} {d : DoorMgr}
    (h : d.autoLock.expires dtMs = false) :
    d.updateAutoLock cfg dtMs = { d with autoLock := d.autoLock.advance dtMs } := by
  unfold updateAutoLock
  dsimp only
  rw [SoftTimer.expires] at h
  rw [h]
  rfl

/-- A call in which neither timer runs out does nothing else. -/
theorem update_of_quiet (cfg : Config) {dtMs : Nat} {d : DoorMgr}
    (hwelcome : d.welcome.expires dtMs = false) (hautoLock : d.autoLock.expires dtMs = false) :
    d.update cfg dtMs =
      { d with welcome := d.welcome.advance dtMs, autoLock := d.autoLock.advance dtMs } := by
  rw [update, updateWelcome_of_not_expires cfg hwelcome]
  exact updateAutoLock_of_not_expires cfg hautoLock

theorem update_state_of_quiet (cfg : Config) {dtMs : Nat} {d : DoorMgr}
    (hwelcome : d.welcome.expires dtMs = false) (hautoLock : d.autoLock.expires dtMs = false) :
    (d.update cfg dtMs).state = d.state := by
  rw [update_of_quiet cfg hwelcome hautoLock]
  rfl

/-- The welcome time runs out into Unlocked, and starts the auto-lock. -/
theorem updateWelcome_eq (cfg : Config) (dtMs : Nat) (d : DoorMgr) :
    (d.updateWelcome cfg dtMs).state =
        (if d.welcome.expires dtMs ∧ d.state = .welcome then .unlocked else d.state) ∧
      (d.updateWelcome cfg dtMs).autoLock =
        (if d.welcome.expires dtMs then d.autoLock.start cfg.autoLockDelayMs else d.autoLock) ∧
      (d.updateWelcome cfg dtMs).ctx = d.ctx := by
  unfold updateWelcome
  dsimp only
  rw [← SoftTimer.expires]
  by_cases hexpires : d.welcome.expires dtMs = true
  · cases hstate : d.fsm.state <;>
      simp [dispatch_welcomeExpired, state, hstate, hexpires]
  · simp [hexpires, state]

@[simp]
theorem updateWelcome_welcome (cfg : Config) (dtMs : Nat) (d : DoorMgr) :
    (d.updateWelcome cfg dtMs).welcome = d.welcome.advance dtMs := by
  unfold updateWelcome
  dsimp only
  split
  · rfl
  · rfl

theorem updateWelcome_of_stopped (cfg : Config) (dtMs : Nat) {d : DoorMgr}
    (h : d.welcome.running = false) : d.updateWelcome cfg dtMs = d := by
  rw [updateWelcome_of_not_expires cfg (SoftTimer.expires_of_stopped h dtMs),
    SoftTimer.advance_of_stopped h]

/-- The auto-lock locks an unlocked door that is shut. An attempt that locks nothing arms it again. -/
theorem updateAutoLock_eq (cfg : Config) (dtMs : Nat) (d : DoorMgr) :
    (d.updateAutoLock cfg dtMs).state =
        (if d.autoLock.expires dtMs ∧ d.state = .unlocked ∧ d.ctx.doorOpen = false then .locked
        else d.state) ∧
      (d.updateAutoLock cfg dtMs).autoLock =
        (if d.autoLock.expires dtMs ∧ ¬(d.state = .unlocked ∧ d.ctx.doorOpen = false) then
          d.autoLock.start cfg.autoLockDelayMs
        else d.autoLock.advance dtMs) := by
  unfold updateAutoLock
  dsimp only
  rw [← SoftTimer.expires]
  by_cases hexpires : d.autoLock.expires dtMs = true
  · cases hstate : d.fsm.state <;> cases hopen : d.ctx.doorOpen <;>
      simp [dispatch_autoLockElapsed, state, hstate, hopen, hexpires, SoftTimer.start,
        SoftTimer.advance]
  · simp [hexpires, state, SoftTimer.advance]

theorem updateAutoLock_state (cfg : Config) (dtMs : Nat) (d : DoorMgr) :
    (d.updateAutoLock cfg dtMs).state =
      if d.autoLock.expires dtMs ∧ d.state = .unlocked ∧ d.ctx.doorOpen = false then .locked
      else d.state :=
  (d.updateAutoLock_eq cfg dtMs).1

@[simp]
theorem updateAutoLock_welcome (cfg : Config) (dtMs : Nat) (d : DoorMgr) :
    (d.updateAutoLock cfg dtMs).welcome = d.welcome := by
  unfold updateAutoLock
  dsimp only
  split
  · split
    · rfl
    · rfl
  · rfl

/-- A door that welcomes goes on to unlocked when its time runs out, and at once on to locked where
the auto-lock has no longer to wait than this call takes. -/
theorem update_state_of_welcome (cfg : Config) (dtMs : Nat) {d : DoorMgr}
    (hstate : d.state = .welcome) :
    (d.update cfg dtMs).state =
      if d.welcome.expires dtMs then
        if (d.autoLock.start cfg.autoLockDelayMs).expires dtMs ∧ d.ctx.doorOpen = false then .locked
        else .unlocked
      else .welcome := by
  obtain ⟨hwelcome, hautoLock, hctx⟩ := d.updateWelcome_eq cfg dtMs
  rw [update, updateAutoLock_state, hwelcome, hautoLock, hctx, hstate]
  by_cases hexpires : d.welcome.expires dtMs = true
  · simp [hexpires]
  · simp [hexpires]

/-- Time does not make a door welcome. -/
theorem update_state_of_not_welcome (cfg : Config) (dtMs : Nat) {d : DoorMgr}
    (hstate : d.state ≠ .welcome) :
    (d.update cfg dtMs).state = d.state ∨ (d.update cfg dtMs).state = .locked := by
  obtain ⟨hwelcome, -, -⟩ := d.updateWelcome_eq cfg dtMs
  rw [if_neg (fun h => hstate h.2)] at hwelcome
  rw [update, updateAutoLock_state, hwelcome]
  split
  · exact Or.inr rfl
  · exact Or.inl rfl

/-- With a door open, time leaves the guard's inputs and flags alone. -/
theorem update_ctx_of_open (cfg : Config) (dtMs : Nat) {d : DoorMgr}
    (hopen : d.ctx.doorOpen = true) : (d.update cfg dtMs).ctx = d.ctx := by
  have hwelcome : (d.updateWelcome cfg dtMs).ctx = d.ctx := by
    unfold updateWelcome
    dsimp only
    split
    · rw [dispatch_welcomeExpired]
      split
      · rfl
      · rfl
    · rfl
  rw [← hwelcome] at hopen
  rw [update, ← hwelcome]
  generalize d.updateWelcome cfg dtMs = d' at hopen
  unfold updateAutoLock
  dsimp only
  split
  · cases hstate : d'.fsm.state <;> simp [dispatch_autoLockElapsed, state, hstate, hopen]
  · rfl

end DoorMgr

end Bcm
