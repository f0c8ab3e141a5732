import Bcm.Door
import Bcm.Lib.Runs
import Bcm.Lib.Stopwatch

/-!
# The timers of the door

Each of the two timers runs in one state and in no other, over every sequence of calls. So a welcome
always ends, and an unlocked door always has an attempt to lock it ahead.

When that attempt comes is another matter. The call that ends the welcome starts the auto-lock and
then advances it by its own time, all of which has passed before the door was unlocked. The wait
that follows is short by that time, and the door is locked too early unless the first attempt finds
a door open, or comes in a call that also reaches the full delay.
-/

namespace Bcm

/-- Everything the rest of the firmware may do to a `DoorMgr`. -/
inductive DoorOp where
  | requestLock
  | requestUnlock
  | setDoorOpen (isOpen : Bool)
  | update (dtMs : Nat)
  | reset
  | takeLockRefused
  | takeChirpLock
  | takeChirpUnlock

def DoorOp.timeMs : DoorOp → Nat
  | .update dtMs => dtMs
  | _ => 0

namespace DoorMgr

open Stopwatch

def exec (cfg : Config) (d : DoorMgr) : DoorOp → DoorMgr
  | .requestLock => d.requestLock
  | .requestUnlock => d.requestUnlock cfg
  | .setDoorOpen isOpen => d.setDoorOpen isOpen
  | .update dtMs => d.update cfg dtMs
  | .reset => d.reset
  | .takeLockRefused => d.takeLockRefused.2
  | .takeChirpLock => d.takeChirpLock.2
  | .takeChirpUnlock => d.takeChirpUnlock.2

def run (cfg : Config) (ops : List DoorOp) : DoorMgr := Runs.run (exec cfg) new ops

def Reachable (cfg : Config) (d : DoorMgr) : Prop :=
  Runs.Reachable (exec cfg) new (fun _ => True) d

theorem reachable_run (cfg : Config) (ops : List DoorOp) : Reachable cfg (run cfg ops) :=
  ⟨ops, fun _ _ => trivial, rfl⟩

/-! ### Both timers are one-shot -/

structure OneShot (d : DoorMgr) : Prop where
  welcome : d.welcome.periodic = false
  autoLock : d.autoLock.periodic = false

theorem OneShot.updateWelcome {d : DoorMgr} (h : OneShot d) (cfg : Config) (dtMs : Nat) :
    OneShot (d.updateWelcome cfg dtMs) := by
  obtain ⟨-, hautoLock, -⟩ := d.updateWelcome_eq cfg dtMs
  constructor
  · rw [updateWelcome_welcome, SoftTimer.advance_periodic]
    exact h.welcome
  · rw [hautoLock]
    split
    · rfl
    · exact h.autoLock

theorem OneShot.updateAutoLock {d : DoorMgr} (h : OneShot d) (cfg : Config) (dtMs : Nat) :
    OneShot (d.updateAutoLock cfg dtMs) := by
  constructor
  · rw [updateAutoLock_welcome]
    exact h.welcome
  · rw [(d.updateAutoLock_eq cfg dtMs).2]
    split
    · rfl
    · rw [SoftTimer.advance_periodic]
      exact h.autoLock

theorem OneShot.exec {d : DoorMgr} (h : OneShot d) (cfg : Config) (op : DoorOp) :
    OneShot (d.exec cfg op) := by
  cases op with
  | requestLock =>
      rcases d.requestLock_cases with ⟨-, hwelcome, hautoLock⟩ | ⟨-, hwelcome, hautoLock⟩
      · exact ⟨by rw [DoorMgr.exec, hwelcome]; exact h.welcome,
          by rw [DoorMgr.exec, hautoLock]; exact h.autoLock⟩
      · exact ⟨by rw [DoorMgr.exec, hwelcome]; exact h.welcome,
          by rw [DoorMgr.exec, hautoLock]; exact h.autoLock⟩
  | requestUnlock =>
      by_cases hlocked : d.state = .locked
      · obtain ⟨hwelcome, hautoLock, -⟩ := requestUnlock_of_locked cfg hlocked
        exact ⟨by rw [DoorMgr.exec, hwelcome]; rfl,
          by rw [DoorMgr.exec, hautoLock]; exact h.autoLock⟩
      · rw [DoorMgr.exec, requestUnlock_of_unlocked cfg hlocked]
        exact h
  | update dtMs => exact (h.updateWelcome cfg dtMs).updateAutoLock cfg dtMs
  | _ => exact ⟨h.welcome, h.autoLock⟩

theorem Reachable.oneShot {cfg : Config} {d : DoorMgr} (h : Reachable cfg d) : OneShot d :=
  h.invariant ⟨rfl, rfl⟩ fun _ op _ hshot => hshot.exec cfg op

/-! ### Each timer has its state -/

/-- The welcome timer runs in Welcome, the auto-lock timer in Unlocked, and neither in Locked. -/
structure TimersMatch (d : DoorMgr) : Prop where
  welcome : d.welcome.running = decide (d.state = .welcome)
  autoLock : d.autoLock.running = decide (d.state = .unlocked)

theorem TimersMatch.state_of_welcome_expires {d : DoorMgr} (h : TimersMatch d) {dtMs : Nat}
    (hexpires : d.welcome.expires dtMs = true) : d.state = .welcome := by
  have hrunning := (SoftTimer.expires_eq_true_iff.mp hexpires).1
  rw [h.welcome] at hrunning
  exact of_decide_eq_true hrunning

theorem TimersMatch.state_of_autoLock_expires {d : DoorMgr} (h : TimersMatch d) {dtMs : Nat}
    (hexpires : d.autoLock.expires dtMs = true) : d.state = .unlocked := by
  have hrunning := (SoftTimer.expires_eq_true_iff.mp hexpires).1
  rw [h.autoLock] at hrunning
  exact of_decide_eq_true hrunning

theorem TimersMatch.requestLock {d : DoorMgr} (h : TimersMatch d) : TimersMatch d.requestLock := by
  rcases d.requestLock_cases with ⟨hstate, hwelcome, hautoLock⟩ | ⟨hstate, hwelcome, hautoLock⟩
  · constructor
    · rw [hstate, hwelcome]
      rfl
    · rw [hstate, hautoLock]
      rfl
  · constructor
    · rw [hstate, hwelcome]
      exact h.welcome
    · rw [hstate, hautoLock]
      exact h.autoLock

theorem TimersMatch.requestUnlock {cfg : Config} (hduration : 0 < cfg.welcomeDurationMs)
    {d : DoorMgr} (h : TimersMatch d) : TimersMatch (d.requestUnlock cfg) := by
  by_cases hlocked : d.state = .locked
  · obtain ⟨hwelcome, hautoLock, -⟩ := requestUnlock_of_locked cfg hlocked
    have hstate := d.requestUnlock_state cfg
    rw [if_pos hlocked] at hstate
    constructor
    · rw [hstate, hwelcome, SoftTimer.start_running]
      simpa using hduration
    · rw [hstate, hautoLock]
      rfl
  · rw [requestUnlock_of_unlocked cfg hlocked]
    exact h

/-- The end of the welcome hands over from one timer to the other. -/
theorem TimersMatch.updateWelcome {cfg : Config} (hdelay : 0 < cfg.autoLockDelayMs) (dtMs : Nat)
    {d : DoorMgr} (h : TimersMatch d) (hshot : OneShot d) :
    TimersMatch (d.updateWelcome cfg dtMs) := by
  obtain ⟨hstate, hautoLock, -⟩ := d.updateWelcome_eq cfg dtMs
  have hrunning := SoftTimer.advance_running hshot.welcome dtMs
  rw [← updateWelcome_welcome cfg] at hrunning
  cases hexpires : d.welcome.expires dtMs with
  | true =>
      rw [if_pos ⟨hexpires, h.state_of_welcome_expires hexpires⟩] at hstate
      rw [if_pos hexpires] at hautoLock
      constructor
      · rw [hrunning, hexpires, hstate, Bool.not_true, Bool.and_false]
        rfl
      · rw [hautoLock, hstate, SoftTimer.start_running]
        simpa using hdelay
  | false =>
      rw [if_neg (by simp [hexpires])] at hstate hautoLock
      constructor
      · rw [hrunning, hexpires, hstate, Bool.not_false, Bool.and_true]
        exact h.welcome
      · rw [hautoLock, hstate]
        exact h.autoLock

/-- An attempt to lock stops the auto-lock timer, or is refused and starts it again. -/
theorem TimersMatch.updateAutoLock {cfg : Config} (hdelay : 0 < cfg.autoLockDelayMs) (dtMs : Nat)
    {d : DoorMgr} (h : TimersMatch d) (hshot : OneShot d) :
    TimersMatch (d.updateAutoLock cfg dtMs) := by
  obtain ⟨hstate, hautoLock⟩ := d.updateAutoLock_eq cfg dtMs
  have hrunning := SoftTimer.advance_running hshot.autoLock dtMs
  cases hexpires : d.autoLock.expires dtMs with
  | false =>
      rw [if_neg (by simp [hexpires])] at hstate hautoLock
      constructor
      · rw [updateAutoLock_welcome, hstate]
        exact h.welcome
      · rw [hautoLock, hstate, hrunning, hexpires, Bool.not_false, Bool.and_true]
        exact h.autoLock
  | true =>
      have hunlocked := h.state_of_autoLock_expires hexpires
      have hwelcome := h.welcome
      rw [hunlocked] at hwelcome
      cases hopen : d.ctx.doorOpen with
      | false =>
          rw [if_pos ⟨hexpires, hunlocked, hopen⟩] at hstate
          rw [if_neg (by simp [hunlocked, hopen])] at hautoLock
          constructor
          · rw [updateAutoLock_welcome, hstate, hwelcome]
            rfl
          · rw [hautoLock, hstate, hrunning, hexpires, Bool.not_true, Bool.and_false]
            rfl
      | true =>
          rw [if_neg (by simp [hopen]), hunlocked] at hstate
          rw [if_pos ⟨hexpires, by simp [hopen]⟩] at hautoLock
          constructor
          · rw [updateAutoLock_welcome, hstate, hwelcome]
          · rw [hautoLock, hstate, SoftTimer.start_running]
            simpa using hdelay

theorem TimersMatch.exec {cfg : Config} (hduration : 0 < cfg.welcomeDurationMs)
    (hdelay : 0 < cfg.autoLockDelayMs) {d : DoorMgr} (h : TimersMatch d) (hshot : OneShot d)
    (op : DoorOp) : TimersMatch (d.exec cfg op) := by
  cases op with
  | requestLock => exact h.requestLock
  | requestUnlock => exact h.requestUnlock hduration
  | update dtMs =>
      have hhalf := h.updateWelcome hdelay dtMs hshot
      exact hhalf.updateAutoLock hdelay dtMs (hshot.updateWelcome cfg dtMs)
  | reset => exact ⟨rfl, rfl⟩
  | _ => exact ⟨h.welcome, h.autoLock⟩

theorem Reachable.timersMatch {cfg : Config} (hduration : 0 < cfg.welcomeDurationMs)
    (hdelay : 0 < cfg.autoLockDelayMs) {d : DoorMgr} (h : Reachable cfg d) : TimersMatch d := by
  have hboth : OneShot d ∧ TimersMatch d := by
    refine h.invariant (I := fun d => OneShot d ∧ TimersMatch d) ⟨⟨rfl, rfl⟩, ⟨rfl, rfl⟩⟩ ?_
    rintro d op - ⟨hshot, hmatch⟩
    exact ⟨hshot.exec cfg op, hmatch.exec hduration hdelay hshot op⟩
  exact hboth.2

/-- The event an expired welcome raises. -/
def raiseWelcomeExpired (dtMs : Nat) (d : DoorMgr) : Bool :=
  ({ d with welcome := d.welcome.advance dtMs }.dispatch .welcomeExpired).1

theorem raiseWelcomeExpired_of_welcome {d : DoorMgr} (hstate : d.state = .welcome) (dtMs : Nat) :
    raiseWelcomeExpired dtMs d = true := by
  have hfires : ({ d with welcome := d.welcome.advance dtMs } : DoorMgr).state = .welcome := hstate
  rw [raiseWelcomeExpired, dispatch_welcomeExpired, if_pos hfires]

/-- **The door timers always match the door.** And a welcome that expires finds the door in
Welcome, so that its event fires. -/
theorem run_timersMatch {cfg : Config} (hduration : 0 < cfg.welcomeDurationMs)
    (hdelay : 0 < cfg.autoLockDelayMs) (ops : List DoorOp) :
    TimersMatch (run cfg ops) ∧
      ∀ dtMs, (run cfg ops).welcome.expires dtMs = true →
        raiseWelcomeExpired dtMs (run cfg ops) = true := by
  have hmatch := (reachable_run cfg ops).timersMatch hduration hdelay
  refine ⟨hmatch, fun dtMs hexpires => ?_⟩
  exact raiseWelcomeExpired_of_welcome (hmatch.state_of_welcome_expires hexpires) dtMs

theorem run_timersMatch_shipped :
    TimersMatch (run .shipped [.requestUnlock, .update 5]) ∧
      ∀ dtMs, (run .shipped [.requestUnlock, .update 5]).welcome.expires dtMs = true →
        raiseWelcomeExpired dtMs (run .shipped [.requestUnlock, .update 5]) = true :=
  run_timersMatch (by decide) (by decide) [.requestUnlock, .update 5]

/-! ### The wait for the auto-lock -/

/-- Neither a lock or unlock request nor a reset. -/
def Waits : DoorOp → Prop
  | .requestLock | .requestUnlock | .reset => False
  | _ => True

def flagAfter (isOpen : Bool) : DoorOp → Bool
  | .setDoorOpen isOpen => isOpen
  | _ => isOpen

/-- The open-door flag after the calls. -/
def openAfter (isOpen : Bool) (ops : List DoorOp) : Bool := ops.foldl flagAfter isOpen

/-- Unlocked, with a time to go until the next attempt to lock. -/
structure Waiting (remainingMs : Nat) (isOpen : Bool) (d : DoorMgr) : Prop where
  state : d.state = .unlocked
  welcome : d.welcome.running = false
  running : d.autoLock.running = true
  shot : d.autoLock.periodic = false
  remaining : d.autoLock.remaining = remainingMs
  doorOpen : d.ctx.doorOpen = isOpen

namespace Waiting

variable {cfg : Config} {remainingMs dtMs : Nat} {isOpen : Bool} {d : DoorMgr}

theorem update_eq (h : Waiting remainingMs isOpen d) :
    d.update cfg dtMs = d.updateAutoLock cfg dtMs := by
  rw [update, updateWelcome_of_stopped cfg dtMs h.welcome]

theorem expires_iff (h : Waiting remainingMs isOpen d) :
    d.autoLock.expires dtMs = true ↔ remainingMs ≤ dtMs := by
  rw [SoftTimer.expires_eq_true_iff, h.remaining]
  exact and_iff_right h.running

/-- The time runs down. -/
theorem update_of_lt (h : Waiting remainingMs isOpen d) (hlt : dtMs < remainingMs) :
    Waiting (remainingMs - dtMs) isOpen (d.update cfg dtMs) := by
  have hexpires : d.autoLock.expires dtMs = false := by
    rw [← Bool.not_eq_true, h.expires_iff]
    omega
  rw [h.update_eq, updateAutoLock_of_not_expires cfg hexpires,
    SoftTimer.advance_of_not_expires h.running hexpires]
  exact ⟨h.state, h.welcome, h.running, h.shot, by rw [h.remaining], h.doorOpen⟩

/-- An attempt that finds a door open is put off by the full delay. -/
theorem update_of_open (h : Waiting remainingMs true d) (hle : remainingMs ≤ dtMs)
    (hdelay : 0 < cfg.autoLockDelayMs) :
    Waiting cfg.autoLockDelayMs true (d.update cfg dtMs) := by
  have hexpires : d.autoLock.expires dtMs = true := h.expires_iff.mpr hle
  obtain ⟨hstate, hautoLock⟩ := d.updateAutoLock_eq cfg dtMs
  have hctx := update_ctx_of_open cfg dtMs h.doorOpen
  rw [if_neg (by simp [h.doorOpen])] at hstate
  rw [if_pos ⟨hexpires, by simp [h.doorOpen]⟩] at hautoLock
  rw [h.update_eq] at hctx ⊢
  constructor
  · rw [hstate, h.state]
  · rw [updateAutoLock_welcome, h.welcome]
  · rw [hautoLock, SoftTimer.start_running]
    simpa using hdelay
  · rw [hautoLock, SoftTimer.start_periodic]
  · rw [hautoLock, SoftTimer.start_remaining]
  · rw [hctx, h.doorOpen]

/-- An attempt that finds every door closed locks. -/
theorem update_of_closed (h : Waiting remainingMs false d) (hle : remainingMs ≤ dtMs) :
    (d.update cfg dtMs).state = .locked := by
  rw [h.update_eq, updateAutoLock_state,
    if_pos ⟨h.expires_iff.mpr hle, h.state, h.doorOpen⟩]

/-- Until the time has run down nothing changes but the flag. -/
theorem run_of_lt {ops : List DoorOp} (h : Waiting remainingMs isOpen d)
    (hops : ∀ op ∈ ops, Waits op) (hlt : total DoorOp.timeMs ops < remainingMs) :
    Waiting (remainingMs - total DoorOp.timeMs ops) (openAfter isOpen ops)
      (Runs.run (exec cfg) d ops) := by
  induction ops generalizing remainingMs isOpen d with
  | nil => exact h
  | cons op ops ih =>
      have hlater : ∀ op ∈ ops, Waits op := fun op hop => hops op (List.mem_cons_of_mem _ hop)
      have hnow : Waits op := hops op (by simp)
      rw [total_cons] at hlt ⊢
      rw [Runs.run_cons, ← Nat.sub_sub]
      have hlt' : total DoorOp.timeMs ops < remainingMs - op.timeMs := by omega
      refine ih ?_ hlater hlt'
      cases op with
      | requestLock => exact absurd hnow id
      | requestUnlock => exact absurd hnow id
      | reset => exact absurd hnow id
      | update dtMs =>
          rw [DoorOp.timeMs] at hlt
          have hfirst : dtMs < remainingMs := by omega
          exact h.update_of_lt hfirst
      | setDoorOpen isOpen => exact ⟨h.state, h.welcome, h.running, h.shot, h.remaining, rfl⟩
      | _ => exact ⟨h.state, h.welcome, h.running, h.shot, h.remaining, h.doorOpen⟩

end Waiting

/-- The call moves the door from Welcome to Unlocked, in its first half. -/
def EndsWelcome (cfg : Config) (dtMs : Nat) (d : DoorMgr) : Prop :=
  d.state = .welcome ∧ (d.updateWelcome cfg dtMs).state = .unlocked

/-- The door is unlocked when the call that ends the welcome returns, and stays so for as long as
the calls after it take less than the delay. -/
def StaysUnlocked (cfg : Config) (dtMs : Nat) (ops : List DoorOp) (d : DoorMgr) : Prop :=
  (d.update cfg dtMs).state = .unlocked ∧
    ∀ front, front <+: ops → total DoorOp.timeMs front < cfg.autoLockDelayMs →
      (Runs.run (exec cfg) (d.update cfg dtMs) front).state = .unlocked

/-- The first attempt comes when the time, counted from the start of the call that ends the welcome,
comes to the delay. It finds a door open, or the time counted from the end of that call comes to the
delay as well. -/
def FirstAttemptInTime (cfg : Config) (dtMs : Nat) (isOpen : Bool) (ops : List DoorOp) : Prop :=
  ∀ front lastMs, front ++ [.update lastMs] <+: .update dtMs :: ops →
    total DoorOp.timeMs front < cfg.autoLockDelayMs →
      cfg.autoLockDelayMs ≤ total DoorOp.timeMs front + lastMs →
        openAfter isOpen front = true ∨
          dtMs + cfg.autoLockDelayMs ≤ total DoorOp.timeMs front + lastMs

theorem EndsWelcome.expires {cfg : Config} {dtMs : Nat} {d : DoorMgr} (h : EndsWelcome cfg dtMs d) :
    d.welcome.expires dtMs = true := by
  obtain ⟨hwelcome, hunlocked⟩ := h
  have hstate := (d.updateWelcome_eq cfg dtMs).1
  by_contra hno
  rw [if_neg (fun hboth => hno hboth.1), hunlocked, hwelcome] at hstate
  exact absurd hstate (by decide)

/-- The auto-lock is armed with its full delay before the call's own time is taken off it. -/
theorem EndsWelcome.waiting {cfg : Config} (hdelay : 0 < cfg.autoLockDelayMs) {dtMs : Nat}
    {d : DoorMgr} (h : EndsWelcome cfg dtMs d) (hshot : d.welcome.periodic = false) :
    Waiting cfg.autoLockDelayMs d.ctx.doorOpen (d.updateWelcome cfg dtMs) := by
  obtain ⟨-, hautoLock, hctx⟩ := d.updateWelcome_eq cfg dtMs
  rw [if_pos h.expires] at hautoLock
  constructor
  · exact h.2
  · rw [updateWelcome_welcome, SoftTimer.advance_of_expires hshot h.expires]
  · rw [hautoLock, SoftTimer.start_running]
    simpa using hdelay
  · rw [hautoLock, SoftTimer.start_periodic]
  · rw [hautoLock, SoftTimer.start_remaining]
  · rw [hctx]

/-- A delay of zero leaves the auto-lock stopped. -/
theorem EndsWelcome.update_of_zero {cfg : Config} {dtMs : Nat} {d : DoorMgr}
    (h : EndsWelcome cfg dtMs d) (hzero : cfg.autoLockDelayMs = 0) :
    (d.update cfg dtMs).state = .unlocked := by
  obtain ⟨hwelcome, hunlocked⟩ := h
  have hstate := update_state_of_welcome cfg dtMs hwelcome
  have hstopped : (d.autoLock.start cfg.autoLockDelayMs).expires dtMs = false := by
    apply SoftTimer.expires_of_stopped
    rw [SoftTimer.start_running, hzero]
    rfl
  rw [hstopped, EndsWelcome.expires ⟨hwelcome, hunlocked⟩, if_pos rfl] at hstate
  simpa using hstate

/-- The attempt that ends the wait finds a door open, or locks. -/
theorem Waiting.run_attempt {cfg : Config} {remainingMs : Nat} {isOpen : Bool} {d : DoorMgr}
    (h : Waiting remainingMs isOpen d) (hdelay : 0 < cfg.autoLockDelayMs) {front : List DoorOp}
    (hfront : ∀ op ∈ front, Waits op) (hlt : total DoorOp.timeMs front < remainingMs) {lastMs : Nat}
    (hle : remainingMs ≤ total DoorOp.timeMs front + lastMs) :
    if openAfter isOpen front then
      Waiting cfg.autoLockDelayMs true (Runs.run (exec cfg) d (front ++ [.update lastMs]))
    else (Runs.run (exec cfg) d (front ++ [.update lastMs])).state = .locked := by
  have hbefore : Waiting (remainingMs - total DoorOp.timeMs front) (openAfter isOpen front)
      (Runs.run (exec cfg) d front) := h.run_of_lt hfront hlt
  have hlast : remainingMs - total DoorOp.timeMs front ≤ lastMs := by omega
  rw [Runs.run_concat]
  cases hopen : openAfter isOpen front with
  | true =>
      rw [hopen] at hbefore
      exact hbefore.update_of_open hlast hdelay
  | false =>
      rw [hopen] at hbefore
      exact hbefore.update_of_closed hlast

/-- The first call of those that take the time to a bound is an update. -/
theorem exists_attempt {boundMs : Nat} (hbound : 0 < boundMs) {ops : List DoorOp}
    (h : boundMs ≤ total DoorOp.timeMs ops) :
    ∃ front lastMs back, ops = front ++ [.update lastMs] ++ back ∧
      total DoorOp.timeMs front < boundMs ∧ boundMs ≤ total DoorOp.timeMs front + lastMs := by
  obtain ⟨front, op, back, heq, hlt, hle⟩ := exists_crossing DoorOp.timeMs hbound h
  cases op with
  | update lastMs => exact ⟨front, lastMs, back, by simpa using heq, hlt, hle⟩
  | _ =>
      have hnone : boundMs ≤ total DoorOp.timeMs front := hle
      omega

theorem exists_cons_of_prefix {front ops : List DoorOp} {first last : DoorOp}
    (h : front ++ [last] <+: first :: ops) :
    ∃ calls, front ++ [last] = first :: calls ∧ calls <+: ops := by
  cases front with
  | nil =>
      obtain ⟨rfl, -⟩ := List.cons_prefix_cons.mp h
      exact ⟨[], rfl, List.nil_prefix⟩
  | cons op front =>
      obtain ⟨rfl, hcalls⟩ := List.cons_prefix_cons.mp h
      exact ⟨front ++ [last], rfl, hcalls⟩

theorem waits_cons_update {ops calls : List DoorOp} (hops : ∀ op ∈ ops, Waits op)
    (hcalls : calls <+: ops) (dtMs : Nat) : ∀ op ∈ .update dtMs :: calls, Waits op := by
  intro op hop
  rcases List.mem_cons.mp hop with rfl | hlater
  · trivial
  · exact hops op (hcalls.subset hlater)

/-- What is left of the call that ends the welcome is an update of a door that is waiting. -/
theorem EndsWelcome.run_eq {cfg : Config} (hdelay : 0 < cfg.autoLockDelayMs) {dtMs : Nat}
    {d : DoorMgr} (h : EndsWelcome cfg dtMs d) (hshot : d.welcome.periodic = false)
    (calls : List DoorOp) :
    Runs.run (exec cfg) (d.update cfg dtMs) calls =
      Runs.run (exec cfg) (d.updateWelcome cfg dtMs) (.update dtMs :: calls) := by
  rw [Runs.run_cons, exec, (h.waiting hdelay hshot).update_eq, update]

theorem StaysUnlocked.firstAttemptInTime {cfg : Config} (hdelay : 0 < cfg.autoLockDelayMs)
    {dtMs : Nat} {d : DoorMgr} (hends : EndsWelcome cfg dtMs d)
    (hshot : d.welcome.periodic = false) {ops : List DoorOp} (hops : ∀ op ∈ ops, Waits op)
    (h : StaysUnlocked cfg dtMs ops d) : FirstAttemptInTime cfg dtMs d.ctx.doorOpen ops := by
  intro front lastMs hattempt hlt hle
  by_contra hneither
  rw [not_or, Bool.not_eq_true] at hneither
  obtain ⟨calls, hcons, hcalls⟩ := exists_cons_of_prefix hattempt
  have hfront : ∀ op ∈ front, Waits op := by
    intro op hop
    apply waits_cons_update hops hcalls dtMs
    rw [← hcons]
    exact List.mem_append_left _ hop
  have hlocked := (hends.waiting hdelay hshot).run_attempt hdelay hfront hlt hle
  rw [hneither.1, if_neg Bool.false_ne_true, hcons] at hlocked
  have helapsed := congrArg (total DoorOp.timeMs) hcons
  simp only [total_append, total_cons, total_nil, DoorOp.timeMs] at helapsed
  have hunlocked := h.2 calls hcalls (by omega)
  rw [hends.run_eq hdelay hshot, hlocked] at hunlocked
  exact absurd hunlocked (by decide)

/-- An attempt in time finds a door open, and what it starts again lasts beyond the delay. -/
theorem FirstAttemptInTime.run_state {cfg : Config} (hdelay : 0 < cfg.autoLockDelayMs)
    {dtMs : Nat} {d : DoorMgr} (hends : EndsWelcome cfg dtMs d)
    (hshot : d.welcome.periodic = false) {ops : List DoorOp} (hops : ∀ op ∈ ops, Waits op)
    (h : FirstAttemptInTime cfg dtMs d.ctx.doorOpen ops) {calls : List DoorOp}
    (hcalls : calls <+: ops) (hlt : total DoorOp.timeMs calls < cfg.autoLockDelayMs) :
    (Runs.run (exec cfg) (d.update cfg dtMs) calls).state = .unlocked := by
  have hstart := hends.waiting hdelay hshot
  have hwaits := waits_cons_update hops hcalls dtMs
  rw [hends.run_eq hdelay hshot]
  by_cases hearly : total DoorOp.timeMs (.update dtMs :: calls) < cfg.autoLockDelayMs
  · exact (hstart.run_of_lt hwaits hearly).state
  obtain ⟨front, lastMs, back, heq, hfront, hle⟩ :=
    exists_attempt hdelay (Nat.le_of_not_lt hearly)
  have hattempt : front ++ [.update lastMs] <+: .update dtMs :: ops := by
    refine List.IsPrefix.trans ⟨back, heq.symm⟩ ?_
    exact List.cons_prefix_cons.mpr ⟨rfl, hcalls⟩
  obtain ⟨first, hcons, -⟩ := exists_cons_of_prefix hattempt
  have helapsed := congrArg (total DoorOp.timeMs) heq
  have hfirst := congrArg (total DoorOp.timeMs) hcons
  simp only [total_append, total_cons, total_nil, DoorOp.timeMs] at helapsed hfirst
  have hopen := (h front lastMs hattempt hfront hle).resolve_right (by omega)
  rw [heq] at hwaits ⊢
  have hagain := hstart.run_attempt hdelay (fun op hop => hwaits op (by simp [hop])) hfront hle
  rw [hopen, if_pos rfl] at hagain
  rw [Runs.run_append]
  exact (hagain.run_of_lt (fun op hop => hwaits op (by simp [hop])) (by omega)).state

/-- **When the auto-lock waits its full delay.** -/
theorem staysUnlocked_iff {cfg : Config} {d : DoorMgr} (hreachable : Reachable cfg d) {dtMs : Nat}
    (hends : EndsWelcome cfg dtMs d) {ops : List DoorOp} (hops : ∀ op ∈ ops, Waits op) :
    StaysUnlocked cfg dtMs ops d ↔ FirstAttemptInTime cfg dtMs d.ctx.doorOpen ops := by
  have hshot := hreachable.oneShot.welcome
  rcases Nat.eq_zero_or_pos cfg.autoLockDelayMs with hzero | hdelay
  · -- there is no time to wait
    refine iff_of_true ⟨hends.update_of_zero hzero, ?_⟩ ?_
    · intro front _ hlt
      omega
    · intro front lastMs _ hlt
      omega
  constructor
  · exact fun hstays => hstays.firstAttemptInTime hdelay hends hshot hops
  · intro htime
    constructor
    · exact htime.run_state hdelay hends hshot hops List.nil_prefix hdelay
    · exact fun calls hcalls hlt => htime.run_state hdelay hends hshot hops hcalls hlt

theorem staysUnlocked_iff_shipped :
    StaysUnlocked .shipped 2000 [.update 900] (run .shipped [.requestUnlock]) ↔
      FirstAttemptInTime .shipped 2000 false [.update 900] :=
  staysUnlocked_iff (reachable_run .shipped [.requestUnlock]) ⟨by decide, by decide⟩
    (by simp [Waits])

/-- With the welcome ended by one call of its full 2000 ms, the door locks again a second later. -/
theorem not_staysUnlocked_shipped :
    EndsWelcome .shipped 2000 (run .shipped [.requestUnlock]) ∧
      ¬ StaysUnlocked .shipped 2000 [.update 1000] (run .shipped [.requestUnlock]) := by
  refine ⟨⟨by decide, by decide⟩, fun hstays => ?_⟩
  have hunlocked := hstays.2 [.update 1000] (List.prefix_refl _) (by decide)
  exact absurd hunlocked (by decide)

end DoorMgr

end Bcm
