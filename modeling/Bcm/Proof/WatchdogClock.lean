import Bcm.Proof.WatchdogGate
import Bcm.WatchdogClock
import Mathlib.Data.Fintype.Basic

/-!
# The watchdog in time

Two bounds on one clock. A task that stops checking in lets the watchdog run out within two of its
windows, whatever the other tasks do. As long as every task checks in within a time shorter than the
window, and the subsystems are healthy, the watchdog is never left alone for longer than that time
or the period of the supervisor.
-/

namespace Bcm

namespace Watchdog

/-- The counter starts with the window that the application asks for, to within a hundredth. -/
theorem windowMs_reload : windowMs (reload kWatchdogTimeoutMs) = 1005 := by decide

end Watchdog

namespace RtosApp

variable {G : Type} {E : EventGroup G 32}

theorem waiting_decideRefresh (a : RtosApp G) : (a.decideRefresh E).waiting = false := by
  unfold decideRefresh
  dsimp only
  split
  · rfl
  · rfl

theorem exec_wait {a : RtosApp G} (h : a.waiting = false) :
    a.exec E .wait = if a.AllIn E then a.decideRefresh E else { a with waiting := true } := by
  unfold exec
  dsimp only
  rw [if_neg (by rw [h]; decide)]

theorem exec_timeOut {a : RtosApp G} (h : a.waiting = true) :
    a.exec E .timeOut = a.decideRefresh E := by
  unfold exec
  dsimp only
  rw [if_pos h]

/-- The bits the supervisor waits for are those of the tasks. -/
theorem allIn_iff (a : RtosApp G) :
    a.AllIn E ↔ ∀ id : TaskId, E.pending a.checkin id.toNat = 1 := by
  have hpending : ∀ id : TaskId, E.pending a.checkin id.toNat = 1 ↔
      (E.value a.checkin).getLsbD id.toNat = true := by
    intro id
    unfold EventGroup.pending
    split <;> simp_all
  simp only [hpending]
  unfold AllIn
  constructor
  · intro hall id
    have hbit := congrArg (fun bits => bits.getLsbD id.toNat) hall
    simpa [kCheckInAll_getLsbD] using hbit
  · intro hset
    apply BitVec.eq_of_getLsbD_eq
    intro i hi
    rw [BitVec.getLsbD_and]
    by_cases htask : ∃ id : TaskId, id.toNat = i
    · obtain ⟨id, rfl⟩ := htask
      rw [hset id, Bool.true_and]
    · have hnone : kCheckInAll.getLsbD i = false := by
        have hlow : 4 ≤ i := by
          by_contra hlt
          have hcases : i = 0 ∨ i = 1 ∨ i = 2 ∨ i = 3 := by omega
          rcases hcases with rfl | rfl | rfl | rfl
          · exact htask ⟨.control, rfl⟩
          · exact htask ⟨.sensor, rfl⟩
          · exact htask ⟨.logger, rfl⟩
          · exact htask ⟨.monitor, rfl⟩
        have hmask : kCheckInAll = 15#32 := by decide
        rw [hmask, BitVec.getLsbD_ofNat, Nat.testBit_lt_two_pow]
        · simp
        · exact Nat.lt_of_lt_of_le (by decide) (Nat.pow_le_pow_right (by decide) hlow)
      rw [hnone, Bool.and_false]

end RtosApp

instance : Fintype TaskId where
  elems := {.control, .sensor, .logger, .monitor}
  complete id := by cases id <;> decide

namespace WatchdogClock

open RtosApp

variable {G : Type} {E : EventGroup G 32} {K : PeriodicDelay}

/-! ### Every task checks in on time -/

/-- The subsystems are healthy, and no task is silent for longer than this. -/
def OnTime (maxMs : Nat) (s : WatchdogClock G) : Action → Prop
  | .tick => s.app.diag.healthy = true ∧ ∀ id, s.now + 1 ≤ s.checkedAt id + maxMs
  | .checkIn _ => s.app.diag.healthy = true
  | .setHealth _ _ => True

instance (maxMs : Nat) (s : WatchdogClock G) (action : Action) :
    Decidable (OnTime maxMs s action) :=
  match action with
  | .tick => inferInstanceAs (Decidable (_ ∧ ∀ _ : TaskId, _))
  | .checkIn _ => inferInstanceAs (Decidable (_ = _))
  | .setHealth _ _ => inferInstanceAs (Decidable True)

/-- What is recorded of the past. A task whose bit is not there has not checked in since the last
refresh. -/
structure Recorded (E : EventGroup G 32) (maxMs : Nat) (s : WatchdogClock G) : Prop where
  refreshed : s.refreshedAt ≤ s.now
  checked : ∀ id, s.checkedAt id ≤ s.now ∧ s.now ≤ s.checkedAt id + maxMs
  counted : ∀ id : TaskId, E.pending s.app.checkin id.toNat = 1 ∨ s.checkedAt id ≤ s.refreshedAt

/-- The task is in its wait, with a check-in missing, or in its delay after a refresh. -/
structure Timely (E : EventGroup G 32) (maxMs : Nat) (s : WatchdogClock G) : Prop
    extends Recorded E maxMs s where
  waiting : s.app.waiting = true →
    ¬s.app.AllIn E ∧ s.last ≤ s.now ∧ s.wakeAt = s.last + kWatchdogPeriod
  delayed : s.app.waiting = false →
    s.wakeAt = s.last ∧ s.last ≤ s.refreshedAt + kWatchdogPeriod
  due : s.now ≤ s.wakeAt

theorem Timely.starved_le {maxMs : Nat} {s : WatchdogClock G} (h : Timely E maxMs s) :
    s.starved ≤ max kWatchdogPeriod maxMs := by
  unfold starved
  cases hphase : s.app.waiting with
  | true =>
      obtain ⟨hmissing, -, -⟩ := h.waiting hphase
      rw [allIn_iff, not_forall] at hmissing
      obtain ⟨id, hid⟩ := hmissing
      have hbefore : s.checkedAt id ≤ s.refreshedAt := (h.counted id).resolve_left hid
      have hpunctual := (h.checked id).2
      omega
  | false =>
      obtain ⟨hwake, hlast⟩ := h.delayed hphase
      have hdue := h.due
      omega

theorem pending_checkIn (hE : E.Lawful) (a : G) (id other : TaskId) :
    E.pending (E.setBits a id.bit) other.toNat = 1 ∨
      other ≠ id ∧ E.pending (E.setBits a id.bit) other.toNat = E.pending a other.toNat := by
  by_cases hsame : other = id
  · left
    have hset : (E.value (E.setBits a id.bit)).getLsbD other.toNat = true := by
      rw [hE.value_setBits, BitVec.getLsbD_or, hsame]
      have hbit : id.bit.getLsbD id.toNat = true := by cases id <;> decide
      rw [hbit, Bool.or_true]
    unfold EventGroup.pending
    rw [if_pos hset]
  · right
    exact ⟨hsame, hE.pending_setBits a (TaskId.bit_getLsbD fun heq => hsame heq.symm)⟩

theorem exec_checkIn_eq {s : WatchdogClock G} {id : TaskId} {app : RtosApp G}
    (happ : s.app.exec E (.checkIn id) = app) :
    s.exec E K (.checkIn id) =
      if s.app.waiting ∧ !app.waiting then
        endWait K { s with checkedAt := Function.update s.checkedAt id s.now } app
      else { s with app := app, checkedAt := Function.update s.checkedAt id s.now } := by
  subst happ
  rfl

section

variable (hK : K.Lawful) {maxMs : Nat} {s : WatchdogClock G}

include hK

theorem endWait_eq (app : RtosApp G) :
    s.endWait K app =
      { s with
        app := app
        last := s.last + kWatchdogPeriod
        wakeAt := max s.now (s.last + kWatchdogPeriod)
        refreshedAt := if app.refreshes = s.app.refreshes then s.refreshedAt else s.now } := by
  have hresult : K.delayUntil s.last kWatchdogPeriod s.now =
      (s.last + kWatchdogPeriod, max s.now (s.last + kWatchdogPeriod)) :=
    Prod.ext (hK.due ..) (hK.goesOn ..)
  unfold endWait
  rw [hresult]

variable (hE : E.Lawful)

include hE

/-- A wait that is satisfied refreshes, and the delay after it is not over. -/
theorem timely_of_refresh {app : RtosApp G} (hchecked : ∀ id, s.checkedAt id ≤ s.now ∧
      s.now ≤ s.checkedAt id + maxMs) (hall : app.AllIn E) (hgood : app.diag.healthy = true)
    (hsame : app.refreshes = s.app.refreshes) (hlast : s.last ≤ s.now)
    (hdue : s.now < s.last + kWatchdogPeriod) :
    Timely E maxMs (s.endWait K (app.decideRefresh E)) ∧
      (s.endWait K (app.decideRefresh E)).now < (s.endWait K (app.decideRefresh E)).wakeAt := by
  have hrefreshes := (refreshes_decideRefresh hE app).mpr ⟨hall, hgood⟩
  have hmore : (app.decideRefresh E).refreshes ≠ s.app.refreshes := by omega
  have hidle := waiting_decideRefresh (E := E) app
  rw [endWait_eq hK, if_neg hmore]
  refine ⟨⟨⟨le_rfl, hchecked, fun id => Or.inr (hchecked id).1⟩, ?_, ?_, ?_⟩, ?_⟩
  · intro hwaiting
    dsimp only at hwaiting
    rw [hidle] at hwaiting
    exact absurd hwaiting Bool.false_ne_true
  · intro _
    exact ⟨max_eq_right hdue.le, by dsimp only; omega⟩
  · exact le_max_left _ _
  · exact hdue.trans_le (le_max_right _ _)

/-- The task comes to its wait just when it is due. -/
theorem timely_startWait (hrecorded : Recorded E maxMs s) (hidle : s.app.waiting = false)
    (hgood : s.app.diag.healthy = true) (hnow : s.now = s.last) :
    Timely E maxMs (s.startWait E K) ∧ (s.startWait E K).now < (s.startWait E K).wakeAt := by
  have hperiod : 0 < kWatchdogPeriod := by decide
  unfold startWait
  dsimp only
  rw [exec_wait hidle]
  by_cases hall : s.app.AllIn E
  · rw [if_pos hall, if_neg (by rw [waiting_decideRefresh]; decide)]
    exact timely_of_refresh hK hE hrecorded.checked hall hgood rfl hnow.ge (by omega)
  · rw [if_neg hall, if_pos rfl]
    refine ⟨⟨⟨hrecorded.refreshed, hrecorded.checked, hrecorded.counted⟩, ?_, ?_, ?_⟩, ?_⟩
    · intro _
      exact ⟨hall, hnow.ge, by dsimp only; omega⟩
    · intro hwaiting
      exact absurd hwaiting.symm Bool.false_ne_true
    · exact Nat.le_add_right _ _
    · exact Nat.lt_add_of_pos_right hperiod

theorem timely_resume (hrecorded : Recorded E maxMs s) (hidle : s.app.waiting = false)
    (hgood : s.app.diag.healthy = true) (hnow : s.now = s.last) (hwake : s.wakeAt = s.last) :
    Timely E maxMs (s.resume E K) ∧ (s.resume E K).now < (s.resume E K).wakeAt := by
  unfold resume
  rw [if_pos ⟨by rw [hidle]; rfl, by omega⟩]
  exact timely_startWait hK hE hrecorded hidle hgood hnow

/-- A wait that times out leaves the check-ins alone, and the next one begins where it should. -/
theorem timely_timeOut (h : Timely E maxMs s) (hgood : s.app.diag.healthy = true)
    (hphase : s.app.waiting = true) (hover : s.wakeAt ≤ s.now) :
    Timely E maxMs ((s.timeOut E K).resume E K) ∧
      ((s.timeOut E K).resume E K).now < ((s.timeOut E K).resume E K).wakeAt := by
  obtain ⟨hmissing, hlast, hwake⟩ := h.waiting hphase
  have hdue := h.due
  have hsame : (s.app.decideRefresh E).refreshes = s.app.refreshes := by
    unfold decideRefresh
    dsimp only
    rw [hE.returned, if_neg fun hboth => hmissing hboth.1]
  have hcheckin : (s.app.decideRefresh E).checkin = (E.waitBits s.app.checkin kCheckInAll).2 := by
    unfold decideRefresh
    dsimp only
    split
    · rfl
    · rfl
  have hended := endWait_eq hK (s := s) (s.app.decideRefresh E)
  rw [if_pos hsame] at hended
  unfold timeOut
  rw [if_pos ⟨hphase, hover⟩, exec_timeOut hphase, hended]
  apply timely_resume hK hE
  · refine ⟨h.refreshed, h.checked, fun id => ?_⟩
    dsimp only
    rw [hcheckin, hE.pending_timed_out hmissing]
    exact h.counted id
  · exact waiting_decideRefresh s.app
  · dsimp only
    rw [health_decideRefresh]
    exact hgood
  · dsimp only
    omega
  · dsimp only
    omega

/-- What the task does in a tick. -/
theorem timely_tick (h : Timely E maxMs s) (hgood : s.app.diag.healthy = true) :
    Timely E maxMs ((s.timeOut E K).resume E K) ∧
      ((s.timeOut E K).resume E K).now < ((s.timeOut E K).resume E K).wakeAt := by
  have hdue := h.due
  by_cases hover : s.wakeAt ≤ s.now
  · rcases Bool.eq_false_or_eq_true s.app.waiting with hphase | hphase
    · exact timely_timeOut hK hE h hgood hphase hover
    · obtain ⟨hwake, -⟩ := h.delayed hphase
      have hstays : s.timeOut E K = s :=
        if_neg fun hboth => Bool.false_ne_true (hphase.symm.trans hboth.1)
      rw [hstays]
      exact timely_resume hK hE h.toRecorded hphase hgood (by omega) hwake
  · have hstays : s.timeOut E K = s := if_neg fun hboth => hover hboth.2
    have hstays' : s.resume E K = s := if_neg fun hboth => hover hboth.2
    rw [hstays, hstays']
    exact ⟨h, Nat.lt_of_not_le hover⟩

theorem timely_checkIn (h : Timely E maxMs s) (hdue : s.now < s.wakeAt)
    (hgood : s.app.diag.healthy = true) (id : TaskId) :
    Timely E maxMs (s.exec E K (.checkIn id)) ∧
      (s.exec E K (.checkIn id)).now < (s.exec E K (.checkIn id)).wakeAt := by
  have hchecked : ∀ other, Function.update s.checkedAt id s.now other ≤ s.now ∧
      s.now ≤ Function.update s.checkedAt id s.now other + maxMs := by
    intro other
    rw [Function.update_apply]
    split
    · exact ⟨le_rfl, Nat.le_add_right _ _⟩
    · exact h.checked other
  by_cases hends : s.app.waiting = true ∧
      AllIn E { s.app with checkin := E.setBits s.app.checkin id.bit }
  · obtain ⟨-, hlast, hwake⟩ := h.waiting hends.1
    have happ : s.app.exec E (.checkIn id) =
        decideRefresh E { s.app with checkin := E.setBits s.app.checkin id.bit } := if_pos hends
    rw [exec_checkIn_eq happ, if_pos ⟨hends.1, by rw [waiting_decideRefresh]; rfl⟩]
    exact timely_of_refresh hK hE hchecked hends.2 hgood rfl hlast (by dsimp only; omega)
  · have happ : s.app.exec E (.checkIn id) =
        { s.app with checkin := E.setBits s.app.checkin id.bit } := if_neg hends
    have hgoesOn : ¬(s.app.waiting = true ∧ (!s.app.waiting) = true) := by
      cases s.app.waiting <;> decide
    rw [exec_checkIn_eq happ, if_neg hgoesOn]
    refine ⟨⟨⟨h.refreshed, hchecked, fun other => ?_⟩, ?_, h.delayed, h.due⟩, hdue⟩
    · rcases pending_checkIn hE s.app.checkin id other with hset | ⟨hother, hkept⟩
      · exact Or.inl hset
      · rcases h.counted other with hset | hold
        · exact Or.inl (hkept.trans hset)
        · right
          dsimp only
          rw [Function.update_of_ne hother]
          exact hold
    · intro hwaiting
      exact ⟨fun hall => hends ⟨hwaiting, hall⟩, (h.waiting hwaiting).2⟩

theorem timely_exec (h : Timely E maxMs s ∧ s.now < s.wakeAt) {action : Action}
    (htime : OnTime maxMs s action) :
    Timely E maxMs (s.exec E K action) ∧ (s.exec E K action).now < (s.exec E K action).wakeAt := by
  obtain ⟨htimely, hdue⟩ := h
  cases action with
  | tick =>
      obtain ⟨hgood, hpunctual⟩ := htime
      apply timely_tick hK hE
      · refine ⟨⟨?_, ?_, htimely.counted⟩, ?_, htimely.delayed, hdue⟩
        · exact htimely.refreshed.trans (Nat.le_succ _)
        · exact fun id => ⟨(htimely.checked id).1.trans (Nat.le_succ _), hpunctual id⟩
        · intro hwaiting
          obtain ⟨hmissing, hlast, hwake⟩ := htimely.waiting hwaiting
          exact ⟨hmissing, hlast.trans (Nat.le_succ _), hwake⟩
      · exact hgood
  | checkIn id => exact timely_checkIn hK hE htimely hdue htime id
  | setHealth sys state =>
      exact ⟨⟨⟨htimely.refreshed, htimely.checked, htimely.counted⟩, htimely.waiting,
        htimely.delayed, htimely.due⟩, hdue⟩

end

theorem timely_start (K : PeriodicDelay) (maxMs : Nat) {app : RtosApp G}
    (hfresh : E.value app.checkin = 0) :
    Timely E maxMs (start E K app) ∧ (start E K app).now < (start E K app).wakeAt := by
  have hmissing : ¬AllIn E { app with waiting := false } := by
    unfold AllIn
    dsimp only
    rw [hfresh]
    decide
  unfold start startWait
  dsimp only
  rw [exec_wait rfl, if_neg hmissing, if_pos rfl]
  refine ⟨⟨⟨le_rfl, fun _ => ⟨le_rfl, Nat.zero_le _⟩, fun _ => Or.inr le_rfl⟩, ?_, ?_, ?_⟩, ?_⟩
  · exact fun _ => ⟨hmissing, le_rfl, rfl⟩
  · exact fun hwaiting => absurd hwaiting.symm Bool.false_ne_true
  · exact Nat.zero_le _
  · exact (by decide : 0 < 0 + kWatchdogPeriod)

/-- **A vehicle whose tasks keep time is not reset.** In every interleaving in which no task is
silent for longer than some time and the subsystems are healthy at each tick and check-in, the
watchdog is never left alone for longer than that time or the supervisor's period. With a time below
the window it does not run out. -/
theorem punctual_never_starves (hE : E.Lawful) (hK : K.Lawful) {app : RtosApp G}
    (hfresh : E.value app.checkin = 0) {maxMs : Nat} {actions : List Action}
    (htime : Runs.Along (exec E K) (OnTime maxMs) (start E K app) actions) :
    (run E K app actions).starved ≤ max kWatchdogPeriod maxMs ∧
      (maxMs < Watchdog.windowMs (Watchdog.reload kWatchdogTimeoutMs) →
        (run E K app actions).starved <
          Watchdog.windowMs (Watchdog.reload kWatchdogTimeoutMs)) := by
  have htimely : Timely E maxMs (run E K app actions) ∧
      (run E K app actions).now < (run E K app actions).wakeAt :=
    Runs.run_history (I := fun _ s => Timely E maxMs s ∧ s.now < s.wakeAt)
      (timely_start K maxMs hfresh)
      (fun _ _ honTime h => timely_exec hK hE h honTime) htime
  have hstarved := htimely.1.starved_le
  refine ⟨hstarved, fun hshort => hstarved.trans_lt (max_lt ?_ hshort)⟩
  rw [Watchdog.windowMs_reload]
  decide

/-- All tasks check in every other millisecond. -/
theorem punctual_never_starves_busy :
    let app := RtosApp.run (.word 32) 0 (RtosApp.postActions ⟨true, true, true⟩)
    let round : List Action :=
      [.tick, .tick, .checkIn .control, .checkIn .sensor, .checkIn .logger, .checkIn .monitor]
    (run (.word 32) .plain app (round ++ round ++ round)).starved ≤ max kWatchdogPeriod 2 := by
  refine (punctual_never_starves (EventGroup.word_lawful 32) PeriodicDelay.plain_lawful rfl ?_).1
  decide +kernel

/-! ### A task hangs -/

/-- What the refreshes since some point can have bought, each of them a window. -/
structure WithinBudget (windowMs now refreshes : Nat) (s : WatchdogClock G) : Prop where
  grown : refreshes ≤ s.app.refreshes
  refreshed : s.refreshedAt ≤ now + (s.app.refreshes - refreshes) * windowMs
  fed : s.now ≤ s.refreshedAt + windowMs

section

variable {windowMs now refreshes : Nat} {s : WatchdogClock G}

theorem WithinBudget.endWait (h : WithinBudget windowMs now refreshes s) (K : PeriodicDelay)
    {app : RtosApp G} (hmore : s.app.refreshes ≤ app.refreshes) :
    WithinBudget windowMs now refreshes (s.endWait K app) := by
  have hgrown := h.grown
  have hrefreshed := h.refreshed
  have hfed := h.fed
  unfold WatchdogClock.endWait
  by_cases hsame : app.refreshes = s.app.refreshes
  · rw [if_pos hsame]
    exact ⟨by dsimp only; omega, by dsimp only; rw [hsame]; exact hrefreshed, hfed⟩
  · rw [if_neg hsame]
    refine ⟨by dsimp only; omega, ?_, Nat.le_add_right _ _⟩
    have hone : (s.app.refreshes - refreshes) * windowMs + windowMs ≤
        (app.refreshes - refreshes) * windowMs := by
      rw [← Nat.succ_mul]
      exact Nat.mul_le_mul_right _ (by omega)
    dsimp only
    omega

theorem refreshes_le_decideRefresh (a : RtosApp G) :
    a.refreshes ≤ (a.decideRefresh E).refreshes := by
  unfold decideRefresh
  dsimp only
  split
  · exact Nat.le_succ _
  · exact le_rfl

theorem refreshes_le_exec (a : RtosApp G) (action : RtosApp.Action) :
    a.refreshes ≤ (a.exec E action).refreshes := by
  cases action with
  | checkIn id =>
      unfold RtosApp.exec
      dsimp only
      split
      · exact refreshes_le_decideRefresh (E := E) { a with checkin := E.setBits a.checkin id.bit }
      · exact le_rfl
  | setHealth sys state => exact le_rfl
  | postResult sys passed => exact le_rfl
  | wait =>
      unfold RtosApp.exec
      dsimp only
      split
      · exact le_rfl
      · split
        · exact refreshes_le_decideRefresh a
        · exact le_rfl
  | timeOut =>
      unfold RtosApp.exec
      dsimp only
      split
      · exact refreshes_le_decideRefresh a
      · exact le_rfl

/-- The application moves on without a refresh. -/
theorem WithinBudget.follow (h : WithinBudget windowMs now refreshes s) {app : RtosApp G}
    (hsame : app.refreshes = s.app.refreshes) (wakeAt : Nat) (checkedAt : TaskId → Nat) :
    WithinBudget windowMs now refreshes
      { s with app := app, wakeAt := wakeAt, checkedAt := checkedAt } where
  grown := h.grown.trans_eq hsame.symm
  refreshed := by
    dsimp only
    rw [hsame]
    exact h.refreshed
  fed := h.fed

theorem WithinBudget.timeOut (h : WithinBudget windowMs now refreshes s) :
    WithinBudget windowMs now refreshes (s.timeOut E K) := by
  unfold WatchdogClock.timeOut
  split
  · exact h.endWait K (refreshes_le_exec s.app .timeOut)
  · exact h

theorem WithinBudget.resume (h : WithinBudget windowMs now refreshes s) :
    WithinBudget windowMs now refreshes (s.resume E K) := by
  unfold WatchdogClock.resume
  split
  case isTrue hover =>
    have hidle : s.app.waiting = false := by simpa using hover.1
    unfold startWait
    dsimp only
    split
    case isTrue hwaiting =>
      -- a wait that goes on has not refreshed
      rw [exec_wait hidle] at hwaiting ⊢
      split at hwaiting
      · rw [waiting_decideRefresh] at hwaiting
        exact absurd hwaiting Bool.false_ne_true
      case isFalse hmissing =>
        rw [if_neg hmissing]
        refine h.follow ?_ _ _
        rfl
    case isFalse => exact h.endWait K (refreshes_le_exec s.app .wait)
  case isFalse => exact h

theorem WithinBudget.checkIn (h : WithinBudget windowMs now refreshes s) (id : TaskId) :
    WithinBudget windowMs now refreshes (s.exec E K (.checkIn id)) := by
  by_cases hends : s.app.waiting = true ∧
      AllIn E { s.app with checkin := E.setBits s.app.checkin id.bit }
  · have happ : s.app.exec E (.checkIn id) =
        decideRefresh E { s.app with checkin := E.setBits s.app.checkin id.bit } := if_pos hends
    rw [exec_checkIn_eq happ, if_pos ⟨hends.1, by rw [waiting_decideRefresh]; rfl⟩]
    have hnoted := h.follow rfl s.wakeAt (Function.update s.checkedAt id s.now)
    exact hnoted.endWait K (happ ▸ refreshes_le_exec s.app (.checkIn id))
  · have happ : s.app.exec E (.checkIn id) =
        { s.app with checkin := E.setBits s.app.checkin id.bit } := if_neg hends
    have hgoesOn : ¬(s.app.waiting = true ∧ (!s.app.waiting) = true) := by
      cases s.app.waiting <;> decide
    rw [exec_checkIn_eq happ, if_neg hgoesOn]
    refine h.follow ?_ s.wakeAt _
    rfl

theorem WithinBudget.exec (h : WithinBudget windowMs now refreshes s)
    (hfed : s.starved < windowMs) (action : Action) :
    WithinBudget windowMs now refreshes (s.exec E K action) := by
  cases action with
  | tick =>
      have hnext : WithinBudget windowMs now refreshes { s with now := s.now + 1 } :=
        ⟨h.grown, h.refreshed, by unfold starved at hfed; dsimp only; omega⟩
      exact hnext.timeOut.resume
  | checkIn id => exact h.checkIn id
  | setHealth sys state =>
      refine h.follow ?_ s.wakeAt s.checkedAt
      rfl

end

theorem endWait_app (K : PeriodicDelay) (s : WatchdogClock G) (app : RtosApp G) :
    (s.endWait K app).app = app := rfl

theorem startWait_app (s : WatchdogClock G) : (s.startWait E K).app = s.app.exec E .wait := by
  unfold startWait
  dsimp only
  split
  · rfl
  · rfl

theorem exec_allowance (hE : E.Lawful) {id : TaskId} {action : Action}
    (hsilent : action ≠ .checkIn id) (s : WatchdogClock G) :
    (s.exec E K action).app.allowance E id ≤ s.app.allowance E id := by
  cases action with
  | tick =>
      have htimeOut : ∀ s : WatchdogClock G,
          (s.timeOut E K).app.allowance E id ≤ s.app.allowance E id := by
        intro s
        unfold WatchdogClock.timeOut
        split
        · rw [endWait_app]
          exact RtosApp.exec_allowance hE (by simp)
        · exact le_rfl
      have hresume : ∀ s : WatchdogClock G,
          (s.resume E K).app.allowance E id ≤ s.app.allowance E id := by
        intro s
        unfold WatchdogClock.resume
        split
        · rw [startWait_app]
          exact RtosApp.exec_allowance hE (by simp)
        · exact le_rfl
      exact (hresume _).trans (htimeOut _)
  | checkIn other =>
      have hother : (RtosApp.Action.checkIn other) ≠ .checkIn id := by
        intro heq
        exact hsilent (by rw [RtosApp.Action.checkIn.inj heq])
      have happ : (s.exec E K (.checkIn other)).app = s.app.exec E (.checkIn other) := by
        rw [exec_checkIn_eq rfl]
        split
        · rfl
        · rfl
      rw [happ]
      exact RtosApp.exec_allowance hE hother
  | setHealth sys state => exact RtosApp.exec_allowance hE (by simp)

theorem exec_now (s : WatchdogClock G) (action : Action) :
    (s.exec E K action).now = s.now + if action = .tick then 1 else 0 := by
  have hstart : ∀ s : WatchdogClock G, (s.startWait E K).now = s.now := by
    intro s
    unfold startWait
    dsimp only
    split
    · rfl
    · rfl
  have hresume : ∀ s : WatchdogClock G, (s.resume E K).now = s.now := by
    intro s
    unfold WatchdogClock.resume
    split
    · exact hstart s
    · rfl
  have htimeOut : ∀ s : WatchdogClock G, (s.timeOut E K).now = s.now := by
    intro s
    unfold WatchdogClock.timeOut
    split
    · rfl
    · rfl
  cases action with
  | tick => exact (hresume _).trans (htimeOut _)
  | checkIn id =>
      rw [exec_checkIn_eq rfl]
      split
      · rfl
      · rfl
  | setHealth sys state => rfl

theorem refreshedAt_run_le (K : PeriodicDelay) (app : RtosApp G) (actions : List Action) :
    (run E K app actions).refreshedAt ≤ (run E K app actions).now := by
  have hendWait : ∀ (s : WatchdogClock G) app, s.refreshedAt ≤ s.now →
      (s.endWait K app).refreshedAt ≤ (s.endWait K app).now := by
    intro s app h
    unfold endWait
    dsimp only
    split
    · exact h
    · exact le_rfl
  have hstart : ∀ s : WatchdogClock G, s.refreshedAt ≤ s.now →
      (s.startWait E K).refreshedAt ≤ (s.startWait E K).now := by
    intro s h
    unfold startWait
    dsimp only
    split
    · exact h
    · exact hendWait s _ h
  have hresume : ∀ s : WatchdogClock G, s.refreshedAt ≤ s.now →
      (s.resume E K).refreshedAt ≤ (s.resume E K).now := by
    intro s h
    unfold WatchdogClock.resume
    split
    · exact hstart s h
    · exact h
  have htimeOut : ∀ s : WatchdogClock G, s.refreshedAt ≤ s.now →
      (s.timeOut E K).refreshedAt ≤ (s.timeOut E K).now := by
    intro s h
    unfold WatchdogClock.timeOut
    split
    · exact hendWait s _ h
    · exact h
  have hreach : Runs.Reachable (exec E K) (start E K app) (fun _ => True) (run E K app actions) :=
    ⟨actions, fun _ _ => trivial, rfl⟩
  apply hreach.invariant (I := fun s => s.refreshedAt ≤ s.now) (hstart _ le_rfl)
  intro s action _ h
  cases action with
  | tick => exact hresume _ (htimeOut _ (h.trans (Nat.le_succ _)))
  | checkIn id =>
      rw [exec_checkIn_eq rfl]
      split
      · exact hendWait _ _ h
      · exact h
  | setHealth sys state => exact h

theorem run_now (s : WatchdogClock G) (actions : List Action) :
    (Runs.run (exec E K) s actions).now = s.now + actions.count .tick := by
  induction actions generalizing s with
  | nil => rfl
  | cons action actions ih =>
      rw [Runs.run_cons, ih, exec_now, List.count_cons, Nat.add_assoc]
      cases action <;> simp [Nat.add_comm]

/-- **A hung task lets the watchdog run out.** Once a supervised task checks in no more, then within
two windows, whatever the other tasks and the monitor do, the watchdog has been left alone for a
whole window. -/
theorem hang_runs_out (hE : E.Lawful) (K : PeriodicDelay) (app : RtosApp G) (before : List Action)
    {after : List Action} {id : TaskId} (hhung : .checkIn id ∉ after)
    (hlong : 2 * Watchdog.windowMs (Watchdog.reload kWatchdogTimeoutMs) ≤ after.count .tick) :
    ∃ part, part <+: after ∧ Watchdog.windowMs (Watchdog.reload kWatchdogTimeoutMs) ≤
      (run E K app (before ++ part)).starved := by
  generalize Watchdog.windowMs (Watchdog.reload kWatchdogTimeoutMs) = windowMs at hlong ⊢
  by_contra hnone
  push Not at hnone
  have hsplit : ∀ part, run E K app (before ++ part) =
      Runs.run (exec E K) (run E K app before) part := fun part => Runs.run_append ..
  simp only [hsplit] at hnone
  have hbegin := hnone [] List.nil_prefix
  have hpast := refreshedAt_run_le (E := E) K app before
  generalize run E K app before = s at hnone hbegin hpast
  rw [Runs.run_nil] at hbegin
  have hspent : ∀ part, part <+: after →
      WithinBudget windowMs s.now s.app.refreshes (Runs.run (exec E K) s part) ∧
        (Runs.run (exec E K) s part).app.allowance E id ≤ s.app.allowance E id := by
    intro part
    induction part using List.reverseRecOn with
    | nil =>
        intro _
        refine ⟨⟨le_rfl, ?_, ?_⟩, le_rfl⟩
        · exact hpast.trans (Nat.le_add_right _ _)
        · unfold starved at hbegin
          rw [Runs.run_nil]
          omega
    | append_singleton part action ih =>
        intro hpart
        have hfront : part <+: after := (List.prefix_append part [action]).trans hpart
        obtain ⟨hbudget, hallowed⟩ := ih hfront
        rw [Runs.run_concat]
        refine ⟨hbudget.exec (hnone part hfront) action, ?_⟩
        refine (exec_allowance hE (fun heq => hhung ?_) _).trans hallowed
        rw [← heq]
        exact hpart.subset (by simp)
  obtain ⟨hbudget, hallowed⟩ := hspent after List.prefix_rfl
  have hstarved := hnone after List.prefix_rfl
  have hnow := run_now (E := E) (K := K) s after
  have hrefreshed := hbudget.refreshed
  have hfew : (Runs.run (exec E K) s after).app.refreshes - s.app.refreshes ≤ 1 := by
    have hbit := E.pending_le s.app.checkin id.toNat
    unfold allowance at hallowed
    omega
  have hbought : ((Runs.run (exec E K) s after).app.refreshes - s.app.refreshes) * windowMs ≤
      windowMs := (Nat.mul_le_mul_right windowMs hfew).trans_eq (Nat.one_mul windowMs)
  unfold starved at hstarved
  omega

/-- All but the logger check in every millisecond, and the monitor reports that the UART is well. -/
def mutedRound : List Action :=
  [.tick, .checkIn .control, .checkIn .sensor, .checkIn .monitor, .setHealth .uart .ok]

/-- One window in which the logger checks in as well, and two in which it does not. -/
theorem hang_runs_out_muted :
    let app := RtosApp.run (.word 32) 0 (RtosApp.postActions ⟨true, true, true⟩)
    let busy := (List.replicate 1005 (.checkIn .logger :: mutedRound)).flatten
    let after := (List.replicate 2010 mutedRound).flatten
    ∃ part, part <+: after ∧ Watchdog.windowMs (Watchdog.reload kWatchdogTimeoutMs) ≤
      (run (.word 32) .plain app (busy ++ part)).starved := by
  intro app busy after
  have hhung : .checkIn .logger ∉ after := by
    intro hmem
    obtain ⟨round, hround, hmem⟩ := List.mem_flatten.mp hmem
    rw [List.eq_of_mem_replicate hround] at hmem
    exact absurd hmem (by decide)
  refine hang_runs_out (EventGroup.word_lawful 32) .plain app busy hhung ?_
  have hticks : mutedRound.count .tick = 1 := by decide
  rw [List.count_flatten, List.map_replicate, List.sum_replicate_nat, hticks, Watchdog.windowMs_reload]

end WatchdogClock

end Bcm
