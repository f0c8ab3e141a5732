import Bcm.Proof.EventPairs
import Bcm.Proof.Reset

/-!
# The records of a run

Each pair of events is in the records as its flag goes up and down. The doors are too, except for
the cycles in which a door that was unlocked already is unlocked again. A reset takes the flags down
and leaves the records, so that a flag that goes up once more is recorded twice.
-/

namespace Bcm

namespace DoorMgr

/-- No request makes an unlocked door of another one. -/
theorem requestLock_unlocked {d : DoorMgr} (h : d.requestLock.state = .unlocked) :
    d.state = .unlocked := by
  rw [requestLock_state] at h
  split at h
  · exact h
  · cases h

theorem requestUnlock_unlocked {cfg : Config} {d : DoorMgr}
    (h : (d.requestUnlock cfg).state = .unlocked) : d.state = .unlocked := by
  rw [requestUnlock_state] at h
  split at h
  · cases h
  · exact h

end DoorMgr

namespace PowerMgr

/-- The ignition leaves the battery alone. -/
theorem ignition_battery (cfg : Config) (p : PowerMgr) :
    ((p.ignitionOn cfg).ctx = p.ctx ∧ (p.ignitionOn cfg).batteryKnown = p.batteryKnown) ∧
      p.ignitionOff.ctx = p.ctx ∧ p.ignitionOff.batteryKnown = p.batteryKnown := by
  have hon := p.dispatch_battery .ignitionOn
  have hoff := p.dispatch_battery .ignitionOff
  unfold ignitionOn ignitionOff
  dsimp only
  simp only [apply_ite PowerMgr.ctx, apply_ite PowerMgr.batteryKnown, hon, hoff, ite_self, and_self]

theorem updateBattery_loadShed {p q : PowerMgr} (hctx : p.ctx = q.ctx)
    (hbattery : p.batteryOk = q.batteryOk) (hknown : p.batteryKnown = q.batteryKnown)
    (permille : Nat) :
    (p.updateBattery permille).loadShed = (q.updateBattery permille).loadShed := by
  unfold updateBattery loadShed
  dsimp only
  rw [hbattery, hknown, hctx]
  split
  · rfl
  · rfl

end PowerMgr

namespace BcmCore

open EventPair Toggles

variable (cfg : Config) (dtMs : Nat) (s : BcmCore)

theorem requestedDoor_unlocked {s : BcmCore} (h : (s.requestedDoor cfg).state = .unlocked) :
    s.door.state = .unlocked := by
  refine requestedDoor_keeps (P := fun d => d.state = .unlocked → s.door.state = .unlocked)
    id (fun d hd hunlocked => ?_) (fun d hd hunlocked => ?_) h
  · exact hd (DoorMgr.requestUnlock_unlocked hunlocked)
  · exact hd (DoorMgr.requestLock_unlocked hunlocked)

/-- The door as the cycle finds it when it comes to the timers: the requests of the cycle have been
taken, of which the first cycle takes none. -/
def doorBeforeTimers : DoorMgr := if s.firstCycle then s.door else s.requestedDoor cfg

/-- The doors are unlocked before the cycle and after it, in two ways: the welcome time runs out, or
they are locked and unlocked again in one cycle. -/
def unlocksAgain : Bool :=
  let d := s.doorBeforeTimers cfg
  decide (d.state = .welcome) &&
    if d.welcome.expires dtMs then
      decide (s.door.state = .welcome) &&
        !((d.autoLock.start cfg.autoLockDelayMs).expires dtMs && !d.ctx.doorOpen)
    else decide (s.door.state = .unlocked)

theorem unlocksAgain_iff :
    s.unlocksAgain cfg dtMs = true ↔
      (s.step cfg dtMs).door.state ≠ s.door.state ∧ (s.step cfg dtMs).door.state ≠ .locked ∧
        s.door.state ≠ .locked := by
  have hdoor : (s.step cfg dtMs).door.state = ((s.doorBeforeTimers cfg).update cfg dtMs).state := by
    rw [step_door, applyEdges_door]
    rfl
  have hunlocked : (s.doorBeforeTimers cfg).state = .unlocked → s.door.state = .unlocked := by
    unfold doorBeforeTimers
    split
    · exact id
    · exact requestedDoor_unlocked cfg
  rw [hdoor]
  unfold unlocksAgain
  dsimp only
  generalize s.doorBeforeTimers cfg = d at hunlocked
  by_cases hwelcome : d.state = .welcome
  · rw [DoorMgr.update_state_of_welcome cfg dtMs hwelcome]
    rw [hwelcome]
    generalize (d.autoLock.start cfg.autoLockDelayMs).expires dtMs = locks
    generalize d.welcome.expires dtMs = expires
    generalize d.ctx.doorOpen = isOpen
    generalize s.door.state = before
    cases expires with
    | true => cases locks <;> cases isOpen <;> cases before <;> simp
    | false => cases before <;> simp
  · refine iff_of_false (by simp [hwelcome]) ?_
    rintro ⟨hchange, hopen, hbefore⟩
    rcases DoorMgr.update_state_of_not_welcome cfg dtMs hwelcome with hstays | hlocks
    · rw [hstays] at hchange hopen
      cases hstate : d.state with
      | locked => exact hopen hstate
      | welcome => exact hwelcome hstate
      | unlocked =>
          rw [hunlocked hstate, hstate] at hchange
          exact hchange rfl
    · exact hopen hlocks

theorem step_loadShed :
    (s.step cfg dtMs).power.loadShed =
      (s.power.updateBattery s.inputs.batteryPermille).loadShed := by
  obtain ⟨⟨honCtx, honKnown⟩, hoffCtx, hoffKnown⟩ := s.power.ignition_battery cfg
  rw [step_power, PowerMgr.loadShed, (PowerMgr.update_battery ..).1, applyEdges_power]
  refine PowerMgr.updateBattery_loadShed ?_ ?_ ?_ _
  · simp only [apply_ite PowerMgr.ctx, honCtx, hoffCtx, ite_self]
  · simp only [apply_ite PowerMgr.batteryOk, PowerMgr.ignitionOn_batteryOk,
      PowerMgr.ignitionOff_batteryOk, ite_self]
  · simp only [apply_ite PowerMgr.batteryKnown, honKnown, hoffKnown, ite_self]

/-- The doors are locked before the cycle, and the requests of the cycle unlock them, unless both
times run out in it. -/
def unlocks : Bool :=
  let d := s.doorBeforeTimers cfg
  decide (s.door.state = .locked) && decide (d.state = .welcome) &&
    !(d.welcome.expires dtMs &&
      ((d.autoLock.start cfg.autoLockDelayMs).expires dtMs && !d.ctx.doorOpen))

theorem unlocks_iff (hlocked : s.door.state = .locked) :
    s.unlocks cfg dtMs = true ↔ (s.step cfg dtMs).door.state ≠ .locked := by
  have hdoor : (s.step cfg dtMs).door.state = ((s.doorBeforeTimers cfg).update cfg dtMs).state := by
    rw [step_door, applyEdges_door]
    rfl
  have hunlocked : (s.doorBeforeTimers cfg).state ≠ .unlocked := by
    unfold doorBeforeTimers
    split
    · rw [hlocked]
      decide
    · intro hrequested
      rw [requestedDoor_unlocked cfg hrequested] at hlocked
      exact absurd hlocked (by decide)
  rw [hdoor]
  unfold unlocks
  dsimp only
  generalize s.doorBeforeTimers cfg = d at hunlocked
  by_cases hwelcome : d.state = .welcome
  · rw [DoorMgr.update_state_of_welcome cfg dtMs hwelcome, hlocked, hwelcome]
    generalize (d.autoLock.start cfg.autoLockDelayMs).expires dtMs = locks
    generalize d.welcome.expires dtMs = expires
    generalize d.ctx.doorOpen = isOpen
    cases expires <;> cases locks <;> cases isOpen <;> simp
  · have hd : d.state = .locked := by
      cases hstate : d.state with
      | locked => rfl
      | welcome => exact absurd hstate hwelcome
      | unlocked => exact absurd hstate hunlocked
    have hstays := DoorMgr.update_state_of_not_welcome cfg dtMs hwelcome
    rw [hd, or_self] at hstays
    rw [hstays, hd]
    simp

/-! ### What a run has logged -/

/-- The core, and every record it has passed to its log since it was built. A reset empties the log,
and takes back none of them. -/
def execLogging (t : BcmCore × List LogRecord) (op : CoreOp) : BcmCore × List LogRecord :=
  (exec cfg t.1 op,
    match op with
    | .step dtMs => t.2 ++ t.1.records cfg dtMs
    | _ => t.2)

def logged (ops : List CoreOp) : List LogRecord :=
  (Runs.run (execLogging cfg) (new cfg, []) ops).2

theorem run_execLogging (ops : List CoreOp) :
    Runs.run (execLogging cfg) (new cfg, []) ops = (run cfg ops, logged cfg ops) := by
  have hcore : (Runs.run (execLogging cfg) (new cfg, []) ops).1 = run cfg ops := by
    induction ops using List.reverseRecOn with
    | nil => rfl
    | append_singleton ops op ih =>
        rw [Runs.run_concat, run_concat, ← ih]
        rfl
  rw [← hcore]
  rfl

theorem logged_concat (ops : List CoreOp) (op : CoreOp) :
    logged cfg (ops ++ [op]) = (execLogging cfg (run cfg ops, logged cfg ops) op).2 := by
  have hrun := Runs.run_concat (execLogging cfg) (new cfg, []) ops op
  rw [run_execLogging, run_execLogging] at hrun
  have hlog := congrArg Prod.snd hrun
  exact hlog

/-- A flag as the core has it for its comparison, and whether the cycle makes another of it. For the
doors that is whether it unlocks them. -/
structure Compared where
  pair : EventPair
  flag : Bool
  changes : Bool

def compared : List Compared :=
  [⟨doors, decide (s.prevDoor ≠ .locked), s.unlocks cfg dtMs⟩,
    ⟨battery, s.prevLoadShed,
      decide ((s.power.updateBattery s.inputs.batteryPermille).loadShed ≠ s.prevLoadShed)⟩,
    ⟨comms, s.prevCommsLost, decide (s.commsLost ≠ s.prevCommsLost)⟩,
    ⟨brake, s.previous.brake,
      !s.firstCycle && decide (s.inputs.brake ≠ s.previous.brake)⟩,
    ⟨hazard, s.lighting.hazardOn, s.hazardPress⟩]

/-- The last record of the pair tells otherwise than the flag. -/
def Compared.Stale (c : Compared) (log : List LogRecord) : Prop :=
  (c.pair.values log).getLast? = some (!c.flag)

/-- The cycle does not unlock the doors again, and changes no flag that the records tell otherwise
of. -/
def LogsOnce (log : List LogRecord) : Prop :=
  s.unlocksAgain cfg dtMs = false ∧
    ∀ c ∈ s.compared cfg dtMs, c.changes = true → ¬c.Stale log

/-- What holds of the records whatever has been done: doors that are not locked have been recorded
as unlocked. -/
structure InStep (s : BcmCore) (log : List LogRecord) : Prop where
  latched : s.lighting.Latched
  prevDoor : s.prevDoor = s.door.state
  doors : s.prevDoor ≠ .locked → (doors.values log).getLast? = some true

variable {s} {log : List LogRecord}

theorem InStep.step (h : InStep s log) : InStep (s.step cfg dtMs) (log ++ s.records cfg dtMs) := by
  obtain ⟨-, -, hdoor⟩ := s.step_prev cfg dtMs
  refine ⟨(s.step_hazard cfg dtMs h.latched).1, hdoor, fun hopen => ?_⟩
  rw [hdoor] at hopen
  rw [values_append, values_doors]
  by_cases hchange : (s.step cfg dtMs).door.state = s.prevDoor
  · rw [hchange] at hopen
    simpa [hchange] using h.doors hopen
  · simp [hchange, hopen]

theorem InStep.exec (h : InStep s log) (op : CoreOp) :
    InStep (s.exec cfg op) (execLogging cfg (s, log) op).2 := by
  cases op with
  | step dtMs => exact h.step cfg dtMs
  | reset => exact ⟨rfl, rfl, fun hopen => absurd rfl hopen⟩
  | setInputs _ | setCommsLost _ | setHostRequest _ _ | requestDoorLock | requestDoorUnlock
  | requestLightMode | setFault _ | clearFaults | popLog =>
      exact ⟨h.latched, h.prevDoor, h.doors⟩

theorem inStep_run (ops : List CoreOp) : InStep (run cfg ops) (logged cfg ops) := by
  induction ops using List.reverseRecOn with
  | nil => exact ⟨rfl, rfl, fun hopen => absurd rfl hopen⟩
  | append_singleton ops op ih =>
      rw [run_concat, logged_concat]
      exact ih.exec cfg op

/-! ### One cycle -/

/-- A flag whose change is recorded goes on alternating, unless the record is there already. -/
theorem alternates_change_iff {p : EventPair} (hlog : p.Alternates log) {flag next changes : Bool}
    (hnext : changes = true → next = !flag)
    (hvalues : p.values (s.records cfg dtMs) = if changes then [next] else []) :
    p.Alternates (log ++ s.records cfg dtMs) ↔
      (changes = true → ¬Compared.Stale ⟨p, flag, changes⟩ log) := by
  rw [Alternates, values_append, hvalues]
  cases changes with
  | false =>
      rw [if_neg Bool.false_ne_true, List.append_nil]
      exact iff_of_true hlog fun h => absurd h Bool.false_ne_true
  | true =>
      have hbefore : (p.values log).IsChain (· ≠ ·) := hlog
      rw [if_pos rfl, isChain_concat_iff, and_iff_right hbefore, hnext rfl, Compared.Stale]
      dsimp only
      cases (p.values log).getLast? with
      | none => simp
      | some value => simp

theorem alternates_doors_iff (h : InStep s log) (hlog : doors.Alternates log) :
    doors.Alternates (log ++ s.records cfg dtMs) ↔
      s.unlocksAgain cfg dtMs = false ∧
        (s.unlocks cfg dtMs = true →
          ¬Compared.Stale ⟨doors, decide (s.prevDoor ≠ .locked), s.unlocks cfg dtMs⟩ log) := by
  have hagain := s.unlocksAgain_iff cfg dtMs
  have hlast := h.doors
  rw [← Bool.not_eq_true, hagain, Alternates, values_append, values_doors, Compared.Stale]
  dsimp only
  rw [h.prevDoor] at hlast ⊢
  have hbefore : (doors.values log).IsChain (· ≠ ·) := hlog
  by_cases hlocked : s.door.state = .locked
  · rw [s.unlocks_iff cfg dtMs hlocked, hlocked]
    by_cases hstays : (s.step cfg dtMs).door.state = .locked
    · simpa [hstays] using hbefore
    · rw [if_pos (decide_eq_true hstays), isChain_concat_iff, and_iff_right hbefore]
      cases (doors.values log).getLast? with
      | none => simp
      | some value => simp [hstays]
  · have hnone : s.unlocks cfg dtMs = false := by
      unfold unlocks
      dsimp only
      rw [decide_eq_false hlocked]
      rfl
    rw [hnone]
    by_cases hchange : (s.step cfg dtMs).door.state = s.door.state
    · simpa [hchange] using hbefore
    · rw [if_pos (decide_eq_true hchange), isChain_concat_iff, and_iff_right hbefore,
        hlast hlocked]
      simp [hchange, hlocked]

/-- One cycle keeps the pairs alternating if and only if it logs nothing that it must not. -/
theorem alternates_step_iff (h : InStep s log) (hlog : ∀ p ∈ all, p.Alternates log) :
    (∀ p ∈ all, p.Alternates (log ++ s.records cfg dtMs)) ↔ s.LogsOnce cfg dtMs log := by
  have hne : ∀ {next flag : Bool}, decide (next ≠ flag) = true → next = !flag := by
    intro next flag hchange
    exact Bool.eq_not.mpr (of_decide_eq_true hchange)
  simp only [all, List.forall_mem_cons, List.not_mem_nil, false_implies, implies_true,
    and_true] at hlog
  obtain ⟨hdoors, hbattery, hcomms, hbrake, hhazard⟩ := hlog
  have hshed := s.values_battery cfg dtMs
  rw [step_loadShed] at hshed
  have hflash := (s.step_hazard cfg dtMs h.latched).2
  rw [LogsOnce, compared]
  simp only [all, List.forall_mem_cons, List.not_mem_nil, false_implies, implies_true, and_true]
  rw [alternates_doors_iff cfg dtMs h hdoors, and_assoc]
  refine and_congr Iff.rfl (and_congr Iff.rfl (and_congr ?_ (and_congr ?_ (and_congr ?_ ?_))))
  · exact alternates_change_iff cfg dtMs hbattery hne hshed
  · exact alternates_change_iff cfg dtMs hcomms hne (s.values_comms cfg dtMs)
  · refine alternates_change_iff cfg dtMs hbrake (fun hchange => ?_) (s.values_brake cfg dtMs)
    exact hne (Bool.and_eq_true_iff.mp hchange).2
  · refine alternates_change_iff cfg dtMs hhazard (fun hpress => ?_)
      (s.values_hazard cfg dtMs h.latched)
    rw [hflash, if_pos hpress]

/-- The brake is pressed and released, and after a reset it is pressed in the first cycle, which
records nothing, and released again. -/
example :
    let charged := { Inputs.initial with batteryPermille := 800 }
    let braking := { charged with brake := true }
    ¬EventPair.brake.Alternates (logged .shipped
      [.setInputs charged, .step 5, .setInputs braking, .step 5, .setInputs charged, .step 5,
        .reset, .setInputs braking, .step 5, .setInputs charged, .step 5]) := by
  unfold EventPair.Alternates
  decide +kernel

/-! ### Without a reset -/

/-- The records are in step with what the core compares. -/
structure Tracked (s : BcmCore) (log : List LogRecord) : Prop where
  inStep : InStep s log
  fresh : s.firstCycle = true → log = []
  battery : Tracks (battery.values log) s.prevLoadShed
  comms : Tracks (comms.values log) s.prevCommsLost
  brake : Tracks (brake.values log) s.previous.brake
  hazard : Tracks (hazard.values log) s.lighting.hazardOn
  doors : (doors.values log).getLast?.getD false = decide (s.prevDoor ≠ .locked)

theorem Tracked.step (h : Tracked s log) : Tracked (s.step cfg dtMs) (log ++ s.records cfg dtMs) := by
  obtain ⟨hshed, hlost, hdoor⟩ := s.step_prev cfg dtMs
  have hhazard := (s.step_hazard cfg dtMs h.inStep.latched).2
  constructor
  case inStep => exact h.inStep.step cfg dtMs
  case fresh =>
    intro hfirst
    rw [step_firstCycle] at hfirst
    exact absurd hfirst Bool.false_ne_true
  case battery =>
    rw [values_append, values_battery, hshed]
    exact h.battery.append decide_eq_true_iff
  case comms =>
    rw [values_append, values_comms, hlost]
    exact h.comms.append decide_eq_true_iff
  case brake =>
    rw [values_append, values_brake, step_previous]
    cases hfirst : s.firstCycle with
    | true =>
        rw [h.fresh hfirst]
        exact tracks_nil _
    | false =>
        rw [Bool.not_false, Bool.true_and]
        exact h.brake.append decide_eq_true_iff
  case hazard =>
    rw [values_append, s.values_hazard cfg dtMs h.inStep.latched]
    apply h.hazard.append
    rw [hhazard]
    cases s.hazardPress with
    | true => simp
    | false => simp
  case doors =>
    rw [values_append, values_doors, hdoor]
    by_cases hchange : (s.step cfg dtMs).door.state = s.prevDoor
    · simp only [hchange, ne_eq, not_true, decide_false, Bool.false_eq_true, if_false,
        List.append_nil]
      exact h.doors
    · simp [hchange]

theorem tracked_run {ops : List CoreOp} (hops : ∀ op ∈ ops, op ≠ .reset) :
    Tracked (run cfg ops) (logged cfg ops) := by
  induction ops using List.reverseRecOn with
  | nil =>
      exact ⟨inStep_run cfg [], fun _ => rfl, tracks_nil _, tracks_nil _, tracks_nil _,
        tracks_nil _, rfl⟩
  | append_singleton ops op ih =>
      have h := ih fun op' hop' => hops op' (List.mem_append_left _ hop')
      rw [run_concat, logged_concat]
      cases op with
      | step dtMs => exact h.step cfg dtMs
      | reset => exact absurd rfl (hops .reset (by simp))
      | setInputs _ | setCommsLost _ | setHostRequest _ _ | requestDoorLock | requestDoorUnlock
      | requestLightMode | setFault _ | clearFaults | popLog =>
          exact ⟨h.inStep.exec cfg _, h.fresh, h.battery, h.comms, h.brake, h.hazard, h.doors⟩

/-- Nothing but a reset makes the records tell otherwise. -/
theorem not_stale_of_tracked (h : Tracked s log) {c : Compared} (hc : c ∈ s.compared cfg dtMs) :
    ¬c.Stale log := by
  have htracks : ∀ {p : EventPair} {flag changes : Bool}, Tracks (p.values log) flag →
      ¬Compared.Stale ⟨p, flag, changes⟩ log := by
    intro p flag changes htracks hstale
    exact Bool.not_ne_self flag (htracks.last _ hstale)
  simp only [compared, List.mem_cons, List.not_mem_nil, or_false] at hc
  rcases hc with rfl | rfl | rfl | rfl | rfl
  · intro hstale
    have hdoors := h.doors
    rw [Compared.Stale] at hstale
    rw [hstale, Option.getD_some] at hdoors
    exact Bool.not_ne_self _ hdoors
  · exact htracks h.battery
  · exact htracks h.comms
  · exact htracks h.brake
  · exact htracks h.hazard

/-- Until there is a reset the condition is the one on the doors. -/
theorem logsOnce_iff_of_no_reset {ops : List CoreOp} (hops : ∀ op ∈ ops, op ≠ .reset) :
    (run cfg ops).LogsOnce cfg dtMs (logged cfg ops) ↔
      (run cfg ops).unlocksAgain cfg dtMs = false := by
  refine and_iff_left fun c hc _ => ?_
  exact not_stale_of_tracked cfg dtMs (tracked_run cfg hops) hc

end BcmCore

end Bcm
