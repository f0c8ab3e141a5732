import Bcm.CoreRun
import Bcm.Proof.EventLog
import Mathlib.Data.List.Forall2

/-!
# What a cycle logs

The records that a block passes to the log are what it leaves in an empty one, and those of a cycle
are those of its blocks, one after the other. What the log then holds is what it held with these
written to it.
-/

namespace Bcm

def Logger.put (l : Logger) (r : LogRecord) : Logger := l.log r.timestampMs r.event r.arg

namespace BcmCore

/-- The records a block passes to the log from a state. -/
def written (block : BcmCore → BcmCore) (s : BcmCore) : List LogRecord :=
  (block { s with log := .new }).log.contents

/-- The records of some blocks. -/
def writtenBy : List (BcmCore → BcmCore) → BcmCore → List LogRecord
  | [], _ => []
  | block :: blocks, s => written block s ++ writtenBy blocks (block s)

/-- The records of one cycle. -/
def records (cfg : Config) (dtMs : Nat) (s : BcmCore) : List LogRecord :=
  writtenBy (s.blocksFrom cfg dtMs) s

theorem writtenBy_append (front back : List (BcmCore → BcmCore)) (s : BcmCore) :
    writtenBy (front ++ back) s = writtenBy front s ++ writtenBy back (runBlocks front s) := by
  induction front generalizing s with
  | nil => rfl
  | cons block front ih =>
      rw [List.cons_append, writtenBy, writtenBy, ih, List.append_assoc]
      rfl

/-! ### Block by block -/

/-- The block logs a single record where a condition holds, and else none. -/
def LogsWhen (block : BcmCore → BcmCore) (c : BcmCore → Bool)
    (record : BcmCore → LogEvent × Nat) : Prop :=
  ∀ s : BcmCore, (record s).1 ≠ .none ∧
    ∀ l, (block { s with log := l }).log =
      if c s then l.log 0 (record s).1 (record s).2 else l

def Silent (block : BcmCore → BcmCore) : Prop := ∀ s : BcmCore, (block s).log = s.log

theorem written_of_logsWhen {block : BcmCore → BcmCore} {c : BcmCore → Bool}
    {record : BcmCore → LogEvent × Nat} (h : LogsWhen block c record) (s : BcmCore) :
    written block s = if c s then [⟨0, (record s).1, (record s).2⟩] else [] := by
  unfold written
  rw [(h s).2]
  cases c s with
  | false => rfl
  | true => exact Logger.contents_log .new (h s).1 0 (record s).2

theorem written_of_silent {block : BcmCore → BcmCore} (h : Silent block) (s : BcmCore) :
    written block s = [] := by
  unfold written
  rw [h]
  rfl

theorem logsWhen_holdIgnition (cfg : Config) (dtMs : Nat) :
    LogsWhen (holdIgnition cfg dtMs)
      (fun s => s.inputs.ignition && (!s.longPressFired &&
        decide (cfg.longPressMs ≤ (s.ignitionHeldMs + dtMs) % 2 ^ 16)))
      (fun s => (.lightMode, s.lighting.nextMode.lightState.toNat)) := by
  intro s
  refine ⟨by simp, fun l => ?_⟩
  by_cases hheld : s.inputs.ignition = true
  · simp [holdIgnition, hheld, logEvent, apply_ite BcmCore.log]
  · simp [holdIgnition, hheld]

theorem logsWhen_releaseIgnition (cfg : Config) :
    LogsWhen (releaseIgnition cfg)
      (fun s => !s.inputs.ignition && s.previous.ignition && !s.longPressFired)
      (fun s => (if s.power.running then .ignitionOff else .ignitionOn, 0)) := by
  intro s
  refine ⟨by dsimp only; split <;> simp, fun l => ?_⟩
  by_cases hreleased : (!s.inputs.ignition && s.previous.ignition) = true
  · by_cases hfired : s.longPressFired = true
    · simp [releaseIgnition, hreleased, hfired]
    · by_cases hrunning : s.power.running = true
      · simp [releaseIgnition, hreleased, hfired, hrunning, logEvent]
      · simp [releaseIgnition, hreleased, hfired, hrunning, logEvent]
  · simp [releaseIgnition, hreleased]

theorem logsWhen_pressIndicatorLeft :
    LogsWhen pressIndicatorLeft (fun s => s.inputs.indLeft && !s.previous.indLeft)
      (fun _ => (.indicatorLeft, 0)) := by
  intro s
  refine ⟨by simp, fun l => ?_⟩
  simp [pressIndicatorLeft, logEvent, apply_ite BcmCore.log]

theorem logsWhen_pressIndicatorRight :
    LogsWhen pressIndicatorRight (fun s => s.inputs.indRight && !s.previous.indRight)
      (fun _ => (.indicatorRight, 0)) := by
  intro s
  refine ⟨by simp, fun l => ?_⟩
  simp [pressIndicatorRight, logEvent, apply_ite BcmCore.log]

theorem logsWhen_pressHazard :
    LogsWhen pressHazard (fun s => s.inputs.hazard && !s.previous.hazard)
      (fun s => (if s.lighting.indicatorHazard.indicatorState = .hazard then .hazardOn
        else .hazardOff, 0)) := by
  intro s
  refine ⟨by dsimp only; split <;> simp, fun l => ?_⟩
  simp [pressHazard, logEvent, apply_ite BcmCore.log]

theorem logsWhen_logBrakeChange :
    LogsWhen logBrakeChange (fun s => decide (s.inputs.brake ≠ s.previous.brake))
      (fun s => (if s.inputs.brake then .brakeApplied else .brakeReleased, 0)) := by
  intro s
  refine ⟨by dsimp only; split <;> simp, fun l => ?_⟩
  simp [logBrakeChange, logEvent, apply_ite BcmCore.log]

theorem logsWhen_reportLockRefused :
    LogsWhen reportLockRefused (fun s => s.door.ctx.lockRefused) (fun _ => (.lockRefused, 0)) := by
  intro s
  refine ⟨by simp, fun l => ?_⟩
  by_cases hrefused : s.door.ctx.lockRefused = true
  · simp [reportLockRefused, DoorMgr.takeLockRefused, hrefused, logEvent]
  · simp [reportLockRefused, DoorMgr.takeLockRefused, hrefused]

theorem logsWhen_logLoadShedChange :
    LogsWhen logLoadShedChange (fun s => decide (s.power.loadShed ≠ s.prevLoadShed))
      (fun s => (if s.power.loadShed then .batteryLow else .batteryOk, 0)) := by
  intro s
  refine ⟨by dsimp only; split <;> simp, fun l => ?_⟩
  simp [logLoadShedChange, logEvent, apply_ite BcmCore.log]

theorem logsWhen_logCommsChange :
    LogsWhen logCommsChange (fun s => decide (s.commsLost ≠ s.prevCommsLost))
      (fun s => (if s.commsLost then .commsLost else .commsRestored, 0)) := by
  intro s
  refine ⟨by dsimp only; split <;> simp, fun l => ?_⟩
  simp [logCommsChange, logEvent, apply_ite BcmCore.log]

theorem logsWhen_logDoorChange :
    LogsWhen logDoorChange (fun s => decide (s.door.state ≠ s.prevDoor))
      (fun s => (if s.door.state = .locked then .doorLocked else .doorUnlocked, 0)) := by
  intro s
  refine ⟨by dsimp only; split <;> simp, fun l => ?_⟩
  simp [logDoorChange, logEvent, apply_ite BcmCore.log]

theorem silent_takeHostLock : Silent takeHostLock := by
  intro s
  unfold takeHostLock
  split
  · rfl
  · rfl

theorem silent_pressDoorLock (cfg : Config) : Silent (pressDoorLock cfg) := by
  intro s
  unfold pressDoorLock
  split
  · split
    · rfl
    · rfl
  · rfl

theorem silent_takeHostUnlock (cfg : Config) : Silent (takeHostUnlock cfg) := by
  intro s
  unfold takeHostUnlock
  split
  · rfl
  · rfl

theorem silent_takeHostLightMode : Silent takeHostLightMode := by
  intro s
  unfold takeHostLightMode
  split
  · rfl
  · rfl

/-! ### All the blocks -/

/-- The block logs these events only, and the log holds what it logs. -/
structure WritesOnly (block : BcmCore → BcmCore) (events : List LogEvent) : Prop where
  log : ∀ s : BcmCore, (block s).log = (written block s).foldl Logger.put s.log
  mem : ∀ s, ∀ r ∈ written block s, r.event ∈ events

theorem WritesOnly.of_silent {block : BcmCore → BcmCore} (h : Silent block) :
    WritesOnly block [] where
  log := by
    intro s
    rw [written_of_silent h]
    exact h s
  mem := by
    intro s r hr
    rw [written_of_silent h] at hr
    exact absurd hr List.not_mem_nil

theorem WritesOnly.of_logsWhen {block : BcmCore → BcmCore} {c : BcmCore → Bool}
    {record : BcmCore → LogEvent × Nat} {events : List LogEvent} (h : LogsWhen block c record)
    (hevents : ∀ s, (record s).1 ∈ events) : WritesOnly block events where
  log := by
    intro s
    rw [written_of_logsWhen h]
    calc (block s).log = if c s then s.log.log 0 (record s).1 (record s).2 else s.log := (h s).2 s.log
      _ = (if c s then [⟨0, (record s).1, (record s).2⟩] else []).foldl Logger.put s.log := by
          cases c s with
          | false => rfl
          | true => rfl
  mem := by
    intro s r hr
    rw [written_of_logsWhen h] at hr
    cases hc : c s with
    | false =>
        rw [hc] at hr
        exact absurd hr List.not_mem_nil
    | true =>
        rw [hc] at hr
        rw [List.mem_singleton.mp hr]
        exact hevents s

/-- The events of the blocks of `apply_edges`, in their order. -/
def edgeEvents : List (List LogEvent) :=
  [[.lightMode], [.ignitionOff, .ignitionOn], [.indicatorLeft], [.indicatorRight],
    [.hazardOn, .hazardOff], [], [], [], [], [], [.brakeApplied, .brakeReleased], []]

/-- The events of the blocks of `step` after `apply_edges`. -/
def cycleEvents : List (List LogEvent) :=
  [[], [], [], [], [.lockRefused], [], [], [.batteryLow, .batteryOk],
    [.commsLost, .commsRestored], [.doorLocked, .doorUnlocked], [], []]

theorem mem_of_ite {c : Prop} [Decidable c] (a b : LogEvent) : (if c then a else b) ∈ [a, b] := by
  split
  · simp
  · simp

theorem edgeBlocks_write (cfg : Config) (dtMs : Nat) :
    List.Forall₂ WritesOnly (edgeBlocks cfg dtMs) edgeEvents := by
  refine .cons (.of_logsWhen (logsWhen_holdIgnition cfg dtMs) fun _ => ?_) ?_
  · exact List.mem_singleton_self _
  refine .cons (.of_logsWhen (logsWhen_releaseIgnition cfg) fun _ => mem_of_ite _ _) ?_
  refine .cons (.of_logsWhen logsWhen_pressIndicatorLeft fun _ => List.mem_singleton_self _) ?_
  refine .cons (.of_logsWhen logsWhen_pressIndicatorRight fun _ => List.mem_singleton_self _) ?_
  refine .cons (.of_logsWhen logsWhen_pressHazard fun _ => mem_of_ite _ _) ?_
  refine .cons (.of_silent fun _ => rfl) ?_
  refine .cons (.of_silent (silent_pressDoorLock cfg)) ?_
  refine .cons (.of_silent silent_takeHostLock) ?_
  refine .cons (.of_silent (silent_takeHostUnlock cfg)) ?_
  refine .cons (.of_silent silent_takeHostLightMode) ?_
  refine .cons (.of_logsWhen logsWhen_logBrakeChange fun _ => mem_of_ite _ _) ?_
  exact .cons (.of_silent fun _ => rfl) .nil

theorem cycleBlocks_write (cfg : Config) (dtMs : Nat) :
    List.Forall₂ WritesOnly (cycleBlocks cfg dtMs) cycleEvents := by
  refine .cons (.of_silent fun _ => rfl) ?_
  refine .cons (.of_silent fun _ => rfl) ?_
  refine .cons (.of_silent fun _ => rfl) ?_
  refine .cons (.of_silent fun _ => rfl) ?_
  refine .cons (.of_logsWhen logsWhen_reportLockRefused fun _ => List.mem_singleton_self _) ?_
  refine .cons (.of_silent fun _ => rfl) ?_
  refine .cons (.of_silent fun _ => rfl) ?_
  refine .cons (.of_logsWhen logsWhen_logLoadShedChange fun _ => mem_of_ite _ _) ?_
  refine .cons (.of_logsWhen logsWhen_logCommsChange fun _ => mem_of_ite _ _) ?_
  refine .cons (.of_logsWhen logsWhen_logDoorChange fun _ => mem_of_ite _ _) ?_
  refine .cons (.of_silent fun _ => rfl) ?_
  exact .cons (.of_silent fun _ => rfl) .nil

theorem log_runBlocks {blocks : List (BcmCore → BcmCore)} {events : List (List LogEvent)}
    (h : List.Forall₂ WritesOnly blocks events) (s : BcmCore) :
    (runBlocks blocks s).log = (writtenBy blocks s).foldl Logger.put s.log := by
  induction h generalizing s with
  | nil => rfl
  | @cons block _ blocks _ hblock _ ih =>
      change (runBlocks blocks (block s)).log = _
      rw [ih, hblock.log, writtenBy, List.foldl_append]

theorem records_eq (cfg : Config) (dtMs : Nat) (s : BcmCore) :
    s.records cfg dtMs =
      (if s.firstCycle then [] else writtenBy (edgeBlocks cfg dtMs) s) ++
        writtenBy (cycleBlocks cfg dtMs) (s.applyEdges cfg dtMs) := by
  unfold records blocksFrom applyEdges
  rw [writtenBy_append]
  split
  · rfl
  · rfl

/-- **The log holds what the cycle logs.** -/
theorem step_log (cfg : Config) (dtMs : Nat) (s : BcmCore) :
    (s.step cfg dtMs).log = (s.records cfg dtMs).foldl Logger.put s.log := by
  rw [records_eq, List.foldl_append, step, log_runBlocks (cycleBlocks_write cfg dtMs)]
  congr 1
  unfold applyEdges
  split
  · rfl
  · exact log_runBlocks (edgeBlocks_write cfg dtMs) s

/-! ### One kind of event -/

/-- The records up to a block, its own, and those after it. -/
theorem writtenBy_split {blocks : List (BcmCore → BcmCore)} {i : Nat} {block : BcmCore → BcmCore}
    (hi : blocks[i]? = some block) (s : BcmCore) :
    writtenBy blocks s =
      writtenBy (blocks.take i) s ++ (written block (runBlocks (blocks.take i) s) ++
        writtenBy (blocks.drop (i + 1)) (block (runBlocks (blocks.take i) s))) := by
  obtain ⟨hlt, hget⟩ := List.getElem?_eq_some_iff.mp hi
  have hsplit : blocks = blocks.take i ++ block :: blocks.drop (i + 1) := by
    rw [← hget, ← List.drop_eq_getElem_cons hlt, List.take_append_drop]
  calc writtenBy blocks s
      = writtenBy (blocks.take i ++ block :: blocks.drop (i + 1)) s := by rw [← hsplit]
    _ = _ := by
        rw [writtenBy_append]
        rfl

section Read

variable {β : Type*} {read : LogEvent → Option β} {blocks : List (BcmCore → BcmCore)}
  {events : List (List LogEvent)} (h : List.Forall₂ WritesOnly blocks events)

include h

theorem read_writtenBy_nil (hread : ∀ es ∈ events, ∀ e ∈ es, read e = none) (s : BcmCore) :
    (writtenBy blocks s).filterMap (fun r => read r.event) = [] := by
  induction h generalizing s with
  | nil => rfl
  | @cons block es blocks _ hblock _ ih =>
      rw [writtenBy, List.filterMap_append, ih fun es hes => hread es (by simp [hes]),
        List.append_nil]
      apply List.filterMap_eq_nil_iff.mpr
      intro r hr
      exact hread es (by simp) _ (hblock.mem s r hr)

/-- Where one block alone logs events of a kind, these are the block's. -/
theorem read_writtenBy {i : Nat} {block : BcmCore → BcmCore} (hi : blocks[i]? = some block)
    (hbefore : ∀ es ∈ events.take i, ∀ e ∈ es, read e = none)
    (hafter : ∀ es ∈ events.drop (i + 1), ∀ e ∈ es, read e = none) (s : BcmCore) :
    (writtenBy blocks s).filterMap (fun r => read r.event) =
      (written block (runBlocks (blocks.take i) s)).filterMap fun r => read r.event := by
  rw [writtenBy_split hi, List.filterMap_append, List.filterMap_append,
    read_writtenBy_nil (List.forall₂_take i h) hbefore,
    read_writtenBy_nil (List.forall₂_drop (i + 1) h) hafter, List.nil_append, List.append_nil]

end Read

end BcmCore

end Bcm
