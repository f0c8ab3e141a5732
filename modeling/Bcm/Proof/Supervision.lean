import Bcm.RtosApp

/-!
# A hung task stops the watchdog

Every refresh costs a check-in of every supervised task: the wait that allows it takes all the bits.
So what a task that has stopped checking in can still pay for is the one bit it may have left.
-/

namespace Bcm

theorem kCheckInAll_getLsbD (id : TaskId) : kCheckInAll.getLsbD id.toNat = true := by
  cases id <;> decide

theorem TaskId.bit_getLsbD {id other : TaskId} (hne : id ≠ other) :
    id.bit.getLsbD other.toNat = false := by
  cases id <;> cases other <;> first | exact absurd rfl hne | decide

namespace RtosApp

variable {G : Type} {E : EventGroup G 32}

theorem decideRefresh_refreshes {a : RtosApp G}
    (hrefreshed : (a.decideRefresh E).refreshes ≠ a.refreshes) : a.diag.healthy = true := by
  unfold decideRefresh at hrefreshed
  dsimp only at hrefreshed
  split at hrefreshed
  case isTrue hboth => exact hboth.2
  case isFalse => exact absurd rfl hrefreshed

theorem exec_refreshes {a : RtosApp G} {action : Action}
    (hrefreshed : (a.exec E action).refreshes ≠ a.refreshes) : a.diag.healthy = true := by
  cases action with
  | checkIn id =>
      unfold exec at hrefreshed
      dsimp only at hrefreshed
      split at hrefreshed
      · exact decideRefresh_refreshes (E := E)
          (a := { a with checkin := E.setBits a.checkin id.bit }) hrefreshed
      · exact absurd rfl hrefreshed
  | setHealth sys state => exact absurd rfl hrefreshed
  | postResult sys passed => exact absurd rfl hrefreshed
  | wait =>
      unfold exec at hrefreshed
      dsimp only at hrefreshed
      split at hrefreshed
      · exact absurd rfl hrefreshed
      · split at hrefreshed
        · exact decideRefresh_refreshes hrefreshed
        · exact absurd rfl hrefreshed
  | timeOut =>
      unfold exec at hrefreshed
      dsimp only at hrefreshed
      split at hrefreshed
      · exact decideRefresh_refreshes hrefreshed
      · exact absurd rfl hrefreshed

/-- What the task can pay for: the refreshes so far, and one more for a bit that is there. -/
def allowance (E : EventGroup G 32) (id : TaskId) (a : RtosApp G) : Nat :=
  a.refreshes + E.pending a.checkin id.toNat

section

variable (hE : E.Lawful)

include hE

theorem decideRefresh_allowance (a : RtosApp G) (id : TaskId) :
    (a.decideRefresh E).allowance E id ≤ a.allowance E id := by
  have hreturned := hE.returned a.checkin kCheckInAll
  unfold decideRefresh allowance
  dsimp only
  rw [hreturned]
  by_cases hall : E.value a.checkin &&& kCheckInAll = kCheckInAll
  · obtain ⟨hpaid, hspent⟩ := hE.pending_satisfied hall (kCheckInAll_getLsbD id)
    split
    · rw [hspent, hpaid]
    · rw [hspent, hpaid]
      exact Nat.le_succ a.refreshes
  · rw [if_neg fun hboth => hall hboth.1, hE.pending_timed_out hall]

/-- Only a check-in of the task itself adds to what it can pay for. -/
theorem exec_allowance {a : RtosApp G} {action : Action} {id : TaskId}
    (hsilent : action ≠ .checkIn id) : (a.exec E action).allowance E id ≤ a.allowance E id := by
  cases action with
  | checkIn other =>
      have hne : other ≠ id := fun heq => hsilent (congrArg Action.checkIn heq)
      have hset : allowance E id { a with checkin := E.setBits a.checkin other.bit } =
          a.allowance E id := by
        unfold allowance
        rw [hE.pending_setBits a.checkin (TaskId.bit_getLsbD hne)]
      unfold exec
      dsimp only
      split
      · exact (decideRefresh_allowance hE _ id).trans hset.le
      · exact hset.le
  | setHealth sys state => exact Nat.le_refl _
  | postResult sys passed => exact Nat.le_refl _
  | wait =>
      unfold exec
      dsimp only
      split
      · exact Nat.le_refl _
      · split
        · exact decideRefresh_allowance hE a id
        · exact Nat.le_refl _
  | timeOut =>
      unfold exec
      dsimp only
      split
      · exact decideRefresh_allowance hE a id
      · exact Nat.le_refl _

/-- **A hung task stops the watchdog.** Once a supervised task checks in no more, at most one
refresh is left, and no action refreshes the watchdog while a subsystem has failed. -/
theorem run_supervised (g : G) (before : List Action) :
    (∀ (id : TaskId) (after : List Action), .checkIn id ∉ after →
        (run E g (before ++ after)).refreshes ≤ (run E g before).refreshes + 1) ∧
      ∀ action, (run E g (before ++ [action])).refreshes ≠ (run E g before).refreshes →
        ∀ sys, (run E g before).diag.health sys ≠ .failed := by
  constructor
  · intro id after hhung
    have hpaid : (run E g (before ++ after)).allowance E id ≤ (run E g before).allowance E id := by
      unfold run
      rw [Runs.run_append]
      apply Runs.run_le
      intro action haction a
      exact exec_allowance hE fun heq => hhung (heq ▸ haction)
    calc (run E g (before ++ after)).refreshes
      _ ≤ (run E g (before ++ after)).allowance E id := Nat.le_add_right _ _
      _ ≤ (run E g before).allowance E id := hpaid
      _ ≤ (run E g before).refreshes + 1 := Nat.add_le_add_left (E.pending_le _ _) _
  · intro action hrefreshed
    unfold run at hrefreshed ⊢
    rw [Runs.run_concat] at hrefreshed
    exact (DiagMgr.healthy_iff _).mp (exec_refreshes hrefreshed)

end

/-- Every task checks in and the wait is satisfied. Then the logger hangs, its bit set. -/
theorem run_supervised_logger :
    let before : List Action :=
      [.checkIn .control, .checkIn .sensor, .checkIn .logger, .checkIn .monitor, .wait,
        .checkIn .logger]
    let after : List Action :=
      [.wait, .checkIn .control, .checkIn .sensor, .checkIn .monitor, .wait, .checkIn .control,
        .timeOut]
    (run (.word 32) 0 (before ++ after)).refreshes ≤ (run (.word 32) 0 before).refreshes + 1 :=
  (run_supervised (EventGroup.word_lawful 32) 0 _).1 .logger _ (by decide)

end RtosApp

end Bcm
