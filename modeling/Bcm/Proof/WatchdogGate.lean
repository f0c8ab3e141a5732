import Bcm.Lib.Register
import Bcm.Post
import Bcm.Proof.Supervision

/-!
# The gate of the watchdog

When exactly the supervisor refreshes, told from the self test at startup and from what the monitor
has reported since: the last report of the UART and of the ADC decides, a failed clock only until
the monitor first reports on it, and the two subsystems that are not tested never.
-/

namespace Bcm.RtosApp

/-- The results of `run_post`. -/
def postActions (hw : SelfTest.Hardware) : List Action :=
  (SelfTest.postResults hw).map fun result => .postResult result.1 result.2

/-- After the self test only the monitor reports on the subsystems. -/
def FromMonitor (actions : List Action) : Prop :=
  ∀ action ∈ actions, match action with
    | .setHealth sys state => ∃ hw, (sys, state) ∈ SelfTest.monitorReports hw
    | .postResult _ _ => False
    | .checkIn _ | .wait | .timeOut => True

/-- The health that an action reports of a subsystem. -/
def healthOf (sys : Subsystem) : Action → Option Health
  | .setHealth sys' state => if sys = sys' then some state else none
  | .postResult sys' passed => if sys = sys' then some (if passed then .ok else .failed) else none
  | _ => none

variable {G : Type} (E : EventGroup G 32)

/-- The action ends a wait that finds every check-in. -/
def EndsWait (a : RtosApp G) : Action → Prop
  | .checkIn id =>
      a.waiting = true ∧ AllIn E { a with checkin := E.setBits a.checkin id.bit }
  | .wait => a.waiting = false ∧ a.AllIn E
  | .timeOut => a.waiting = true ∧ a.AllIn E
  | .setHealth _ _ | .postResult _ _ => False

variable {E}

theorem health_decideRefresh (a : RtosApp G) : (a.decideRefresh E).diag = a.diag := by
  unfold decideRefresh
  dsimp only
  split
  · rfl
  · rfl

theorem health_exec (sys : Subsystem) (a : RtosApp G) (action : Action) :
    (a.exec E action).diag.health sys = (healthOf sys action).getD (a.diag.health sys) := by
  have hset : ∀ sys' state, (a.diag.setHealth sys' state).health sys =
      (if sys = sys' then some state else none).getD (a.diag.health sys) := by
    intro sys' state
    refine (Function.update_apply a.diag.health sys' state sys).trans ?_
    split
    · rfl
    · rfl
  cases action with
  | checkIn id =>
      unfold exec
      dsimp only
      split
      · rw [health_decideRefresh]
        rfl
      · rfl
  | setHealth sys' state => exact hset sys' state
  | postResult sys' passed => exact hset sys' _
  | wait =>
      unfold exec
      dsimp only
      split
      · rfl
      · split
        · rw [health_decideRefresh]
          rfl
        · rfl
  | timeOut =>
      unfold exec
      dsimp only
      split
      · rw [health_decideRefresh]
        rfl
      · rfl

theorem health_run (sys : Subsystem) (g : G) (actions : List Action) :
    (run E g actions).diag.health sys =
      (Register.last (healthOf sys) actions).getD .unknown :=
  Register.read_run (healthOf sys) (fun a : RtosApp G => a.diag.health sys)
    (health_exec sys) (start g) actions

section Gate

variable {actions : List Action} (h : FromMonitor actions)

include h

theorem healthOf_eq_none {sys : Subsystem} (hsys : sys = .gpio ∨ sys = .config) :
    Register.last (healthOf sys) actions = none := by
  apply Register.last_eq_none
  intro action haction
  have hmonitor := h action haction
  cases action with
  | setHealth sys' state =>
      obtain ⟨hw, hreport⟩ := hmonitor
      rw [healthOf, if_neg]
      rintro rfl
      rcases hsys with rfl | rfl <;> simp [SelfTest.monitorReports] at hreport
  | postResult sys' passed => exact hmonitor.elim
  | _ => rfl

/-- No report of the monitor says that the clock has failed. -/
theorem clock_ne_failed {state : Health}
    (hstate : Register.last (healthOf .clock) actions = some state) : state ≠ .failed := by
  have hmem := List.mem_of_getLast? hstate
  obtain ⟨action, haction, hreports⟩ := List.mem_filterMap.mp hmem
  have hmonitor := h action haction
  cases action with
  | setHealth sys' state' =>
      obtain ⟨hw, hreport⟩ := hmonitor
      rw [healthOf] at hreports
      split at hreports
      case isTrue hsame =>
        rw [← hsame, Option.some.inj hreports] at hreport
        simp only [SelfTest.monitorReports, List.mem_cons, Prod.mk.injEq, reduceCtorEq,
          false_and, List.not_mem_nil, or_false, true_and, false_or] at hreport
        rw [hreport]
        split
        · decide
        · decide
      case isFalse => exact absurd hreports (by simp)
  | postResult sys' passed => exact hmonitor.elim
  | _ => exact absurd hreports (by simp [healthOf])

end Gate

/-- The health of a subsystem after the self test. -/
def postHealth (hw : SelfTest.Hardware) : Subsystem → Health
  | .clock => if hw.clockAtSpeed then .ok else .failed
  | .adc => if hw.adcReady then .ok else .failed
  | .uart => if hw.uartReady then .ok else .failed
  | .gpio | .config => .ok

theorem last_postActions (hw : SelfTest.Hardware) (sys : Subsystem) :
    Register.last (healthOf sys) (postActions hw) = some (postHealth hw sys) := by
  cases sys <;> rfl

/-- When the supervisor finds the subsystems healthy, told from the start and from the reports. -/
def GateOpen (hw : SelfTest.Hardware) (actions : List Action) : Prop :=
  (Register.last (healthOf .uart) actions).getD (postHealth hw .uart) ≠ .failed ∧
    (Register.last (healthOf .adc) actions).getD (postHealth hw .adc) ≠ .failed ∧
    (hw.clockAtSpeed = true ∨ ∃ state, .setHealth .clock state ∈ actions)

theorem healthy_iff_gateOpen (g : G) (hw : SelfTest.Hardware) {actions : List Action}
    (h : FromMonitor actions) :
    (run E g (postActions hw ++ actions)).diag.healthy = true ↔ GateOpen hw actions := by
  have hhealth : ∀ sys, (run E g (postActions hw ++ actions)).diag.health sys =
      (Register.last (healthOf sys) actions).getD (postHealth hw sys) := by
    intro sys
    rw [health_run, Register.last_append, last_postActions]
    cases Register.last (healthOf sys) actions with
    | none => rfl
    | some state => rfl
  have hclock : (run E g (postActions hw ++ actions)).diag.health .clock ≠ .failed ↔
      (hw.clockAtSpeed = true ∨ ∃ state, .setHealth .clock state ∈ actions) := by
    rw [hhealth]
    cases hlast : Register.last (healthOf .clock) actions with
    | some state =>
        have hsome : (Register.last (healthOf .clock) actions).isSome = true := by rw [hlast]; rfl
        obtain ⟨action, haction, hreports⟩ := (Register.last_isSome_iff _).mp hsome
        have hreported : ∃ state, .setHealth .clock state ∈ actions := by
          have hmonitor := h action haction
          cases action with
          | setHealth sys' state' =>
              rw [healthOf] at hreports
              split at hreports
              case isTrue hsame => exact ⟨state', hsame ▸ haction⟩
              case isFalse => exact absurd hreports Bool.false_ne_true
          | postResult sys' passed => exact hmonitor.elim
          | _ => exact absurd hreports Bool.false_ne_true
        exact iff_of_true (clock_ne_failed h hlast) (Or.inr hreported)
    | none =>
        have hsilent : ¬∃ state, .setHealth .clock state ∈ actions := by
          rintro ⟨state, haction⟩
          have hsome := (Register.last_isSome_iff (healthOf .clock)).mpr ⟨_, haction, by rfl⟩
          rw [hlast] at hsome
          exact absurd hsome Bool.false_ne_true
        rw [Option.getD_none, postHealth]
        cases hw.clockAtSpeed with
        | true => simp
        | false => simpa using hsilent
  rw [DiagMgr.healthy_iff, GateOpen, ← hclock, ← hhealth, ← hhealth]
  constructor
  · intro hgood
    exact ⟨hgood .uart, hgood .adc, hgood .clock⟩
  · rintro ⟨huart, hadc, hgood⟩ sys
    have hok : Health.ok ≠ .failed := by decide
    cases sys with
    | clock => exact hgood
    | adc => exact hadc
    | uart => exact huart
    | gpio =>
        rw [hhealth, healthOf_eq_none h (Or.inl rfl)]
        exact hok
    | config =>
        rw [hhealth, healthOf_eq_none h (Or.inr rfl)]
        exact hok

/-! ### When it refreshes -/

section

variable (hE : E.Lawful)

include hE

theorem refreshes_decideRefresh (a : RtosApp G) :
    (a.decideRefresh E).refreshes = a.refreshes + 1 ↔ a.AllIn E ∧ a.diag.healthy = true := by
  unfold decideRefresh AllIn
  dsimp only
  rw [hE.returned]
  split
  case isTrue hboth => exact iff_of_true rfl hboth
  case isFalse hnot => exact iff_of_false (Nat.succ_ne_self _).symm hnot

theorem refreshes_exec_iff (a : RtosApp G) (action : Action) :
    (a.exec E action).refreshes = a.refreshes + 1 ↔
      EndsWait E a action ∧ a.diag.healthy = true := by
  have hself : ¬a.refreshes = a.refreshes + 1 := (Nat.succ_ne_self _).symm
  cases action with
  | checkIn id =>
      unfold exec EndsWait
      dsimp only
      split
      case isTrue hends =>
        have hdecides := refreshes_decideRefresh hE { a with checkin := E.setBits a.checkin id.bit }
        rw [hdecides]
        exact and_congr_left fun _ => iff_of_true hends.2 hends
      case isFalse hnot => exact iff_of_false hself fun hboth => hnot hboth.1
  | setHealth sys state => exact iff_of_false hself fun hboth => hboth.1
  | postResult sys passed => exact iff_of_false hself fun hboth => hboth.1
  | wait =>
      unfold exec EndsWait
      dsimp only
      split
      case isTrue hwaiting =>
        refine iff_of_false hself ?_
        rintro ⟨⟨hnot, -⟩, -⟩
        rw [hwaiting] at hnot
        exact Bool.noConfusion hnot
      case isFalse hnot =>
        split
        case isTrue hall =>
          rw [refreshes_decideRefresh hE]
          exact and_congr_left fun _ =>
            iff_of_true hall ⟨Bool.eq_false_iff.mpr hnot, hall⟩
        case isFalse hsome => exact iff_of_false hself fun hboth => hsome hboth.1.2
  | timeOut =>
      unfold exec EndsWait
      dsimp only
      split
      case isTrue hwaiting =>
        rw [refreshes_decideRefresh hE]
        exact and_congr_left fun _ => ⟨fun hall => ⟨hwaiting, hall⟩, fun hends => hends.2⟩
      case isFalse hnot => exact iff_of_false hself fun hboth => hnot hboth.1.1

/-- **Exactly when the watchdog is refreshed.** After the self test and any interleaving of
check-ins, waits, timeouts and reports of the monitor, an action refreshes if and only if it ends a
wait with every check-in there and the gate is open. -/
theorem refreshed_iff (g : G) (hw : SelfTest.Hardware) {actions : List Action}
    (h : FromMonitor actions) (action : Action) :
    let a := run E g (postActions hw ++ actions)
    (run E g (postActions hw ++ actions ++ [action])).refreshes = a.refreshes + 1 ↔
      EndsWait E a action ∧ GateOpen hw actions := by
  intro a
  rw [run, Runs.run_concat, ← run, refreshes_exec_iff hE, healthy_iff_gateOpen g hw h]

end

/-- A clock that fails the self test keeps the gate shut until the monitor reports it degraded. -/
theorem refreshed_iff_slow_clock :
    let hw : SelfTest.Hardware := ⟨false, true, true⟩
    let actions : List Action :=
      [.setHealth .uart .ok, .setHealth .adc .ok, .setHealth .clock .degraded, .checkIn .control,
        .checkIn .sensor, .checkIn .logger, .checkIn .monitor]
    let a := run (.word 32) 0 (postActions hw ++ actions)
    (run (.word 32) 0 (postActions hw ++ actions ++ [.wait])).refreshes = a.refreshes + 1 ↔
      EndsWait (.word 32) a .wait ∧ GateOpen hw actions := by
  intro hw actions
  refine refreshed_iff (EventGroup.word_lawful 32) 0 hw ?_ .wait
  intro action haction
  simp only [actions, List.mem_cons, List.not_mem_nil, or_false] at haction
  rcases haction with rfl | rfl | rfl | rfl | rfl | rfl | rfl
  · exact ⟨hw, by decide⟩
  · exact ⟨hw, by decide⟩
  · exact ⟨hw, by decide⟩
  all_goals trivial

end Bcm.RtosApp
