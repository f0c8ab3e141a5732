import Bcm.Power
import Bcm.Lib.Runs

/-!
# The timers of the power machine

Wake and Shutdown are left by the transition timer alone, so it must be running in both. It may also
be running in Run, where a shutdown that the driver aborted has left it: there it runs out without
effect, unless another shutdown starts it afresh. In Sleep nothing of it is left, since Sleep is
entered by its expiry or by a reset.
-/

namespace Bcm

/-- Everything the rest of the firmware may do to a `PowerMgr`. -/
inductive PowerOp where
  | ignitionOn
  | ignitionOff
  | updateBattery (permille : Nat)
  | update (dtMs : Nat)
  | reset

namespace PowerMgr

def exec (cfg : Config) (p : PowerMgr) : PowerOp → PowerMgr
  | .ignitionOn => p.ignitionOn cfg
  | .ignitionOff => p.ignitionOff
  | .updateBattery permille => p.updateBattery permille
  | .update dtMs => p.update cfg dtMs
  | .reset => p.reset

def run (cfg : Config) (ops : List PowerOp) : PowerMgr := Runs.run (exec cfg) (new cfg) ops

/-- Both timers are one-shot. -/
structure OneShot (p : PowerMgr) : Prop where
  transition : p.transition.periodic = false
  inactivity : p.inactivity.periodic = false

theorem OneShot.ignitionOn {p : PowerMgr} (h : OneShot p) (cfg : Config) :
    OneShot (p.ignitionOn cfg) := by
  constructor
  · rw [ignitionOn_transition]
    split
    · rfl
    · exact h.transition
  · rcases p.ignitionOn_cases cfg with ⟨-, -, hsame⟩ | ⟨-, -, hstart⟩ | ⟨-, hsame⟩
    · rw [hsame]
      exact h.inactivity
    · rw [hstart]
      rfl
    · rw [hsame]
      exact h.inactivity

theorem OneShot.ignitionOff {p : PowerMgr} (h : OneShot p) : OneShot p.ignitionOff := by
  constructor
  · rw [ignitionOff_transition]
    split
    · rfl
    · exact h.transition
  · rcases p.ignitionOff_cases with ⟨-, -, hstop⟩ | ⟨-, hsame⟩
    · rw [hstop]
      exact h.inactivity
    · rw [hsame]
      exact h.inactivity

theorem OneShot.updateTransition {p : PowerMgr} (h : OneShot p) (cfg : Config) (dtMs : Nat) :
    OneShot (p.updateTransition cfg dtMs) := by
  obtain ⟨-, hinactivity, htransition⟩ := p.updateTransition_eq cfg dtMs
  constructor
  · rw [htransition, SoftTimer.advance_periodic]
    exact h.transition
  · rw [hinactivity]
    split
    · rfl
    · exact h.inactivity

theorem OneShot.updateInactivity {p : PowerMgr} (h : OneShot p) (dtMs : Nat) :
    OneShot (p.updateInactivity dtMs) := by
  constructor
  · rw [updateInactivity_transition]
    split
    · rfl
    · exact h.transition
  · rw [updateInactivity_inactivity, SoftTimer.advance_periodic]
    exact h.inactivity

theorem OneShot.exec {p : PowerMgr} (h : OneShot p) (cfg : Config) (op : PowerOp) :
    OneShot (p.exec cfg op) := by
  cases op with
  | ignitionOn => exact h.ignitionOn cfg
  | ignitionOff => exact h.ignitionOff
  | updateBattery permille =>
      rw [PowerMgr.exec]
      exact ⟨by rw [updateBattery_transition]; exact h.transition,
        by rw [updateBattery_inactivity]; exact h.inactivity⟩
  | update dtMs => exact (h.updateTransition cfg dtMs).updateInactivity dtMs
  | reset => exact ⟨h.transition, h.inactivity⟩

/-- What each timer has to do with the state. -/
structure TimersMatch (p : PowerMgr) : Prop where
  /-- a transient state has its end ahead -/
  transient : p.state = .wake ∨ p.state = .shutdown → p.transition.running = true
  asleep : p.state = .sleep → p.transition.running = false
  inactivity : p.inactivity.running = decide (p.state = .run)

theorem TimersMatch.of_asleep {p : PowerMgr} (hstate : p.state = .sleep)
    (htransition : p.transition.running = false) (hinactivity : p.inactivity.running = false) :
    TimersMatch p := by
  refine ⟨fun htransient => ?_, fun _ => htransition, ?_⟩
  · rw [hstate] at htransient
    exact absurd htransient (by decide)
  · rw [hstate, hinactivity]
    rfl

theorem TimersMatch.ignitionOn {cfg : Config} (hafter : 0 < cfg.sleepAfterMs) {p : PowerMgr}
    (h : TimersMatch p) : TimersMatch (p.ignitionOn cfg) := by
  have htransition := p.ignitionOn_transition cfg
  have hinactivity := h.inactivity
  rcases p.ignitionOn_cases cfg with ⟨hfrom, hto, hsame⟩ | ⟨hfrom, hto, hstart⟩ | ⟨-, hsame⟩
  · rw [if_pos hfrom] at htransition
    rw [hfrom] at hinactivity
    refine ⟨fun _ => ?_, fun hsleep => ?_, ?_⟩
    · rw [htransition, SoftTimer.start_running]
      decide
    · rw [hto] at hsleep
      exact absurd hsleep (by decide)
    · rw [hsame, hto, hinactivity]
      rfl
  · -- an aborted shutdown leaves the transition timer running
    refine ⟨fun hstate => ?_, fun hsleep => ?_, ?_⟩
    · rw [hto] at hstate
      exact absurd hstate (by decide)
    · rw [hto] at hsleep
      exact absurd hsleep (by decide)
    · rw [hstart, hto, SoftTimer.start_running]
      simpa using hafter
  · rw [hsame]
    exact h

theorem TimersMatch.ignitionOff {p : PowerMgr} (h : TimersMatch p) :
    TimersMatch p.ignitionOff := by
  have htransition := p.ignitionOff_transition
  rcases p.ignitionOff_cases with ⟨hfrom, hto, hstop⟩ | ⟨-, hsame⟩
  · rw [if_pos hfrom] at htransition
    refine ⟨fun _ => ?_, fun hsleep => ?_, ?_⟩
    · rw [htransition, SoftTimer.start_running]
      decide
    · rw [hto] at hsleep
      exact absurd hsleep (by decide)
    · rw [hstop, hto]
      rfl
  · rw [hsame]
    exact h

/-- The transition timer expires into Run or into Sleep, or has been left over in Run. -/
theorem TimersMatch.updateTransition {cfg : Config} (hafter : 0 < cfg.sleepAfterMs) (dtMs : Nat)
    {p : PowerMgr} (h : TimersMatch p) (hshot : OneShot p) :
    TimersMatch (p.updateTransition cfg dtMs) := by
  obtain ⟨hstate, hinactivity, htransition⟩ := p.updateTransition_eq cfg dtMs
  have hrunning := SoftTimer.advance_running hshot.transition dtMs
  rw [← htransition] at hrunning
  cases hexpires : p.transition.expires dtMs with
  | false =>
      rw [if_neg (by simp [hexpires])] at hstate hinactivity
      rw [hexpires, Bool.not_false, Bool.and_true] at hrunning
      constructor
      · rw [hstate, hrunning]
        exact h.transient
      · rw [hstate, hrunning]
        exact h.asleep
      · rw [hstate, hinactivity]
        exact h.inactivity
  | true =>
      rw [if_pos hexpires] at hstate
      rw [hexpires, Bool.not_true, Bool.and_false] at hrunning
      have hkept := h.inactivity
      refine ⟨fun htransient => ?_, fun _ => hrunning, ?_⟩
      · rw [hstate] at htransient
        cases hfrom : p.state <;> rw [hfrom] at htransient <;> simp [settled] at htransient
      · rw [hstate, hinactivity]
        cases hfrom : p.state with
        | wake =>
            rw [if_pos ⟨hexpires, rfl⟩, SoftTimer.start_running]
            simpa [settled] using hafter
        | _ =>
            rw [hfrom] at hkept
            rw [if_neg (by simp), hkept]
            rfl

theorem TimersMatch.updateInactivity (dtMs : Nat) {p : PowerMgr} (h : TimersMatch p)
    (hshot : OneShot p) : TimersMatch (p.updateInactivity dtMs) := by
  have hstate := p.updateInactivity_state dtMs
  have htransition := p.updateInactivity_transition dtMs
  have hrunning := SoftTimer.advance_running hshot.inactivity dtMs
  rw [← updateInactivity_inactivity] at hrunning
  cases hexpires : p.inactivity.expires dtMs with
  | false =>
      rw [if_neg (by simp [hexpires])] at hstate htransition
      rw [hexpires, Bool.not_false, Bool.and_true] at hrunning
      constructor
      · rw [hstate, htransition]
        exact h.transient
      · rw [hstate, htransition]
        exact h.asleep
      · rw [hstate, hrunning]
        exact h.inactivity
  | true =>
      -- only in Run is the inactivity timer there to expire
      have hfrom : p.state = .run := by
        have hran := (SoftTimer.expires_eq_true_iff.mp hexpires).1
        rw [h.inactivity] at hran
        exact of_decide_eq_true hran
      rw [if_pos ⟨hexpires, hfrom⟩] at hstate htransition
      rw [hexpires, Bool.not_true, Bool.and_false] at hrunning
      refine ⟨fun _ => ?_, fun hsleep => ?_, ?_⟩
      · rw [htransition, SoftTimer.start_running]
        decide
      · rw [hstate] at hsleep
        exact absurd hsleep (by decide)
      · rw [hstate, hrunning]
        rfl

theorem TimersMatch.exec {cfg : Config} (hafter : 0 < cfg.sleepAfterMs) {p : PowerMgr}
    (h : TimersMatch p) (hshot : OneShot p) (op : PowerOp) : TimersMatch (p.exec cfg op) := by
  cases op with
  | ignitionOn => exact h.ignitionOn hafter
  | ignitionOff => exact h.ignitionOff
  | updateBattery permille =>
      rw [PowerMgr.exec]
      constructor
      · rw [updateBattery_state, updateBattery_transition]
        exact h.transient
      · rw [updateBattery_state, updateBattery_transition]
        exact h.asleep
      · rw [updateBattery_state, updateBattery_inactivity]
        exact h.inactivity
  | update dtMs =>
      have hhalf := h.updateTransition hafter dtMs hshot
      exact hhalf.updateInactivity dtMs (hshot.updateTransition cfg dtMs)
  | reset => exact TimersMatch.of_asleep rfl rfl rfl

/-- **No transient state without an end.** -/
theorem timersMatch_run {cfg : Config} (hafter : 0 < cfg.sleepAfterMs) (ops : List PowerOp) :
    TimersMatch (run cfg ops) := by
  have hreachable : Runs.Reachable (exec cfg) (new cfg) (fun _ => True) (run cfg ops) :=
    ⟨ops, fun _ _ => trivial, rfl⟩
  have hboth : OneShot (run cfg ops) ∧ TimersMatch (run cfg ops) := by
    refine hreachable.invariant (I := fun p => OneShot p ∧ TimersMatch p) ?_ ?_
    · exact ⟨⟨rfl, rfl⟩, TimersMatch.of_asleep rfl rfl rfl⟩
    · rintro p op - ⟨hshot, hmatch⟩
      exact ⟨hshot.exec cfg op, hmatch.exec hafter hshot op⟩
  exact hboth.2

/-- A shutdown aborted halfway leaves its timer running into Run. -/
theorem timersMatch_run_aborted :
    TimersMatch (run .shipped [.ignitionOn, .update 200, .ignitionOff, .update 5, .ignitionOn]) :=
  timersMatch_run (by decide) [.ignitionOn, .update 200, .ignitionOff, .update 5, .ignitionOn]

end PowerMgr

end Bcm
