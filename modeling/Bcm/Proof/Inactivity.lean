import Bcm.Proof.CoreStep

/-!
# Sleep by inactivity

`Config::sleep_after_ms` is the inactivity before entering Sleep. The timer that measures it starts
when Run is entered and nothing starts it again, so what it measures is the time in Run. The two
agree in the runs where a restart would have changed nothing: whenever a driver input moves in Run,
the timer is still where it started. After any other move the core can be asleep too early.

An input level seen by a step is in force for the length of that step, so a change seen by a step is
as old at the end of a later one as the steps from the first to the second are long together.
-/

namespace Bcm

def Inputs.driver (i : Inputs) : List Bool :=
  [i.ignition, i.indLeft, i.indRight, i.hazard, i.brake, i.doorLock]

/-- Every change of a driver input along these steps is at least `window` old at their end. -/
def DriverQuiet (window : Nat) (steps : List (Inputs × Nat)) : Prop :=
  ∀ older before after recent, steps = older ++ before :: after :: recent →
    before.1.driver ≠ after.1.driver → window ≤ after.2 + (recent.map Prod.snd).sum

theorem driverQuiet_zero (steps : List (Inputs × Nat)) : DriverQuiet 0 steps :=
  fun _ _ _ _ _ _ => Nat.zero_le _

/-- One more step ages every change by its length. A change it sees itself is as old as it is
long. -/
theorem DriverQuiet.concat {window window' : Nat} {steps : List (Inputs × Nat)} {inputs : Inputs}
    {dtMs : Nat} (h : DriverQuiet window steps) (hwindow : window' ≤ window + dtMs)
    (hlast : ∀ last ∈ steps.getLast?, last.1.driver ≠ inputs.driver → window' ≤ dtMs) :
    DriverQuiet window' (steps ++ [(inputs, dtMs)]) := by
  intro older before after recent hsteps hchange
  rcases List.eq_nil_or_concat recent with rfl | ⟨recent, newest, rfl⟩
  · -- the change is the one this step sees
    have hsplit : steps ++ [(inputs, dtMs)] = (older ++ [before]) ++ [after] := by
      rw [hsteps, List.append_assoc]
      rfl
    obtain ⟨hfront, hback⟩ := List.append_inj' hsplit rfl
    have hafter : (inputs, dtMs) = after := List.singleton_inj.mp hback
    have hage : window' ≤ dtMs := by
      refine hlast before (by simp [hfront]) ?_
      rw [← hafter] at hchange
      exact hchange
    rw [← hafter]
    simpa using hage
  · have hsplit : steps ++ [(inputs, dtMs)] =
        (older ++ before :: after :: recent) ++ [newest] := by
      rw [hsteps, List.append_assoc, List.cons_append, List.cons_append, List.concat_eq_append]
    obtain ⟨hfront, hback⟩ := List.append_inj' hsplit rfl
    have hnewest : (inputs, dtMs) = newest := List.singleton_inj.mp hback
    have hold := h older before after recent hfront hchange
    rw [← hnewest, List.concat_eq_append, List.map_append, List.sum_append]
    simp only [List.map_cons, List.map_nil, List.sum_cons, List.sum_nil]
    omega

theorem DriverQuiet.of_change {window dtMs : Nat} {steps recent : List (Inputs × Nat)}
    {inputs : Inputs} {last : Inputs × Nat}
    (h : DriverQuiet window (steps ++ (inputs, dtMs) :: recent))
    (hlast : steps.getLast? = some last) (hchange : last.1.driver ≠ inputs.driver) :
    window ≤ dtMs + (recent.map Prod.snd).sum := by
  obtain ⟨older, rfl⟩ := List.getLast?_eq_some_iff.mp hlast
  exact h older last (inputs, dtMs) recent (by simp) hchange

namespace BcmCore

/-- A step that finds a driver input moved, in Run, with the inactivity timer already part of the
way down and more of it to come than the step is long. Here a restart would have made a
difference. -/
def MissedRestart (cfg : Config) (s : BcmCore) (dtMs : Nat) : Prop :=
  s.power.state = .run ∧ s.ignitionOffPress = false ∧ s.inputs.driver ≠ s.previous.driver ∧
    s.power.inactivity.running = true ∧ s.power.inactivity.remaining < cfg.sleepAfterMs ∧
    dtMs < cfg.sleepAfterMs

instance (cfg : Config) (s : BcmCore) (dtMs : Nat) : Decidable (MissedRestart cfg s dtMs) :=
  inferInstanceAs (Decidable (_ ∧ _))

def MissesNone (cfg : Config) (s : BcmCore) : CoreOp → Prop
  | .step dtMs => ¬ MissedRestart cfg s dtMs
  | _ => True

instance (cfg : Config) (s : BcmCore) (op : CoreOp) : Decidable (MissesNone cfg s op) :=
  match op with
  | .step dtMs => inferInstanceAs (Decidable (¬ MissedRestart cfg s dtMs))
  | .setInputs _ | .setCommsLost _ | .setHostRequest _ _ | .requestDoorLock | .requestDoorUnlock
  | .requestLightMode | .reset | .setFault _ | .clearFaults | .popLog =>
      inferInstanceAs (Decidable True)

/-- A step that takes the core from Run to Shutdown without an ignition-off press comes after
`sleep_after_ms` without driver activity. -/
def SleepsQuietly (cfg : Config) (ops : List CoreOp) (dtMs : Nat) : Prop :=
  (run cfg ops).power.state = .run → ((run cfg ops).step cfg dtMs).power.state = .shutdown →
    (run cfg ops).ignitionOffPress = false →
    DriverQuiet cfg.sleepAfterMs (history (ops ++ [.step dtMs])).steps

/-! ### The core and its history -/

structure Traced (ops : List CoreOp) (s : BcmCore) : Prop where
  inputs : (history ops).inputs = s.inputs
  asleep : s.firstCycle = true → s.power.state = .sleep
  previous : s.firstCycle = false → ∃ dtMs, (history ops).steps.getLast? = some (s.previous, dtMs)

theorem Traced.getLast? {ops : List CoreOp} {s : BcmCore} (h : Traced ops s)
    (hstate : s.power.state = .run) :
    ∃ dtMs, (history ops).steps.getLast? = some (s.previous, dtMs) := by
  refine h.previous ?_
  by_contra hfirst
  have hasleep := h.asleep (by simpa using hfirst)
  rw [hstate] at hasleep
  exact absurd hasleep (by decide)

theorem Traced.steps_step {ops : List CoreOp} {s : BcmCore} (h : Traced ops s) (dtMs : Nat) :
    (history (ops ++ [.step dtMs])).steps = (history ops).steps ++ [(s.inputs, dtMs)] := by
  rw [history_concat, History.observe, h.inputs]

theorem Traced.exec (cfg : Config) {ops : List CoreOp} {s : BcmCore} (h : Traced ops s)
    (op : CoreOp) : Traced (ops ++ [op]) (exec cfg s op) := by
  cases op with
  | step dtMs =>
      constructor
      · rw [history_concat, BcmCore.exec, step_inputs]
        exact h.inputs
      · intro hfirst
        rw [BcmCore.exec, step_firstCycle] at hfirst
        exact absurd hfirst (by decide)
      · intro _
        refine ⟨dtMs, ?_⟩
        rw [h.steps_step, BcmCore.exec, step_previous]
        simp
  | reset =>
      constructor
      · rw [history_concat]
        rfl
      · exact fun _ => rfl
      · exact fun hfirst => absurd hfirst (by simp [BcmCore.exec, reset])
  | setInputs inputs =>
      constructor
      · rw [history_concat]
        rfl
      · exact h.asleep
      · rw [history_concat]
        exact h.previous
  | _ =>
      constructor
      · rw [history_concat]
        exact h.inputs
      · exact h.asleep
      · rw [history_concat]
        exact h.previous

theorem traced_run (cfg : Config) (ops : List CoreOp) : Traced ops (run cfg ops) := by
  induction ops using List.reverseRecOn with
  | nil => exact ⟨rfl, fun _ => rfl, fun hfirst => absurd hfirst (by simp [run, new])⟩
  | append_singleton ops op ih =>
      rw [run_concat]
      exact ih.exec cfg op

/-! ### The timer along a run -/

/-- The inactivity timer runs only in Run, as a one-shot, and no driver input moved in the time it
has counted. -/
def Counts (cfg : Config) (steps : List (Inputs × Nat)) (p : PowerMgr) : Prop :=
  p.inactivity.periodic = false ∧
    (p.inactivity.running = true → p.state = .run ∧ 0 < p.inactivity.remaining ∧
      p.inactivity.remaining ≤ cfg.sleepAfterMs ∧
      DriverQuiet (cfg.sleepAfterMs - p.inactivity.remaining) steps)

theorem Counts.of_stopped {cfg : Config} {steps : List (Inputs × Nat)} {p : PowerMgr}
    (hshot : p.inactivity.periodic = false) (hstopped : p.inactivity.running = false) :
    Counts cfg steps p :=
  ⟨hshot, fun hrunning => absurd hrunning (by rw [hstopped]; decide)⟩

theorem Counts.of_started {cfg : Config} (steps : List (Inputs × Nat)) {p : PowerMgr}
    {t : SoftTimer} (hstate : p.state = .run)
    (htimer : p.inactivity = t.start cfg.sleepAfterMs) : Counts cfg steps p := by
  refine ⟨by rw [htimer]; rfl, fun hrunning => ?_⟩
  rw [htimer, SoftTimer.start_running, decide_eq_true_eq] at hrunning
  rw [htimer, SoftTimer.start_remaining, Nat.sub_self]
  exact ⟨hstate, hrunning, le_refl _, driverQuiet_zero steps⟩

/-- The power manager before its inactivity timer is advanced: the timer runs only in Run, and
either it was started in this step, or it was running in Run when the step began. -/
def Armed (cfg : Config) (s : BcmCore) (p : PowerMgr) : Prop :=
  p.inactivity.periodic = false ∧
    (p.inactivity.running = true → p.state = .run ∧
      (0 < cfg.sleepAfterMs ∧ p.inactivity.remaining = cfg.sleepAfterMs ∨
        p.inactivity = s.power.inactivity ∧ s.power.state = .run ∧ s.ignitionOffPress = false))

theorem Armed.of_stopped {cfg : Config} {s : BcmCore} {p : PowerMgr}
    (hshot : p.inactivity.periodic = false) (hstopped : p.inactivity.running = false) :
    Armed cfg s p :=
  ⟨hshot, fun hrunning => absurd hrunning (by rw [hstopped]; decide)⟩

theorem Armed.of_started {cfg : Config} {s : BcmCore} {p : PowerMgr} {t : SoftTimer}
    (hstate : p.state = .run) (htimer : p.inactivity = t.start cfg.sleepAfterMs) :
    Armed cfg s p := by
  refine ⟨by rw [htimer]; rfl, fun hrunning => ⟨hstate, Or.inl ?_⟩⟩
  rw [htimer, SoftTimer.start_running, decide_eq_true_eq] at hrunning
  exact ⟨hrunning, by rw [htimer, SoftTimer.start_remaining]⟩

theorem Armed.congr {cfg : Config} {s : BcmCore} {p p' : PowerMgr} (h : Armed cfg s p)
    (hstate : p'.state = p.state) (htimer : p'.inactivity = p.inactivity) : Armed cfg s p' := by
  unfold Armed
  rw [hstate, htimer]
  exact h

theorem stopped_of_not_run {p : PowerMgr} (hrun : p.inactivity.running = true → p.state = .run)
    (hstate : p.state ≠ .run) : p.inactivity.running = false := by
  by_contra hrunning
  exact hstate (hrun (by simpa using hrunning))

theorem armed_applyEdges (cfg : Config) (dtMs : Nat) {s : BcmCore}
    (hshot : s.power.inactivity.periodic = false)
    (hrun : s.power.inactivity.running = true → s.power.state = .run) :
    Armed cfg s (s.applyEdges cfg dtMs).power := by
  rw [applyEdges_power]
  by_cases hpress : s.shortPress = true
  · rw [if_pos hpress]
    by_cases hrunning : s.power.running = true
    · rw [if_pos hrunning]
      have hstate : s.power.state = .run := by simpa [PowerMgr.running] using hrunning
      rcases s.power.ignitionOff_cases with ⟨-, -, htimer⟩ | ⟨hother, -⟩
      · exact Armed.of_stopped (by rw [htimer]; exact hshot) (by rw [htimer]; rfl)
      · rw [hstate] at hother
        simp at hother
    · rw [if_neg hrunning]
      have hstate : s.power.state ≠ .run := by simpa [PowerMgr.running] using hrunning
      have hstopped := stopped_of_not_run hrun hstate
      rcases s.power.ignitionOn_cases cfg with ⟨-, -, htimer⟩ | ⟨-, hentered, htimer⟩ | ⟨-, hsame⟩
      · exact Armed.of_stopped (by rw [htimer, hshot]) (by rw [htimer, hstopped])
      · exact Armed.of_started hentered htimer
      · rw [hsame]
        exact Armed.of_stopped hshot hstopped
  · rw [if_neg hpress]
    have hno : s.ignitionOffPress = false := by simp [ignitionOffPress, hpress]
    exact ⟨hshot, fun hrunning => ⟨hrun hrunning, Or.inr ⟨rfl, hrun hrunning, hno⟩⟩⟩

theorem Armed.updateTransition {cfg : Config} {s : BcmCore} {p : PowerMgr} (h : Armed cfg s p)
    (dtMs : Nat) : Armed cfg s (p.updateTransition cfg dtMs) := by
  rcases p.updateTransition_cases cfg dtMs with
    ⟨hstate, htimer⟩ | ⟨-, hentered, htimer⟩ | ⟨hstate, -, htimer⟩
  · exact h.congr hstate htimer
  · exact Armed.of_started hentered htimer
  · have hstopped := stopped_of_not_run (fun hrunning => (h.2 hrunning).1) (by rw [hstate]; decide)
    exact Armed.of_stopped (by rw [htimer, h.1]) (by rw [htimer, hstopped])

/-- What the step's own length adds. Whatever the timer has counted by the end of the step, no
driver input moved in it. -/
theorem quiet_of_armed {cfg : Config} {ops : List CoreOp} {s : BcmCore} {p : PowerMgr} (dtMs : Nat)
    (htraced : Traced ops s) (hcounts : Counts cfg (history ops).steps s.power)
    (hmisses : ¬ MissedRestart cfg s dtMs) (harmed : Armed cfg s p)
    (hrunning : p.inactivity.running = true) {window : Nat} (hall : window ≤ cfg.sleepAfterMs)
    (hcounted : window ≤ cfg.sleepAfterMs - p.inactivity.remaining + dtMs) :
    DriverQuiet window ((history ops).steps ++ [(s.inputs, dtMs)]) := by
  rcases (harmed.2 hrunning).2 with ⟨-, hfresh⟩ | ⟨hkept, hstate, hno⟩
  · rw [hfresh, Nat.sub_self] at hcounted
    exact (driverQuiet_zero _).concat hcounted fun _ _ _ => by omega
  · rw [hkept] at hrunning hcounted
    obtain ⟨-, -, -, hquiet⟩ := hcounts.2 hrunning
    refine hquiet.concat hcounted fun last hlast hchange => ?_
    -- a change now, so the timer is where it started, or all of it passes in this step
    obtain ⟨lastMs, hprevious⟩ := htraced.getLast? hstate
    rw [Option.mem_def, hprevious] at hlast
    have hmoved : s.inputs.driver ≠ s.previous.driver := by
      rw [← Option.some.inj hlast] at hchange
      exact fun heq => hchange heq.symm
    by_contra hlt
    exact hmisses ⟨hstate, hno, hmoved, hrunning, by omega, by omega⟩

theorem counts_step {cfg : Config} {ops : List CoreOp} {s : BcmCore} {dtMs : Nat}
    (htraced : Traced ops s) (hcounts : Counts cfg (history ops).steps s.power)
    (hmisses : ¬ MissedRestart cfg s dtMs) :
    Counts cfg ((history ops).steps ++ [(s.inputs, dtMs)]) (s.step cfg dtMs).power := by
  have hedges := armed_applyEdges cfg dtMs hcounts.1 fun h => (hcounts.2 h).1
  have harmed : Armed cfg s (((s.applyEdges cfg dtMs).power.updateBattery
      s.inputs.batteryPermille).updateTransition cfg dtMs) :=
    (hedges.congr (PowerMgr.updateBattery_state _ _)
      (PowerMgr.updateBattery_inactivity _ _)).updateTransition dtMs
  rw [step_power, PowerMgr.update]
  generalize ((s.applyEdges cfg dtMs).power.updateBattery
    s.inputs.batteryPermille).updateTransition cfg dtMs = p at harmed
  have hquiet := quiet_of_armed dtMs htraced hcounts hmisses harmed
  by_cases hrunning : p.inactivity.running = true
  · obtain ⟨hstate, -⟩ := harmed.2 hrunning
    by_cases hexpires : p.inactivity.expires dtMs = true
    · have hadvance := SoftTimer.advance_of_expires harmed.1 hexpires
      refine Counts.of_stopped ?_ ?_
      · rw [PowerMgr.updateInactivity_inactivity, hadvance]
        exact harmed.1
      · rw [PowerMgr.updateInactivity_inactivity, hadvance]
    · have hcontinues : p.inactivity.expires dtMs = false := by simpa using hexpires
      have hleft : dtMs < p.inactivity.remaining := by
        by_contra hle
        exact hexpires (SoftTimer.expires_eq_true_iff.mpr ⟨hrunning, by omega⟩)
      have hadvance := SoftTimer.advance_of_not_expires hrunning hcontinues
      have hbound : p.inactivity.remaining ≤ cfg.sleepAfterMs := by
        rcases (harmed.2 hrunning).2 with ⟨-, hfresh⟩ | ⟨hkept, -, -⟩
        · exact hfresh.le
        · rw [hkept] at hrunning ⊢
          exact (hcounts.2 hrunning).2.2.1
      unfold Counts
      rw [PowerMgr.updateInactivity_inactivity, hadvance, PowerMgr.updateInactivity_state,
        if_neg fun h => hexpires h.1]
      dsimp only
      refine ⟨harmed.1, fun _ => ⟨hstate, Nat.sub_pos_of_lt hleft, by omega, ?_⟩⟩
      exact hquiet hrunning (by omega) (by omega)
  · have hstopped : p.inactivity.running = false := by simpa using hrunning
    refine Counts.of_stopped ?_ ?_
    · rw [PowerMgr.updateInactivity_inactivity, SoftTimer.advance_of_stopped hstopped, harmed.1]
    · rw [PowerMgr.updateInactivity_inactivity, SoftTimer.advance_of_stopped hstopped, hstopped]

/-- Nothing but a step ages the history, and nothing but a step or a reset touches the timer. -/
theorem counts_exec {cfg : Config} {ops : List CoreOp} {s : BcmCore} (htraced : Traced ops s)
    (hcounts : Counts cfg (history ops).steps s.power) {op : CoreOp}
    (hmisses : MissesNone cfg s op) :
    Counts cfg (history (ops ++ [op])).steps (exec cfg s op).power := by
  cases op with
  | step dtMs =>
      rw [htraced.steps_step, exec]
      exact counts_step htraced hcounts hmisses
  | reset => exact Counts.of_stopped hcounts.1 rfl
  | _ =>
      rw [history_concat]
      exact hcounts

theorem counts_run {cfg : Config} {ops : List CoreOp}
    (hops : Runs.Along (exec cfg) (MissesNone cfg) (new cfg) ops) :
    Counts cfg (history ops).steps (run cfg ops).power :=
  Runs.run_history (I := fun ops s => Counts cfg (history ops).steps s.power)
    (Counts.of_stopped rfl rfl)
    (fun ops _ hmisses hcounts => counts_exec (traced_run cfg ops) hcounts hmisses) hops

/-! ### Going to sleep -/

/-- In Run, and without the ignition-off press, a step does nothing to the power manager but count
its inactivity timer down. -/
theorem step_power_of_run (cfg : Config) (dtMs : Nat) {s : BcmCore}
    (hstate : s.power.state = .run) (hno : s.ignitionOffPress = false) :
    (s.step cfg dtMs).power.state =
        (if s.power.inactivity.expires dtMs = true then .shutdown else .run) ∧
      (s.step cfg dtMs).power.inactivity = s.power.inactivity.advance dtMs := by
  have hpress : s.shortPress = false := by
    simpa [ignitionOffPress, PowerMgr.running, hstate] using hno
  have hedges : (s.applyEdges cfg dtMs).power = s.power := by
    rw [applyEdges_power, hpress]
    rfl
  have hbefore : ((s.power.updateBattery s.inputs.batteryPermille).updateTransition cfg dtMs).state
        = .run ∧
      ((s.power.updateBattery s.inputs.batteryPermille).updateTransition cfg dtMs).inactivity
        = s.power.inactivity := by
    rcases (s.power.updateBattery s.inputs.batteryPermille).updateTransition_cases cfg dtMs with
      ⟨hsame, htimer⟩ | ⟨hwake, -⟩ | ⟨hother, -⟩
    · rw [hsame, htimer]
      exact ⟨by simpa using hstate, by simp⟩
    · simp [hstate] at hwake
    · simp [hstate] at hother
  obtain ⟨hrun, htimer⟩ := hbefore
  rw [step_power, hedges, PowerMgr.update, PowerMgr.updateInactivity_state,
    PowerMgr.updateInactivity_inactivity, htimer, hrun]
  exact ⟨by simp, rfl⟩

theorem shutdown_iff_expires (cfg : Config) (dtMs : Nat) {s : BcmCore}
    (hstate : s.power.state = .run) (hno : s.ignitionOffPress = false) :
    (s.step cfg dtMs).power.state = .shutdown ↔ s.power.inactivity.expires dtMs = true := by
  rw [(step_power_of_run cfg dtMs hstate hno).1]
  split
  case isTrue hexpires => simp [hexpires]
  case isFalse hexpires => simp [hexpires]

/-- **Asleep only when the driver is inactive.** In a run none of whose steps misses a restart, the
step that goes to sleep by inactivity comes after `sleep_after_ms` without driver activity. -/
theorem sleepsQuietly_of_missesNone {cfg : Config} {ops : List CoreOp} {dtMs : Nat}
    (hops : Runs.Along (BcmCore.exec cfg) (MissesNone cfg) (new cfg) (ops ++ [.step dtMs])) :
    SleepsQuietly cfg ops dtMs := by
  intro hstate hshutdown hno
  obtain ⟨hfront, hmisses⟩ := Runs.along_concat.mp hops
  have htraced := traced_run cfg ops
  have hcounts := counts_run hfront
  change ¬ MissedRestart cfg (run cfg ops) dtMs at hmisses
  obtain ⟨hrunning, hexpires⟩ :=
    SoftTimer.expires_eq_true_iff.mp ((shutdown_iff_expires cfg dtMs hstate hno).mp hshutdown)
  have harmed : Armed cfg (run cfg ops) (run cfg ops).power :=
    ⟨hcounts.1, fun _ => ⟨hstate, Or.inr ⟨rfl, hstate, hno⟩⟩⟩
  obtain ⟨-, -, hbound, -⟩ := hcounts.2 hrunning
  rw [htraced.steps_step]
  exact quiet_of_armed dtMs htraced hcounts hmisses harmed hrunning (le_refl _) (by omega)

/-- A core left alone after it has entered Run goes to sleep when the timer says so. -/
theorem sleepsQuietly_alone :
    SleepsQuietly .shipped (wakingOps ++ [.step 300, .step 29000]) 1000 :=
  sleepsQuietly_of_missesNone (by decide +kernel)

/-- The brake pressed about two seconds earlier does not keep the core awake. -/
theorem not_sleepsQuietly_brake :
    ¬ SleepsQuietly .shipped
      (wakingOps ++ [.step 300, .step 28000,
        .setInputs { Inputs.initial with batteryPermille := 800, brake := true }, .step 5])
      2000 := by
  intro hsleeps
  have hquiet := hsleeps (by decide +kernel) (by decide +kernel) (by decide +kernel)
  have hage := hquiet ((history (wakingOps ++ [.step 300])).steps)
    ({ Inputs.initial with batteryPermille := 800 }, 28000)
    ({ Inputs.initial with batteryPermille := 800, brake := true }, 5)
    [({ Inputs.initial with batteryPermille := 800, brake := true }, 2000)] rfl (by decide)
  exact absurd hage (by decide)

/-- **A missed restart is what goes wrong.** From a core that misses one, this step or the one after
it can go to sleep by inactivity with the driver's move less than `sleep_after_ms` old. -/
theorem not_sleepsQuietly_of_missedRestart {cfg : Config} {ops : List CoreOp} {dtMs : Nat}
    (hmissed : MissedRestart cfg (run cfg ops) dtMs) :
    ¬ SleepsQuietly cfg ops dtMs ∨ ∃ dtMs', ¬ SleepsQuietly cfg (ops ++ [.step dtMs]) dtMs' := by
  obtain ⟨hstate, hno, hmoved, hrunning, hcounted, hlong⟩ := hmissed
  have htraced := traced_run cfg ops
  have hnext := traced_run cfg (ops ++ [.step dtMs])
  obtain ⟨lastMs, hlast⟩ := htraced.getLast? hstate
  obtain ⟨hstep, htimer⟩ := step_power_of_run cfg dtMs hstate hno
  by_cases hexpires : (run cfg ops).power.inactivity.expires dtMs = true
  · left
    intro hsleeps
    have hquiet := hsleeps hstate ((shutdown_iff_expires cfg dtMs hstate hno).mpr hexpires) hno
    rw [htraced.steps_step] at hquiet
    have hage := hquiet.of_change hlast hmoved.symm
    simp only [List.map_nil, List.sum_nil] at hage
    omega
  · -- the next step takes exactly what is left on the timer, with the inputs as they are
    right
    refine ⟨(run cfg ops).power.inactivity.remaining - dtMs, fun hsleeps => ?_⟩
    have hcontinues : (run cfg ops).power.inactivity.expires dtMs = false := by
      simpa using hexpires
    have hleft : dtMs < (run cfg ops).power.inactivity.remaining := by
      by_contra hle
      exact hexpires (SoftTimer.expires_eq_true_iff.mpr ⟨hrunning, by omega⟩)
    rw [if_neg hexpires] at hstep
    rw [SoftTimer.advance_of_not_expires hrunning hcontinues] at htimer
    have hno' : ((run cfg ops).step cfg dtMs).ignitionOffPress = false := by
      simp [ignitionOffPress, shortPress]
    have hshutdown := (shutdown_iff_expires cfg
      ((run cfg ops).power.inactivity.remaining - dtMs) hstep hno').mpr
      (SoftTimer.expires_eq_true_iff.mpr (by rw [htimer]; exact ⟨hrunning, le_refl _⟩))
    rw [SleepsQuietly, hnext.steps_step, htraced.steps_step, run_step, step_inputs,
      List.append_assoc, List.singleton_append] at hsleeps
    have hage := (hsleeps hstep hshutdown hno').of_change hlast hmoved.symm
    simp only [List.map_cons, List.map_nil, List.sum_cons, List.sum_nil] at hage
    omega

end BcmCore

end Bcm
