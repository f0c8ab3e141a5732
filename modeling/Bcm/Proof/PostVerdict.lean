import Bcm.Lib.Register
import Bcm.Post

/-!
# The verdict of the self test

Whatever is reported to the manager, and however often it is reset: a subsystem has failed unless
the last result reported of it since the last reset is a pass, and the test as a whole has passed
once it is complete and no subsystem has failed.
-/

namespace Bcm.SelfTest

inductive Call where
  | postResult (sys : Subsystem) (passed : Bool)
  | postComplete
  | setHealth (sys : Subsystem) (state : Health)
  | reset
  deriving DecidableEq, Repr

def exec (d : SelfTest) : Call → SelfTest
  | .postResult sys passed => d.postResult sys passed
  | .postComplete => d.postComplete
  | .setHealth sys state => d.setHealth sys state
  | .reset => new

def run (calls : List Call) : SelfTest := Runs.run exec new calls

/-! ### What the calls say -/

/-- The result a call gives of a subsystem. A reset takes it back. -/
def resultOf (sys : Subsystem) : Call → Option (Option Bool)
  | .postResult sys' passed => if sys = sys' then some (some passed) else none
  | .reset => some none
  | _ => none

def healthOf (sys : Subsystem) : Call → Option Health
  | .postResult sys' passed => if sys = sys' then some (if passed then .ok else .failed) else none
  | .setHealth sys' state => if sys = sys' then some state else none
  | .reset => some .unknown
  | .postComplete => none

def completes : Call → Option Bool
  | .postComplete => some true
  | .reset => some false
  | _ => none

/-- The result of a subsystem that stands, if there is one. -/
def lastResult (sys : Subsystem) (calls : List Call) : Option Bool :=
  (Register.last (resultOf sys) calls).getD none

def lastHealth (sys : Subsystem) (calls : List Call) : Health :=
  (Register.last (healthOf sys) calls).getD .unknown

/-- The test has been completed since the last reset. -/
def completed (calls : List Call) : Bool := (Register.last completes calls).getD false

/-! ### What the manager holds -/

/-- The two flags of a subsystem, read as the result that stands. -/
def result (d : SelfTest) (sys : Subsystem) : Option Bool :=
  if d.postTested sys then some (d.postOk sys) else none

theorem result_postResult (d : SelfTest) (sys sys' : Subsystem) (passed : Bool) :
    (d.postResult sys' passed).result sys = if sys = sys' then some passed else d.result sys := by
  by_cases hsame : sys = sys'
  · simp [result, postResult, hsame]
  · simp [result, postResult, hsame, Function.update_of_ne]

theorem health_setHealth (d : DiagMgr) (sys sys' : Subsystem) (state : Health) :
    (d.setHealth sys' state).health sys = if sys = sys' then state else d.health sys :=
  Function.update_apply d.health sys' state sys

theorem result_exec (sys : Subsystem) (d : SelfTest) (call : Call) :
    (d.exec call).result sys = (resultOf sys call).getD (d.result sys) := by
  cases call with
  | postResult sys' passed =>
      rw [exec, result_postResult, resultOf]
      split
      · rfl
      · rfl
  | postComplete => rfl
  | setHealth sys' state => rfl
  | reset => rfl

theorem health_exec (sys : Subsystem) (d : SelfTest) (call : Call) :
    (d.exec call).health sys = (healthOf sys call).getD (d.health sys) := by
  cases call with
  | postResult sys' passed =>
      have hhealth := health_setHealth d.toDiagMgr sys sys' (if passed then .ok else .failed)
      rw [healthOf]
      refine hhealth.trans ?_
      split
      · rfl
      · rfl
  | postComplete => rfl
  | setHealth sys' state =>
      rw [healthOf]
      refine (health_setHealth d.toDiagMgr sys sys' state).trans ?_
      split
      · rfl
      · rfl
  | reset => rfl

theorem postDone_exec (d : SelfTest) (call : Call) :
    (d.exec call).postDone = (completes call).getD d.postDone := by
  cases call with
  | postResult sys passed => rfl
  | postComplete => rfl
  | setHealth sys state => rfl
  | reset => rfl

theorem result_run (sys : Subsystem) (calls : List Call) :
    (run calls).result sys = lastResult sys calls :=
  Register.read_run (resultOf sys) (fun d => d.result sys) (result_exec sys) new calls

theorem health_run (sys : Subsystem) (calls : List Call) :
    (run calls).health sys = lastHealth sys calls :=
  Register.read_run (healthOf sys) (fun d => d.health sys) (health_exec sys) new calls

theorem postDone_run (calls : List Call) : (run calls).postDone = completed calls :=
  Register.read_run completes postDone postDone_exec new calls

/-! ### The verdict -/

theorem failed_eq (d : SelfTest) (sys : Subsystem) :
    d.failed sys = decide (d.result sys ≠ some true) := by
  unfold failed result
  cases d.postTested sys with
  | true => cases d.postOk sys <;> simp
  | false => simp

theorem postPassed_iff (d : SelfTest) :
    d.postPassed = true ↔ d.postDone = true ∧ ∀ sys, d.failed sys = false := by
  unfold postPassed
  cases d.postDone with
  | false => simp
  | true =>
      simp only [Bool.not_true, Bool.false_eq_true, if_false, true_and, List.all_eq_true,
        Bool.not_eq_true']
      exact ⟨fun h sys => h sys sys.mem_all, fun h sys _ => h sys⟩

/-- The bit of a subsystem in the mask says whether it has failed. -/
theorem postFailures_getLsbD (d : SelfTest) (sys : Subsystem) :
    d.postFailures.getLsbD sys.toNat = d.failed sys := by
  unfold postFailures Subsystem.all
  simp only [List.foldl_cons, List.foldl_nil]
  -- each step of the loop sets or leaves a bit of its own
  cases sys <;>
    cases d.failed .clock <;> cases d.failed .gpio <;> cases d.failed .adc <;>
      cases d.failed .uart <;> cases d.failed .config <;> rfl

theorem postFailures_eq_zero_iff (d : SelfTest) :
    d.postFailures = 0 ↔ ∀ sys, d.failed sys = false := by
  constructor
  · intro hzero sys
    rw [← d.postFailures_getLsbD, hzero]
    exact BitVec.getLsbD_zero
  · intro hgood
    unfold postFailures Subsystem.all
    simp [hgood]

/-- **The verdict of the self test.** A subsystem counts as passed if and only if the result that
stands of it is a pass. The mask names the others, and is empty if and only if there are none. The
whole test has passed exactly once it is complete with an empty mask, and the health of a subsystem
is what was last reported of it. -/
theorem post_verdict (calls : List Call) :
    ((run calls).postPassed = true ↔
        completed calls = true ∧ ∀ sys, lastResult sys calls = some true) ∧
      ((run calls).postPassed = true ↔ (run calls).postDone = true ∧ (run calls).postFailures = 0) ∧
      ((run calls).postFailures = 0 ↔ ∀ sys, lastResult sys calls = some true) ∧
      (∀ sys : Subsystem, (run calls).postFailures.getLsbD sys.toNat =
        decide (lastResult sys calls ≠ some true)) ∧
      ∀ sys, (run calls).health sys = lastHealth sys calls := by
  have hfailed : ∀ sys, (run calls).failed sys = decide (lastResult sys calls ≠ some true) :=
    fun sys => by rw [failed_eq, result_run]
  refine ⟨?_, ?_, ?_, ?_, fun sys => health_run sys calls⟩
  · rw [postPassed_iff, postDone_run]
    simp only [hfailed, decide_eq_false_iff_not, not_not]
  · rw [postPassed_iff, postFailures_eq_zero_iff]
  · rw [postFailures_eq_zero_iff]
    simp only [hfailed, decide_eq_false_iff_not, not_not]
  · intro sys
    rw [postFailures_getLsbD, hfailed]

end Bcm.SelfTest
