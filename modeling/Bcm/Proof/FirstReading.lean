import Bcm.Lib.Transducer
import Bcm.Power

/-!
# The first battery reading

The first reading is kept from the load shed, and the trigger still takes it. So a first reading at
or below the lower threshold leaves the trigger as after a low battery, and a second one between the
thresholds, which holds the trigger where it is, sheds the load.
-/

namespace Bcm.PowerMgr

/-- A reading, and what `load_shed()` says after it. -/
def takeReading (p : PowerMgr) (permille : Nat) : PowerMgr × Bool :=
  (p.updateBattery permille, (p.updateBattery permille).loadShed)

/-- `load_shed()` of a fresh manager after each reading that follows the first. -/
def sheds (cfg : Config) (first : Nat) (later : List Nat) : List Bool :=
  Transducer.outputs takeReading ((new cfg).updateBattery first) later

theorem updateBattery_new (cfg : Config) (first : Nat) :
    ((new cfg).updateBattery first).batteryKnown = true ∧
      ((new cfg).updateBattery first).batteryOk =
        ⟨cfg.batteryLowPermille, cfg.batteryOkPermille,
          decide (cfg.batteryLowPermille < first)⟩ := by
  unfold updateBattery
  rw [Hysteresis.update_eq]
  exact ⟨rfl, rfl⟩

/-- From the second reading on, the load is shed exactly while the trigger says low. -/
theorem takeReading_known {p : PowerMgr} (h : p.batteryKnown = true) (permille : Nat) :
    (p.takeReading permille).2 = !(p.batteryOk.update permille).1 ∧
      (p.takeReading permille).1.batteryOk = (p.batteryOk.update permille).2 ∧
      (p.takeReading permille).1.batteryKnown = true := by
  simp [takeReading, updateBattery, loadShed, h]

/-- Nothing but the trigger is remembered of the readings so far. -/
theorem outputs_eq_of_batteryOk {p q : PowerMgr} (hp : p.batteryKnown = true)
    (hq : q.batteryKnown = true) (hsame : p.batteryOk = q.batteryOk) (readings : List Nat) :
    Transducer.outputs takeReading p readings = Transducer.outputs takeReading q readings := by
  have hstep : ∀ (p q : PowerMgr) (permille : Nat),
      (p.batteryKnown = true ∧ q.batteryKnown = true ∧ p.batteryOk = q.batteryOk) →
      (p.takeReading permille).2 = (q.takeReading permille).2 ∧
        (p.takeReading permille).1.batteryKnown = true ∧
        (q.takeReading permille).1.batteryKnown = true ∧
        (p.takeReading permille).1.batteryOk = (q.takeReading permille).1.batteryOk := by
    rintro p q permille ⟨hp, hq, hsame⟩
    obtain ⟨hshed, hnext, hknown⟩ := takeReading_known hp permille
    obtain ⟨hshed', hnext', hknown'⟩ := takeReading_known hq permille
    rw [hsame] at hshed hnext
    exact ⟨hshed.trans hshed'.symm, hknown, hknown', hnext.trans hnext'.symm⟩
  exact Transducer.outputs_eq_of_related takeReading hstep ⟨hp, hq, hsame⟩ readings

/-- **The first reading is forgotten, exactly.** Two first readings make no difference to any later
load shed if and only if they fall on the same side of the lower threshold, or the reading after
them does not lie between the thresholds. -/
theorem sheds_eq_iff {cfg : Config} (hlt : cfg.batteryLowPermille < cfg.batteryOkPermille)
    (first first' : Nat) (later : List Nat) :
    sheds cfg first later = sheds cfg first' later ↔
      (first ≤ cfg.batteryLowPermille ↔ first' ≤ cfg.batteryLowPermille) ∨
        ∀ permille ∈ later.head?,
          permille ≤ cfg.batteryLowPermille ∨ cfg.batteryOkPermille ≤ permille := by
  obtain ⟨hknown, htrigger⟩ := updateBattery_new cfg first
  obtain ⟨hknown', htrigger'⟩ := updateBattery_new cfg first'
  unfold sheds
  by_cases hside : first ≤ cfg.batteryLowPermille ↔ first' ≤ cfg.batteryLowPermille
  · have hstate : decide (cfg.batteryLowPermille < first) =
        decide (cfg.batteryLowPermille < first') := by
      rw [decide_eq_decide, ← not_le, ← not_le, hside]
    have hsame := htrigger.trans (hstate ▸ htrigger'.symm)
    exact iff_of_true (outputs_eq_of_batteryOk hknown hknown' hsame later) (Or.inl hside)
  · cases later with
    | nil => simp
    | cons second rest =>
        obtain ⟨hshed, hnext, hstill⟩ := takeReading_known hknown second
        obtain ⟨hshed', hnext', hstill'⟩ := takeReading_known hknown' second
        rw [htrigger, Hysteresis.update_eq] at hshed hnext
        rw [htrigger', Hysteresis.update_eq] at hshed' hnext'
        -- the triggers stand in different states, so they agree on the second reading exactly
        -- where both states do
        have hagree : ∀ below below' : Bool, below ≠ below' →
            (Hysteresis.verdict cfg.batteryLowPermille cfg.batteryOkPermille second below =
                Hysteresis.verdict cfg.batteryLowPermille cfg.batteryOkPermille second below' ↔
              (second ≤ cfg.batteryLowPermille ∨ cfg.batteryOkPermille ≤ second)) := by
          intro below below' hne
          unfold Hysteresis.verdict
          cases below <;> cases below' <;> simp at hne ⊢ <;> omega
        have hstates : decide (cfg.batteryLowPermille < first) ≠
            decide (cfg.batteryLowPermille < first') := by
          rw [ne_eq, decide_eq_decide, ← not_le, ← not_le, not_iff_not]
          exact hside
        have hverdict := hagree _ _ hstates
        rw [or_iff_right hside]
        simp only [List.head?_cons, Option.mem_some_iff, forall_eq']
        rw [← hverdict, Transducer.outputs_cons, Transducer.outputs_cons]
        constructor
        · intro hsheds
          have hhead := (List.cons.inj hsheds).1
          rw [hshed, hshed'] at hhead
          exact Bool.not_inj hhead
        · intro hsame
          have hrest := outputs_eq_of_batteryOk hstill hstill' (by rw [hnext, hnext', hsame]) rest
          rw [hshed, hshed', hsame, hrest]

/-- After an empty and after a good first reading, on a second above both thresholds. -/
theorem sheds_eq_good : sheds .shipped 0 [400, 320] = sheds .shipped 800 [400, 320] :=
  (sheds_eq_iff (by decide) 0 800 [400, 320]).mpr (by decide)

/-- An empty first reading, and then one between the thresholds: the load is shed. -/
theorem first_reading_sheds :
    sheds .shipped 0 [320] = [true] ∧ sheds .shipped 800 [320] = [false] := by
  decide

end Bcm.PowerMgr
