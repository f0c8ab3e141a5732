import Bcm.Debounce
import Bcm.Lib.Runs
import Mathlib.Algebra.GroupWithZero.Nat
import Mathlib.Data.List.DropRight

/-!
# The debounce window

When a level is accepted, told from the samples alone: the samples end in a run of the level that a
change began, and with the last of them the run has held for the window, which it had not before.
-/

namespace Bcm.Debouncer

/-- A sample with the time since the one before. -/
abbrev Call := Bool × Nat

def exec (d : Debouncer) (call : Call) : Debouncer := (d.update call.1 call.2).2

/-! ### Reading the samples -/

def reads (v : Bool) (call : Call) : Bool := call.1 == v

/-- The level read last, or else the one the debouncer was reset to. -/
def lastLevel (level : Bool) (calls : List Call) : Bool := calls.getLast?.elim level Prod.fst

/-- The longest run of `v` at the end of the samples was begun by a change. -/
def Changed (level v : Bool) (calls : List Call) : Prop :=
  lastLevel level (calls.rdropWhile (reads v)) ≠ v

/-- The samples of that run after its first. -/
def later (v : Bool) (calls : List Call) : List Call := (calls.rtakeWhile (reads v)).tail

/-- The time over some samples, in 16 bits that saturate. -/
def held (calls : List Call) : Nat := min 65535 (calls.map Prod.snd).sum

/-- The run of `v` has held for `stableMs` with the last sample, and not before. -/
def HeldJustNow (level : Bool) (stableMs : Nat) (v : Bool) (calls : List Call) : Prop :=
  Changed level v calls ∧ later v calls ≠ [] ∧ stableMs ≤ held (later v calls) ∧
    ((later v calls).dropLast = [] ∨ held (later v calls).dropLast < stableMs)

theorem lastLevel_concat (level : Bool) (calls : List Call) (call : Call) :
    lastLevel level (calls ++ [call]) = call.1 := by
  rw [lastLevel, List.getLast?_concat]
  rfl

theorem held_concat (calls : List Call) (call : Call) :
    held (calls ++ [call]) = min 65535 (held calls + call.2) := by
  unfold held
  rw [List.map_append, List.sum_append, List.map_singleton, List.sum_singleton]
  omega

theorem held_nil : held [] = 0 := rfl

section Runs

variable {level v : Bool} {calls : List Call}

theorem reads_eq_true_iff {call : Call} : reads v call = true ↔ call.1 = v := beq_iff_eq

theorem run_of_lastLevel_ne (h : lastLevel level calls ≠ v) :
    calls.rtakeWhile (reads v) = [] ∧ calls.rdropWhile (reads v) = calls := by
  induction calls using List.reverseRecOn with
  | nil => exact ⟨rfl, rfl⟩
  | append_singleton calls call =>
      rw [lastLevel_concat] at h
      have hother : ¬reads v call = true := fun hreads => h (reads_eq_true_iff.mp hreads)
      exact ⟨List.rtakeWhile_concat_neg _ _ _ hother, List.rdropWhile_concat_neg _ _ _ hother⟩

theorem later_of_other {raw : Bool} (h : raw ≠ v) (dtMs : Nat) :
    later v (calls ++ [(raw, dtMs)]) = [] := by
  have hother : ¬reads v (raw, dtMs) = true := fun hreads => h (reads_eq_true_iff.mp hreads)
  rw [later, List.rtakeWhile_concat_neg _ _ _ hother, List.tail_nil]

theorem changed_concat (dtMs : Nat) :
    Changed level v (calls ++ [(v, dtMs)]) ↔ Changed level v calls := by
  unfold Changed
  rw [List.rdropWhile_concat_pos]
  exact reads_eq_true_iff.mpr rfl

theorem changed_of_lastLevel_ne (h : lastLevel level calls ≠ v) : Changed level v calls := by
  rw [Changed, (run_of_lastLevel_ne h).2]
  exact h

theorem later_of_lastLevel_ne (h : lastLevel level calls ≠ v) (dtMs : Nat) :
    later v (calls ++ [(v, dtMs)]) = [] := by
  rw [later, List.rtakeWhile_concat_pos, (run_of_lastLevel_ne h).1]
  · rfl
  · exact reads_eq_true_iff.mpr rfl

/-- A run that a change began goes on. -/
theorem later_concat (hchanged : Changed level v calls) (hlast : lastLevel level calls = v)
    (dtMs : Nat) : later v (calls ++ [(v, dtMs)]) = later v calls ++ [(v, dtMs)] := by
  have hrun : calls.rtakeWhile (reads v) ≠ [] := by
    intro hnil
    have hsplit := List.rdropWhile_append_rtakeWhile (p := reads v) (l := calls)
    rw [hnil, List.append_nil] at hsplit
    rw [Changed, hsplit] at hchanged
    exact hchanged hlast
  rw [later, List.rtakeWhile_concat_pos, List.tail_append_of_ne_nil hrun, later]
  exact reads_eq_true_iff.mpr rfl

end Runs

/-! ### The debouncer keeps track of the run -/

/-- A level that is not yet accepted has been timed from the change on, and has not held for the
window. -/
structure Tracks (level : Bool) (calls : List Call) (d : Debouncer) : Prop where
  candidate : d.candidate = lastLevel level calls
  changed : d.candidate ≠ d.state → Changed level d.candidate calls
  elapsed : d.candidate ≠ d.state → d.elapsed = held (later d.candidate calls)
  short : d.candidate ≠ d.state →
    later d.candidate calls = [] ∨ held (later d.candidate calls) < d.stableMs

variable {d : Debouncer} {level : Bool} {calls : List Call}

/-- With the candidate accepted nothing is timed. -/
theorem tracks_of_settled (hlast : d.candidate = lastLevel level calls)
    (hstate : d.candidate = d.state) : d.Tracks level calls :=
  ⟨hlast, fun h => absurd hstate h, fun h => absurd hstate h, fun h => absurd hstate h⟩

theorem tracks_reset (d : Debouncer) (level : Bool) : (d.reset level).Tracks level [] :=
  tracks_of_settled rfl rfl

theorem Tracks.exec (h : d.Tracks level calls) (raw : Bool) (dtMs : Nat) :
    (d.exec (raw, dtMs)).Tracks level (calls ++ [(raw, dtMs)]) := by
  have hlast := lastLevel_concat level calls (raw, dtMs)
  by_cases hraw : raw = d.candidate
  · by_cases hstate : d.candidate = d.state
    · rw [Debouncer.exec, update_of_settled hraw hstate]
      exact tracks_of_settled (hraw ▸ hlast.symm) hstate
    · have hchanged := h.changed hstate
      have hlater := later_concat hchanged h.candidate.symm dtMs
      have hheld : held (later d.candidate (calls ++ [(d.candidate, dtMs)])) =
          min 65535 (d.elapsed + dtMs) := by
        rw [hlater, held_concat, h.elapsed hstate]
      subst hraw
      rw [Debouncer.exec, update_of_held rfl hstate]
      split
      case isTrue => exact tracks_of_settled hlast.symm rfl
      case isFalse hshort =>
        refine ⟨hlast.symm, fun _ => (changed_concat dtMs).mpr hchanged, fun _ => hheld.symm, ?_⟩
        intro _
        right
        dsimp only
        rw [hheld]
        exact Nat.lt_of_not_le hshort
  · have hother : lastLevel level calls ≠ raw := h.candidate ▸ Ne.symm hraw
    have hlater := later_of_lastLevel_ne hother dtMs
    rw [Debouncer.exec, update_of_moved hraw]
    refine ⟨hlast.symm, fun _ => ?_, fun _ => ?_, fun _ => Or.inl hlater⟩
    · exact (changed_concat dtMs).mpr (changed_of_lastLevel_ne hother)
    · dsimp only
      rw [hlater, held_nil]

theorem exec_stableMs (d : Debouncer) (call : Call) : (d.exec call).stableMs = d.stableMs := by
  by_cases hraw : call.1 = d.candidate
  · by_cases hstate : d.candidate = d.state
    · rw [exec, update_of_settled hraw hstate]
    · rw [exec, update_of_held hraw hstate]
      split
      · rfl
      · rfl
  · rw [exec, update_of_moved hraw]

theorem stableMs_run (d : Debouncer) (calls : List Call) :
    (Runs.run exec d calls).stableMs = d.stableMs := by
  induction calls using List.reverseRecOn with
  | nil => rfl
  | append_singleton calls call ih => rw [Runs.run_concat, exec_stableMs, ih]

theorem tracks_run (d : Debouncer) (level : Bool) (calls : List Call) :
    (Runs.run exec (d.reset level) calls).Tracks level calls := by
  induction calls using List.reverseRecOn with
  | nil => exact tracks_reset d level
  | append_singleton calls call ih =>
      rw [Runs.run_concat]
      exact ih.exec call.1 call.2

/-! ### When a level is accepted -/

theorem not_heldJustNow {stableMs : Nat} {v : Bool} (h : later v calls = []) :
    ¬HeldJustNow level stableMs v calls := fun hheld => hheld.2.1 h

theorem Tracks.accepts_iff (h : d.Tracks level calls) {v : Bool} (hv : d.state ≠ v) (raw : Bool)
    (dtMs : Nat) :
    (d.update raw dtMs).2.state = v ↔
      HeldJustNow level d.stableMs v (calls ++ [(raw, dtMs)]) := by
  by_cases hraw : raw = d.candidate
  · by_cases hstate : d.candidate = d.state
    · have hother : raw ≠ v := by rwa [hraw, hstate]
      rw [update_of_settled hraw hstate]
      exact iff_of_false hv (not_heldJustNow (later_of_other hother dtMs))
    · have hcandidate : d.candidate = v :=
        (Bool.eq_not.mpr hstate).trans (Bool.eq_not.mpr hv.symm).symm
      have hchanged := h.changed hstate
      have helapsed := h.elapsed hstate
      have hshort := h.short hstate
      have hlast : lastLevel level calls = v := h.candidate.symm.trans hcandidate
      rw [hcandidate] at hchanged helapsed hshort
      have hlater := later_concat hchanged hlast dtMs
      rw [update_of_held hraw hstate, HeldJustNow, hraw, hcandidate, changed_concat, hlater,
        held_concat, helapsed, List.dropLast_concat]
      split
      case isTrue haccepted =>
        exact iff_of_true rfl ⟨hchanged, List.concat_ne_nil _ _, haccepted, hshort⟩
      case isFalse hnot => exact iff_of_false hv fun hheld => hnot hheld.2.2.1
  · rw [update_of_moved hraw]
    apply iff_of_false hv
    apply not_heldJustNow
    by_cases hsame : raw = v
    · rw [hsame]
      apply later_of_lastLevel_ne
      rw [← h.candidate, ← hsame]
      exact Ne.symm hraw
    · exact later_of_other hsame dtMs

/-- What an update answers is that the level changed, and the edges say which way. -/
theorem update_edges (d : Debouncer) (raw : Bool) (dtMs : Nat) :
    ((d.update raw dtMs).1 = true ↔ (d.update raw dtMs).2.state ≠ d.state) ∧
      ((d.update raw dtMs).2.rising = true ↔
        d.state = false ∧ (d.update raw dtMs).2.state = true) ∧
      ((d.update raw dtMs).2.falling = true ↔
        d.state = true ∧ (d.update raw dtMs).2.state = false) := by
  by_cases hraw : raw = d.candidate
  · by_cases hstate : d.candidate = d.state
    · rw [update_of_settled hraw hstate]
      simp
    · rw [update_of_held hraw hstate]
      split
      case isTrue haccepted =>
        have hflip : d.candidate = !d.state := Bool.eq_not.mpr hstate
        simp [hflip]
      case isFalse hshort => simp
  · rw [update_of_moved hraw]
    simp

/-- **A level is accepted exactly when it has been stable long enough.** -/
theorem accepted_iff_held (d : Debouncer) (level : Bool) (calls : List Call) (raw : Bool)
    (dtMs : Nat) :
    let before := Runs.run exec (d.reset level) calls
    let after := (before.update raw dtMs).2
    (∀ v, (before.state ≠ v ∧ after.state = v) ↔
        before.state ≠ v ∧ HeldJustNow level d.stableMs v (calls ++ [(raw, dtMs)])) ∧
      ((before.update raw dtMs).1 = true ↔ after.state ≠ before.state) ∧
      (after.rising = true ↔ before.state = false ∧ after.state = true) ∧
      (after.falling = true ↔ before.state = true ∧ after.state = false) := by
  intro before after
  refine ⟨fun v => ?_, before.update_edges raw dtMs⟩
  apply and_congr_right
  intro hv
  have haccepts := (tracks_run d level calls).accepts_iff hv raw dtMs
  rwa [stableMs_run] at haccepts

end Bcm.Debouncer
