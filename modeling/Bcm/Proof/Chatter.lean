import Bcm.Drivers
import Bcm.Lib.Latch
import Bcm.Lib.Runs
import Bcm.Lib.Transducer

/-!
# The Schmitt trigger does not chatter

A trigger whose thresholds are apart is a latch. Samples from `high` up and samples from `low` down
decide it, whichever state it is in, and samples in between leave it as it is.
-/

namespace Bcm.Hysteresis

/-- What a sample outside the open interval decides. -/
def decision (low high v : Nat) : Option Bool :=
  if high ≤ v then some true else if v ≤ low then some false else none

theorem verdict_eq {low high : Nat} (hapart : low < high) (v : Nat) (state : Bool) :
    verdict low high v state = Latch.step (decision low high) state v := by
  unfold verdict Latch.step decision
  by_cases hhigh : high ≤ v
  · have hlow : low < v := by omega
    cases state <;> simp [hhigh, hlow]
  · by_cases hlow : v ≤ low
    · cases state <;> simp [hhigh, hlow]
    · cases state <;> simp [hhigh, hlow, Nat.lt_of_not_le hlow]

/-- The trigger as a machine that answers each sample. -/
def answer (h : Hysteresis) (v : Nat) : Hysteresis × Bool := ((h.update v).2, (h.update v).1)

theorem answer_eq {low high : Nat} (hapart : low < high) (state : Bool) (v : Nat) :
    answer ⟨low, high, state⟩ v =
      (⟨low, high, Latch.step (decision low high) state v⟩,
        Latch.step (decision low high) state v) := by
  rw [answer, update_eq, verdict_eq hapart]

theorem final_eq {low high : Nat} (hapart : low < high) (state : Bool) (samples : List Nat) :
    Transducer.final answer ⟨low, high, state⟩ samples =
      ⟨low, high, samples.foldl (Latch.step (decision low high)) state⟩ := by
  induction samples generalizing state with
  | nil => rfl
  | cons v samples ih =>
      rw [Transducer.final_cons, answer_eq hapart, ih]
      rfl

theorem history_eq {low high : Nat} (hapart : low < high) (state : Bool) (samples : List Nat) :
    state :: Transducer.outputs answer ⟨low, high, state⟩ samples =
      Latch.history (decision low high) state samples := by
  induction samples generalizing state with
  | nil => rfl
  | cons v samples ih =>
      rw [Transducer.outputs_cons, answer_eq hapart, ih, Latch.history, Latch.history,
        List.scanl_cons]

/-- **The last decisive sample alone is remembered.** So the output changes at most once more than
the decisive samples change sides. -/
theorem final_state {low high : Nat} (hapart : low < high) (initial : Bool) (samples : List Nat) :
    (Transducer.final answer ⟨low, high, initial⟩ samples).state =
        (samples.filterMap (decision low high)).getLast?.getD initial ∧
      Latch.changes (initial :: Transducer.outputs answer ⟨low, high, initial⟩ samples) ≤
        Latch.changes (samples.filterMap (decision low high)) + 1 := by
  constructor
  · rw [final_eq hapart]
    exact Latch.foldl_step _ initial samples
  · rw [history_eq hapart]
    exact Latch.changes_history_le _ initial samples

/-- Noise between the thresholds, and one crossing. -/
theorem final_state_dusk :
    Latch.changes
        (false :: Transducer.outputs answer ⟨300, 400, false⟩ [350, 401, 390, 310, 350]) ≤ 1 :=
  (final_state (by decide) false [350, 401, 390, 310, 350]).2

end Bcm.Hysteresis
