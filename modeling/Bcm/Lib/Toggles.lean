import Mathlib.Data.List.Chain

/-!
# Records of a flag

A list that gets the new value of a flag whenever it is written down. If that happens just when the
flag changes, the list alternates.
-/

namespace Toggles

/-- No value stands twice in a row, and the last one is the flag's. -/
structure Tracks (values : List Bool) (flag : Bool) : Prop where
  alternates : values.IsChain (· ≠ ·)
  last : ∀ value ∈ values.getLast?, value = flag

theorem tracks_nil (flag : Bool) : Tracks [] flag := ⟨List.IsChain.nil, by simp⟩

/-- A value behind the others keeps them alternating if and only if it is not the last one again. -/
theorem isChain_concat_iff (values : List Bool) (next : Bool) :
    (values ++ [next]).IsChain (· ≠ ·) ↔
      values.IsChain (· ≠ ·) ∧ ∀ value ∈ values.getLast?, value ≠ next := by
  rw [List.isChain_append]
  simp

/-- **Writing down the changes.** -/
theorem Tracks.append {values : List Bool} {flag : Bool} (h : Tracks values flag) {next written : Bool}
    (hwritten : written = true ↔ next ≠ flag) :
    Tracks (values ++ if written then [next] else []) next := by
  cases written with
  | true =>
      have hchange : next ≠ flag := hwritten.mp rfl
      constructor
      · rw [if_pos rfl, isChain_concat_iff]
        refine ⟨h.alternates, fun value hvalue => ?_⟩
        rw [h.last value hvalue]
        exact hchange.symm
      · simp
  | false =>
      have hsame : next = flag := not_not.mp fun hne => Bool.false_ne_true (hwritten.mpr hne)
      rw [if_neg Bool.false_ne_true, List.append_nil, hsame]
      exact h

end Toggles
