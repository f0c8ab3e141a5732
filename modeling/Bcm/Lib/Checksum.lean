import Mathlib.Logic.Function.Basic
import Mathlib.Data.List.Basic

/-!
# Running checks over strings

A running check is a fold. When its step loses neither the state nor the symbol, no change of a
single symbol goes unnoticed, whatever stands around it. When its step is linear, the check of a
corrupted string is the check of the string plus the check of the error.
-/

namespace Checksum

variable {σ α : Type*} {step : σ → α → σ}

theorem foldl_injective (hstate : ∀ a, Function.Injective fun s => step s a) (xs : List α) :
    Function.Injective fun s => xs.foldl step s := by
  induction xs with
  | nil => exact fun _ _ heq => heq
  | cons a xs ih => exact fun _ _ heq => hstate a (ih heq)

/-- Two strings that differ in one symbol have different checks, from the same start. -/
theorem foldl_ne_of_ne (hstate : ∀ a, Function.Injective fun s => step s a)
    (hsymbol : ∀ s, Function.Injective (step s)) (front back : List α) {a b : α} (hne : a ≠ b)
    (s : σ) : (front ++ a :: back).foldl step s ≠ (front ++ b :: back).foldl step s := by
  rw [List.foldl_append, List.foldl_append, List.foldl_cons, List.foldl_cons]
  intro heq
  have hstep := foldl_injective hstate back heq
  exact hne (hsymbol _ hstep)

/-! ### Linear steps -/

def Additive (plus : σ → σ → σ) (mix : α → α → α) (step : σ → α → σ) : Prop :=
  ∀ s t a b, step (plus s t) (mix a b) = plus (step s a) (step t b)

theorem Additive.foldl_zipWith {plus : σ → σ → σ} {mix : α → α → α} (h : Additive plus mix step)
    {xs ys : List α} (hlen : xs.length = ys.length) (s t : σ) :
    (List.zipWith mix xs ys).foldl step (plus s t) = plus (xs.foldl step s) (ys.foldl step t) := by
  induction xs generalizing ys s t with
  | nil =>
    cases ys with
    | nil => rfl
    | cons b ys => cases hlen
  | cons a xs ih =>
    cases ys with
    | nil => cases hlen
    | cons b ys =>
      rw [List.zipWith_cons_cons, List.foldl_cons, List.foldl_cons, List.foldl_cons, h]
      exact ih (Nat.succ.inj hlen) (step s a) (step t b)

/-! ### Bursts -/

/-- Every set bit lies within `width` consecutive positions. -/
def InWindow (width : Nat) (pattern : List Bool) : Prop :=
  ∃ start, true ∉ pattern.take start ∧ true ∉ pattern.drop (start + width)

theorem eq_replicate_of_clear {pattern : List Bool} (h : true ∉ pattern) :
    pattern = List.replicate pattern.length false := by
  apply List.eq_replicate_of_mem
  intro bit hbit
  cases bit with
  | false => rfl
  | true => exact absurd hbit h

/-- The window may be taken inside the pattern: one that sticks out at the end is moved back. -/
theorem InWindow.split {width : Nat} {pattern : List Bool} (h : InWindow width pattern)
    (hwidth : width ≤ pattern.length) :
    ∃ before window after, window.length = width ∧
      pattern = List.replicate before false ++ (window ++ List.replicate after false) := by
  obtain ⟨start, hbefore, hafter⟩ := h
  obtain ⟨first, hfirst, hclear, hrest⟩ : ∃ first, first + width ≤ pattern.length ∧
      true ∉ pattern.take first ∧ true ∉ pattern.drop (first + width) := by
    by_cases hstart : start + width ≤ pattern.length
    · exact ⟨start, hstart, hbefore, hafter⟩
    · refine ⟨pattern.length - width, by omega, ?_, ?_⟩
      · intro hset
        have hle : pattern.length - width ≤ start := by omega
        exact hbefore ((List.take_sublist_take_left hle).subset hset)
      · rw [List.drop_eq_nil_of_le (by omega)]
        exact List.not_mem_nil
  refine ⟨(pattern.take first).length, (pattern.drop first).take width,
    (pattern.drop (first + width)).length, ?_, ?_⟩
  · rw [List.length_take, List.length_drop]
    omega
  · rw [← eq_replicate_of_clear hclear, ← eq_replicate_of_clear hrest, ← List.drop_drop,
      List.take_append_drop, List.take_append_drop]

end Checksum
