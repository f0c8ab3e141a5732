import Mathlib.Data.List.Basic
import Mathlib.Data.List.GetD

/-!
# Latches

A latch is set by an input that decides something and holds what it has otherwise. It remembers the
last decision and nothing else, so it changes only where two decisions in a row differ, and perhaps
at the first.
-/

namespace Latch

variable {α : Type*} (decision : α → Option Bool)

def step (state : Bool) (input : α) : Bool := (decision input).getD state

/-- The state before the inputs and after each of them. -/
def history (state : Bool) (inputs : List α) : List Bool := inputs.scanl (step decision) state

/-- How often neighbours differ. -/
def changes : List Bool → Nat
  | [] => 0
  | [_] => 0
  | first :: second :: rest => (if first = second then 0 else 1) + changes (second :: rest)

theorem changes_self (state : Bool) (rest : List Bool) :
    changes (state :: state :: rest) = changes (state :: rest) := by
  rw [changes, if_pos rfl, Nat.zero_add]

theorem changes_cons_le (state : Bool) (rest : List Bool) :
    changes (state :: rest) ≤ changes rest + 1 := by
  cases rest with
  | nil => exact Nat.zero_le _
  | cons first rest =>
      rw [changes]
      split
      · omega
      · omega

/-- The state after the inputs is the last decision, if there was one. -/
theorem foldl_step (state : Bool) (inputs : List α) :
    inputs.foldl (step decision) state = (inputs.filterMap decision).getLast?.getD state := by
  induction inputs generalizing state with
  | nil => rfl
  | cons input inputs ih =>
      rw [List.foldl_cons, ih, step]
      cases hdecision : decision input with
      | none => rw [List.filterMap_cons_none hdecision, Option.getD_none]
      | some verdict =>
          rw [List.filterMap_cons_some hdecision, List.getLast?_cons, Option.getD_some]
          rfl

theorem changes_history (state : Bool) (inputs : List α) :
    changes (history decision state inputs) = changes (state :: inputs.filterMap decision) := by
  induction inputs generalizing state with
  | nil => rfl
  | cons input inputs ih =>
      have hhead : ∀ later, ∃ rest, history decision later inputs = later :: rest := by
        intro later
        cases inputs with
        | nil => exact ⟨[], rfl⟩
        | cons next inputs => exact ⟨_, List.scanl_cons⟩
      obtain ⟨rest, hrest⟩ := hhead (step decision state input)
      have hlater := ih (step decision state input)
      rw [history, List.scanl_cons, ← history, hrest]
      rw [hrest, step] at hlater
      cases hdecision : decision input with
      | none =>
          rw [hdecision, Option.getD_none] at hlater
          rw [List.filterMap_cons_none hdecision, step, hdecision, Option.getD_none, changes_self]
          exact hlater
      | some verdict =>
          rw [hdecision, Option.getD_some] at hlater
          rw [List.filterMap_cons_some hdecision, step, hdecision, Option.getD_some, changes,
            changes, hlater]

/-- **A latch does not chatter.** -/
theorem changes_history_le (state : Bool) (inputs : List α) :
    changes (history decision state inputs) ≤ changes (inputs.filterMap decision) + 1 := by
  rw [changes_history]
  exact changes_cons_le state _

end Latch
