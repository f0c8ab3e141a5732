import Mathlib.Data.List.Count

/-!
# Backlogs

What is waiting to be served: one more for each arrival, and one less for each service, if there is
one. In rounds with as many services as may arrive in one, the backlog stays within that number,
whatever the order in a round.
-/

namespace Backlog

inductive Change where
  | up
  | down
  | same
  deriving DecidableEq, Repr

def next (level : Nat) : Change → Nat
  | .up => level + 1
  | .down => level - 1
  | .same => level

def after (level : Nat) (changes : List Change) : Nat := changes.foldl next level

theorem next_mono {level level' : Nat} (h : level ≤ level') (change : Change) :
    next level change ≤ next level' change := by
  cases change with
  | up => exact Nat.succ_le_succ h
  | down => exact Nat.sub_le_sub_right h 1
  | same => exact h

theorem after_cons (level : Nat) (change : Change) (changes : List Change) :
    after level (change :: changes) = after (next level change) changes := rfl

/-- Services count in full unless the backlog has been down to nothing. -/
theorem after_le (level : Nat) (changes : List Change) :
    after level changes ≤ changes.count .up + (level - changes.count .down) := by
  induction changes generalizing level with
  | nil => exact Nat.le_of_eq (Nat.zero_add level).symm
  | cons change changes ih =>
      have hrest := ih (next level change)
      rw [after_cons]
      refine Nat.le_trans hrest ?_
      cases change with
      | up =>
          rw [List.count_cons_self, List.count_cons_of_ne (by decide), next]
          omega
      | down =>
          rw [List.count_cons_self, List.count_cons_of_ne (by decide), next]
          omega
      | same =>
          refine Nat.le_of_eq ?_
          rw [List.count_cons_of_ne (by decide), List.count_cons_of_ne (by decide), next]

/-- **The round rule.** -/
theorem after_le_of_round {bound level : Nat} {changes : List Change} (hlevel : level ≤ bound)
    (hups : changes.count .up ≤ bound) (hdowns : bound ≤ changes.count .down) :
    after level changes ≤ bound := by
  have hafter := after_le level changes
  omega

end Backlog
