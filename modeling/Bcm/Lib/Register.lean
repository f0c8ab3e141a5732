import Bcm.Lib.Runs
import Mathlib.Data.List.GetD

/-!
# Registers

A part of a state that every operation either overwrites, with a value that the operation alone
decides, or leaves alone. After any run it holds the last value written, or what it held before.
-/

namespace Register

variable {σ α β : Type*} (writes : α → Option β)

/-- The last value that the operations write. -/
def last (ops : List α) : Option β := (ops.filterMap writes).getLast?

@[simp]
theorem last_nil : last writes [] = none := rfl

theorem last_concat (ops : List α) (op : α) :
    last writes (ops ++ [op]) = (writes op).or (last writes ops) := by
  unfold last
  rw [List.filterMap_append]
  cases hop : writes op with
  | none => rw [List.filterMap_cons_none hop, List.filterMap_nil, List.append_nil, Option.none_or]
  | some value =>
      rw [List.filterMap_cons_some hop, List.filterMap_nil, List.getLast?_append,
        List.getLast?_singleton]

theorem last_append (front back : List α) :
    last writes (front ++ back) = (last writes back).or (last writes front) := by
  unfold last
  rw [List.filterMap_append, List.getLast?_append]

theorem last_eq_none {ops : List α} (h : ∀ op ∈ ops, writes op = none) : last writes ops = none := by
  unfold last
  rw [List.filterMap_eq_nil_iff.mpr h, List.getLast?_nil]

theorem last_isSome_iff {ops : List α} :
    (last writes ops).isSome ↔ ∃ op ∈ ops, (writes op).isSome := by
  unfold last
  rw [List.getLast?_isSome]
  constructor
  · intro hne
    by_contra hnone
    refine hne (List.filterMap_eq_nil_iff.mpr fun op hop => ?_)
    exact Option.not_isSome_iff_eq_none.mp fun hsome => hnone ⟨op, hop, hsome⟩
  · rintro ⟨op, hop, hsome⟩ hnil
    rw [List.filterMap_eq_nil_iff.mp hnil op hop] at hsome
    exact absurd hsome Bool.false_ne_true

/-- **The register rule.** -/
theorem read_run {exec : σ → α → σ} (read : σ → β)
    (hstep : ∀ s op, read (exec s op) = (writes op).getD (read s)) (s : σ) (ops : List α) :
    read (Runs.run exec s ops) = (last writes ops).getD (read s) := by
  induction ops using List.reverseRecOn with
  | nil => rfl
  | append_singleton ops op ih =>
      rw [Runs.run_concat, hstep, ih, last_concat]
      cases writes op with
      | none => rw [Option.none_or, Option.getD_none]
      | some value => rw [Option.some_or, Option.getD_some, Option.getD_some]

end Register
