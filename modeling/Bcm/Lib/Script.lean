import Bcm.Lib.Runs

/-!
# Scripts that look

A script runs a system by calls, and may look at it in between and go on as it finds it. What it
gets to see of two systems decides whether it can tell them apart.
-/

/-- A script over calls `α` and views `ω`. -/
inductive Script (α ω : Type*) where
  | done
  | call (a : α) (next : Script α ω)
  | look (next : ω → Script α ω)

namespace Script

variable {σ τ α ω : Type*} (exec : σ → α → σ) (view : σ → ω)

def run : Script α ω → σ → σ
  | done, s => s
  | call a next, s => next.run (exec s a)
  | look next, s => (next (view s)).run s

/-- Whatever a script does is a run of its calls. -/
theorem run_eq_calls (script : Script α ω) (s : σ) :
    ∃ calls, script.run exec view s = Runs.run exec s calls := by
  induction script generalizing s with
  | done => exact ⟨[], rfl⟩
  | call a next ih =>
      obtain ⟨calls, hcalls⟩ := ih (exec s a)
      exact ⟨a :: calls, hcalls⟩
  | look next ih => exact ih (view s) s

variable {exec view} {exec' : τ → α → τ} {view' : τ → ω} {R : σ → τ → Prop}

/-- **The simulation rule.** Systems that look alike, and do so after every call, cannot be told
apart by any script. -/
theorem run_related (hexec : ∀ s t a, R s t → R (exec s a) (exec' t a))
    (hview : ∀ s t, R s t → view s = view' t) (script : Script α ω) {s : σ} {t : τ} (h : R s t) :
    R (script.run exec view s) (script.run exec' view' t) := by
  induction script generalizing s t with
  | done => exact h
  | call a next ih => exact ih (hexec s t a h)
  | look next ih =>
      rw [run, run, hview s t h]
      exact ih (view' t) h

end Script
