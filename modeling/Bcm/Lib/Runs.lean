import Mathlib.Data.List.Chain
import Mathlib.Data.List.Basic
import Mathlib.Order.Basic

/-!
# Runs of a deterministic system

A system executes one operation after another. What one operation preserves, a whole run preserves,
and a statement about the history of a run is one about the list of its operations. A single
operation may itself be a list of blocks, and then a relation that every block keeps is kept between
any two neighbouring states on the way through.

Nothing here is about a particular system.
-/

namespace Runs

variable {σ α : Type*} (exec : σ → α → σ)

def run (s : σ) (ops : List α) : σ := ops.foldl exec s

@[simp]
theorem run_nil (s : σ) : run exec s [] = s := rfl

@[simp]
theorem run_cons (s : σ) (a : α) (ops : List α) :
    run exec s (a :: ops) = run exec (exec s a) ops := rfl

theorem run_append (s : σ) (front back : List α) :
    run exec s (front ++ back) = run exec (run exec s front) back :=
  List.foldl_append

@[simp]
theorem run_concat (s : σ) (ops : List α) (a : α) :
    run exec s (ops ++ [a]) = exec (run exec s ops) a := by
  rw [run_append, run_cons, run_nil]

/-- The states a system reaches from `init`, using only operations that `allowed` admits. -/
def Reachable (init : σ) (allowed : α → Prop) (s : σ) : Prop :=
  ∃ ops : List α, (∀ a ∈ ops, allowed a) ∧ run exec init ops = s

variable {exec}

/-- **The invariant rule.** -/
theorem Reachable.invariant {init s : σ} {allowed : α → Prop} {I : σ → Prop}
    (h : Reachable exec init allowed s) (hinit : I init)
    (hstep : ∀ t a, allowed a → I t → I (exec t a)) : I s := by
  obtain ⟨ops, hallowed, rfl⟩ := h
  induction ops using List.reverseRecOn with
  | nil => exact hinit
  | append_singleton ops a ih =>
      rw [run_concat]
      refine hstep _ a (hallowed a (by simp)) (ih fun b hb => hallowed b ?_)
      exact List.mem_append_left _ hb

variable (exec)

/-- Every operation of a run meets a condition on it and on the state it is taken from. -/
def Along (cond : σ → α → Prop) (s : σ) : List α → Prop
  | [] => True
  | a :: ops => cond s a ∧ Along cond (exec s a) ops

instance Along.decidable {cond : σ → α → Prop} [∀ s a, Decidable (cond s a)] :
    (s : σ) → (ops : List α) → Decidable (Along exec cond s ops)
  | _, [] => inferInstanceAs (Decidable True)
  | s, a :: ops => @instDecidableAnd _ _ _ (Along.decidable (exec s a) ops)

variable {exec}

theorem along_concat {cond : σ → α → Prop} {s : σ} {ops : List α} {a : α} :
    Along exec cond s (ops ++ [a]) ↔ Along exec cond s ops ∧ cond (run exec s ops) a := by
  induction ops generalizing s with
  | nil => simp [Along]
  | cons b ops ih => rw [List.cons_append, Along, Along, ih, run_cons, and_assoc]

theorem along_congr {cond cond' : σ → α → Prop} {I : σ → Prop} {s : σ} (hs : I s)
    (hstep : ∀ t a, I t → I (exec t a)) (hiff : ∀ t a, I t → (cond t a ↔ cond' t a))
    (ops : List α) : Along exec cond s ops ↔ Along exec cond' s ops := by
  induction ops generalizing s with
  | nil => exact Iff.rfl
  | cons a ops ih => rw [Along, Along, hiff s a hs, ih (hstep s a hs)]

/-- **The history rule.** An invariant may speak of the operations so far, and each step of it may
use a condition that every operation of the run meets. -/
theorem run_history {init : σ} {cond : σ → α → Prop} {I : List α → σ → Prop}
    (hinit : I [] init)
    (hstep : ∀ ops a, cond (run exec init ops) a → I ops (run exec init ops) →
      I (ops ++ [a]) (exec (run exec init ops) a))
    {ops : List α} (hops : Along exec cond init ops) : I ops (run exec init ops) := by
  induction ops using List.reverseRecOn with
  | nil => exact hinit
  | append_singleton ops a ih =>
      obtain ⟨hfront, hlast⟩ := along_concat.mp hops
      rw [run_concat]
      exact hstep ops a hlast (ih hfront)

/-- What no operation of a run increases is no more at its end. -/
theorem run_le {β : Type*} [Preorder β] {f : σ → β} {ops : List α} (s : σ)
    (hstep : ∀ a ∈ ops, ∀ t, f (exec t a) ≤ f t) : f (run exec s ops) ≤ f s := by
  induction ops using List.reverseRecOn with
  | nil => exact le_refl (f s)
  | append_singleton ops a ih =>
      rw [run_concat]
      have hfront := ih fun b hb => hstep b (List.mem_append_left _ hb)
      exact (hstep a (by simp) _).trans hfront

theorem rel_ite {α β : Type*} {R : α → β → Prop} {c d : Prop} [Decidable c] [Decidable d]
    (hcond : c ↔ d) {x y : α} {x' y' : β} (htrue : R x x') (hfalse : R y y') :
    R (if c then x else y) (if d then x' else y') := by
  by_cases hc : c
  · rwa [if_pos hc, if_pos (hcond.mp hc)]
  · rwa [if_neg hc, if_neg (fun hd => hc (hcond.mpr hd))]

section Blocks

variable {R : σ → σ → Prop} {I : σ → Prop}

/-- A relation that holds across every block, from any state an invariant admits, holds between any
two neighbouring states of a run through the blocks. -/
theorem isChain_scanl_blocks {blocks : List (σ → σ)} {s : σ} (hs : I s)
    (hblock : ∀ block ∈ blocks, ∀ t, I t → R t (block t) ∧ I (block t)) :
    (blocks.scanl (fun t block => block t) s).IsChain R := by
  induction blocks generalizing s with
  | nil => simp
  | cons block rest ih =>
      have hfirst := hblock block (by simp) s hs
      have hrest := ih hfirst.2 fun b hb => hblock b (by simp [hb])
      rw [List.scanl_cons]
      refine List.isChain_cons.mpr ⟨?_, hrest⟩
      intro t ht
      rw [List.head?_scanl] at ht
      rw [← Option.some.inj ht]
      exact hfirst.1

/-- What every block keeps of two states, the blocks keep one after the other. -/
theorem rel_foldl_blocks {blocks : List (σ → σ)} {s t : σ} (hst : R s t)
    (hblock : ∀ block ∈ blocks, ∀ s t, R s t → R (block s) (block t)) :
    R (blocks.foldl (fun s block => block s) s) (blocks.foldl (fun t block => block t) t) := by
  induction blocks generalizing s t with
  | nil => exact hst
  | cons block rest ih =>
      exact ih (hblock block (by simp) s t hst) fun b hb => hblock b (by simp [hb])

/-- Two runs through blocks, one from where the other ends, chain into one. -/
theorem isChain_scanl_append {front back : List (σ → σ)} {s : σ}
    (hfront : (front.scanl (fun t block => block t) s).IsChain R)
    (hback : (back.scanl (fun t block => block t)
      (front.foldl (fun t block => block t) s)).IsChain R) :
    ((front ++ back).scanl (fun t block => block t) s).IsChain R := by
  induction front generalizing s with
  | nil => exact hback
  | cons block rest ih =>
      rw [List.scanl_cons, List.isChain_cons, List.head?_scanl] at hfront
      rw [List.cons_append, List.scanl_cons, List.isChain_cons, List.head?_scanl]
      exact ⟨hfront.1, ih hfront.2 hback⟩

end Blocks

end Runs
