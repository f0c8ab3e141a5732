import Mathlib.Data.List.Basic
import Mathlib.Data.List.Infix

/-!
# Byte-at-a-time transducers

A machine that reads one symbol, moves, and answers. `final` is the state after a string and
`outputs` is the answers along it, one for each symbol. The lemmas cut both at any point of the
string.
-/

namespace Transducer

variable {σ α β : Type*} (step : σ → α → σ × β)

def final (s : σ) (xs : List α) : σ := xs.foldl (fun t x => (step t x).1) s

def outputs (s : σ) : List α → List β
  | [] => []
  | x :: xs => (step s x).2 :: outputs (step s x).1 xs

@[simp]
theorem final_nil (s : σ) : final step s [] = s := rfl

@[simp]
theorem final_cons (s : σ) (x : α) (xs : List α) :
    final step s (x :: xs) = final step (step s x).1 xs := rfl

@[simp]
theorem outputs_nil (s : σ) : outputs step s [] = [] := rfl

@[simp]
theorem outputs_cons (s : σ) (x : α) (xs : List α) :
    outputs step s (x :: xs) = (step s x).2 :: outputs step (step s x).1 xs := rfl

theorem final_append (s : σ) (xs ys : List α) :
    final step s (xs ++ ys) = final step (final step s xs) ys :=
  List.foldl_append

theorem outputs_append (s : σ) (xs ys : List α) :
    outputs step s (xs ++ ys) = outputs step s xs ++ outputs step (final step s xs) ys := by
  induction xs generalizing s with
  | nil => rfl
  | cons x xs ih =>
      rw [List.cons_append, outputs_cons, outputs_cons, final_cons, ih, List.cons_append]

@[simp]
theorem length_outputs (s : σ) (xs : List α) : (outputs step s xs).length = xs.length := by
  induction xs generalizing s with
  | nil => rfl
  | cons x xs ih => rw [outputs_cons, List.length_cons, List.length_cons, ih]

theorem getElem?_outputs (s : σ) (xs : List α) (i : Nat) :
    (outputs step s xs)[i]? = xs[i]?.map fun x => (step (final step s (xs.take i)) x).2 := by
  induction xs generalizing s i with
  | nil => simp
  | cons x xs ih =>
      cases i with
      | zero => simp
      | succ i => simpa using ih (step s x).1 i

theorem final_concat (s : σ) (xs : List α) (x : α) :
    final step s (xs ++ [x]) = (step (final step s xs) x).1 := by
  rw [final_append, final_cons, final_nil]

theorem getElem?_outputs_eq_getLast? {s : σ} {xs : List α} {k : Nat} (hk : k < xs.length) :
    (outputs step s xs)[k]? = (outputs step s (xs.take (k + 1))).getLast? := by
  have hsplit : outputs step s xs = outputs step s (xs.take (k + 1)) ++
      outputs step (final step s (xs.take (k + 1))) (xs.drop (k + 1)) := by
    rw [← outputs_append, List.take_append_drop]
  have hlength : (outputs step s (xs.take (k + 1))).length = k + 1 := by
    rw [length_outputs, List.length_take]
    omega
  rw [hsplit, List.getElem?_append_left (by omega), List.getLast?_eq_getElem?, hlength]
  rfl

/-- **The simulation rule.** Two machines whose states a relation joins, and which answer every
symbol alike and stay joined, answer every string alike. -/
theorem outputs_eq_of_related {τ : Type*} {step' : τ → α → τ × β} {R : σ → τ → Prop}
    (hstep : ∀ s t x, R s t → (step s x).2 = (step' t x).2 ∧ R (step s x).1 (step' t x).1)
    {s : σ} {t : τ} (h : R s t) (xs : List α) : outputs step s xs = outputs step' t xs := by
  induction xs generalizing s t with
  | nil => rfl
  | cons x xs ih =>
      obtain ⟨hanswer, hjoined⟩ := hstep s t x h
      rw [outputs_cons, outputs_cons, hanswer, ih hjoined]

theorem final_related {τ : Type*} {step' : τ → α → τ × β} {R : σ → τ → Prop}
    (hstep : ∀ s t x, R s t → (step s x).2 = (step' t x).2 ∧ R (step s x).1 (step' t x).1)
    {s : σ} {t : τ} (h : R s t) (xs : List α) : R (final step s xs) (final step' t xs) := by
  induction xs generalizing s t with
  | nil => exact h
  | cons x xs ih =>
      rw [final_cons, final_cons]
      exact ih (hstep s t x h).2

end Transducer
