import Mathlib.Data.List.Induction

/-!
# Runs that may stop

A system some of whose operations have no outcome in some of its states: a run ends at the first of
these. What is said of a run is said of the state it reaches, if it reaches one.
-/

namespace PartialRuns

variable {σ α : Type*} (exec : σ → α → Option σ)

def run (s : σ) (ops : List α) : Option σ := ops.foldlM exec s

theorem run_nil (s : σ) : run exec s [] = some s := rfl

theorem run_cons (s : σ) (a : α) (ops : List α) :
    run exec s (a :: ops) = (exec s a).bind fun t => run exec t ops := rfl

theorem run_append (s : σ) (front back : List α) :
    run exec s (front ++ back) = (run exec s front).bind fun t => run exec t back :=
  List.foldlM_append

theorem run_concat (s : σ) (ops : List α) (a : α) :
    run exec s (ops ++ [a]) = (run exec s ops).bind fun t => exec t a := by
  rw [run_append]
  simp only [run, List.foldlM_cons, List.foldlM_nil, bind_pure]

/-- Every operation that a run comes to meets a condition on it and on the state it is taken
from. -/
def Along (cond : σ → α → Prop) (s : σ) : List α → Prop
  | [] => True
  | a :: ops => cond s a ∧ ∀ t ∈ exec s a, Along cond t ops

instance decidableAlong (cond : σ → α → Prop) [∀ s a, Decidable (cond s a)] :
    ∀ (s : σ) (ops : List α), Decidable (Along exec cond s ops)
  | _, [] => .isTrue trivial
  | s, a :: ops =>
      have : DecidablePred fun t => Along exec cond t ops := fun t => decidableAlong cond t ops
      inferInstanceAs (Decidable (cond s a ∧ ∀ t ∈ exec s a, Along exec cond t ops))

variable {exec}

theorem run_rest {init s t : σ} {front back : List α} (h : run exec init (front ++ back) = some t)
    (hfront : run exec init front = some s) : run exec s back = some t := by
  rwa [run_append, hfront] at h

theorem along_append {cond : σ → α → Prop} {s : σ} {front back : List α} :
    Along exec cond s (front ++ back) ↔
      Along exec cond s front ∧ ∀ t ∈ run exec s front, Along exec cond t back := by
  induction front generalizing s with
  | nil => simp [Along, run_nil]
  | cons a front ih =>
      rw [List.cons_append, Along, Along, run_cons, and_assoc]
      refine and_congr_right fun _ => ?_
      cases exec s a with
      | none => simp
      | some t => simpa using ih

theorem along_concat {cond : σ → α → Prop} {s : σ} {ops : List α} {a : α} :
    Along exec cond s (ops ++ [a]) ↔
      Along exec cond s ops ∧ ∀ t ∈ run exec s ops, cond t a := by
  rw [along_append]
  simp only [Along, implies_true, and_true]

/-- **The history rule.** -/
theorem run_history {init : σ} {cond : σ → α → Prop} {I : List α → σ → Prop} (hinit : I [] init)
    (hstep : ∀ ops a s t, run exec init ops = some s → cond s a → I ops s → exec s a = some t →
      I (ops ++ [a]) t)
    {ops : List α} (hops : Along exec cond init ops) {s : σ} (h : run exec init ops = some s) :
    I ops s := by
  induction ops using List.reverseRecOn generalizing s with
  | nil =>
      rw [← Option.some.inj h]
      exact hinit
  | append_singleton ops a ih =>
      obtain ⟨hfront, hlast⟩ := along_concat.mp hops
      rw [run_concat, Option.bind_eq_some_iff] at h
      obtain ⟨t, ht, hs⟩ := h
      exact hstep ops a t s ht (hlast t ht) (ih hfront ht) hs

/-- **The rule for what holds while a condition has been met.** -/
theorem run_while {init : σ} {cond : σ → α → Prop} {I : Prop → σ → Prop}
    (hweaken : ∀ p q s, (q → p) → I p s → I q s) (hinit : I True init)
    (hstep : ∀ ops p s a t, run exec init ops = some s → I p s → exec s a = some t →
      I (p ∧ cond s a) t)
    {ops : List α} {s : σ} (h : run exec init ops = some s) : I (Along exec cond init ops) s := by
  induction ops using List.reverseRecOn generalizing s with
  | nil =>
      rw [← Option.some.inj h]
      exact hinit
  | append_singleton ops a ih =>
      rw [run_concat, Option.bind_eq_some_iff] at h
      obtain ⟨t, ht, hs⟩ := h
      refine hweaken _ _ s ?_ (hstep ops _ t a s ht (ih ht) hs)
      intro hall
      obtain ⟨hfront, hlast⟩ := along_concat.mp hall
      exact ⟨hfront, hlast t ht⟩

theorem along_true (s : σ) (ops : List α) : Along exec (fun _ _ => True) s ops := by
  induction ops generalizing s with
  | nil => trivial
  | cons a ops ih => exact ⟨trivial, fun t _ => ih t⟩

/-- A condition on the operations alone. -/
theorem along_of_forall {allowed : α → Prop} {ops : List α} (h : ∀ a ∈ ops, allowed a) (s : σ) :
    Along exec (fun _ a => allowed a) s ops := by
  induction ops generalizing s with
  | nil => trivial
  | cons a ops ih =>
      exact ⟨h a List.mem_cons_self, fun t _ => ih (fun b hb => h b (List.mem_cons_of_mem a hb)) t⟩

/-- **The invariant rule.** -/
theorem run_invariant {init : σ} {I : σ → Prop} (hinit : I init)
    (hstep : ∀ s a t, I s → exec s a = some t → I t) {ops : List α} {s : σ}
    (h : run exec init ops = some s) : I s :=
  run_history (I := fun _ => I) hinit (fun _ a s t _ _ hs ht => hstep s a t hs ht)
    (along_true init ops) h

/-! ### What a run puts out -/

section Outputs

variable {ω : Type*} (exec) (out : σ → α → List ω)

/-- What the operations put out, each in the state it is taken from. -/
def outputs (s : σ) : List α → List ω
  | [] => []
  | a :: ops => out s a ++ (exec s a).elim [] fun t => outputs t ops

variable {exec out}

theorem outputs_concat {s t : σ} {ops : List α} (h : run exec s ops = some t) (a : α) :
    outputs exec out s (ops ++ [a]) = outputs exec out s ops ++ out t a := by
  induction ops generalizing s with
  | nil =>
      rw [← Option.some.inj h, List.nil_append, outputs, outputs]
      cases exec s a with
      | none => exact List.append_nil _
      | some next => exact List.append_nil _
  | cons b ops ih =>
      rw [run_cons, Option.bind_eq_some_iff] at h
      obtain ⟨next, hnext, hrest⟩ := h
      rw [List.cons_append, outputs, outputs, hnext, Option.elim_some, Option.elim_some, ih hrest,
        List.append_assoc]

/-- **The rule for what a run puts out.** -/
theorem forall_outputs {init : σ} {cond : σ → α → Prop} {P : ω → Prop} {ops : List α} {s : σ}
    (h : run exec init ops = some s) (hops : Along exec cond init ops)
    (hout : ∀ front a t, run exec init front = some t → cond t a → ∀ x ∈ out t a, P x) :
    ∀ x ∈ outputs exec out init ops, P x := by
  refine run_history (I := fun ops _ => ∀ x ∈ outputs exec out init ops, P x)
    (fun x hx => absurd hx List.not_mem_nil) (fun ops a t _ ht hcond hfront _ => ?_) hops h
  rw [outputs_concat ht]
  intro x hx
  rcases List.mem_append.mp hx with hx | hx
  · exact hfront x hx
  · exact hout ops a t ht hcond x hx

end Outputs

/-! ### Looking back -/

variable (exec)

/-- At some point of the run, this was the state and these were the operations still to come. -/
def Earlier (init : σ) (ops : List α) (R : σ → List α → Prop) : Prop :=
  ∃ front back s, ops = front ++ back ∧ run exec init front = some s ∧ R s back

variable {exec}

theorem earlier_now {init s : σ} {ops : List α} (h : run exec init ops = some s)
    {R : σ → List α → Prop} (hnow : R s []) : Earlier exec init ops R :=
  ⟨ops, [], s, (List.append_nil ops).symm, h, hnow⟩

theorem Earlier.imp {init : σ} {ops : List α} {R R' : σ → List α → Prop}
    (h : Earlier exec init ops R)
    (himp : ∀ front back s, ops = front ++ back → run exec init front = some s → R s back →
      R' s back) : Earlier exec init ops R' := by
  obtain ⟨front, back, s, hsplit, hs, hR⟩ := h
  exact ⟨front, back, s, hsplit, hs, himp front back s hsplit hs hR⟩

/-- **The rule for one more operation.** What was the case earlier is the case now, or was before
the last operation. -/
theorem earlier_concat {init s : σ} {ops : List α} {a : α}
    (h : run exec init (ops ++ [a]) = some s) {R : σ → List α → Prop} :
    Earlier exec init (ops ++ [a]) R ↔
      R s [] ∨ Earlier exec init ops fun t back => R t (back ++ [a]) := by
  constructor
  · rintro ⟨front, back, t, hsplit, ht, hR⟩
    rcases List.eq_nil_or_concat back with rfl | ⟨back, b, rfl⟩
    · rw [List.append_nil] at hsplit
      rw [← hsplit, h] at ht
      rw [← Option.some.inj ht] at hR
      exact Or.inl hR
    · rw [List.concat_eq_append, ← List.append_assoc] at hsplit
      obtain ⟨hops, hlast⟩ := List.append_inj' hsplit rfl
      rw [List.concat_eq_append, ← List.singleton_inj.mp hlast] at hR
      exact Or.inr ⟨front, back, t, hops, ht, hR⟩
  · rintro (hR | ⟨front, back, t, rfl, ht, hR⟩)
    · exact earlier_now h hR
    · exact ⟨front, back ++ [a], t, List.append_assoc .., ht, hR⟩

end PartialRuns
