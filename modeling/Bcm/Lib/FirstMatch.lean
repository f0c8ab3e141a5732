import Mathlib.Data.List.Basic
import Mathlib.Data.List.Nodup

/-!
# Changing the first match

A list kept as a table, where an entry is found as the first that satisfies a test, and is changed
in place. What such a change does to the other lookups.
-/

namespace FirstMatch

variable {α β : Type*} (p : α → Bool) (g : α → α)

/-- The list with `g` applied to the first entry that satisfies `p`. -/
def modifyFirst (l : List α) : List α := (l.findIdx? p).elim l fun i => l.modify i g

theorem modifyFirst_cons (x : α) (l : List α) :
    modifyFirst p g (x :: l) = if p x then g x :: l else x :: modifyFirst p g l := by
  unfold modifyFirst
  rw [List.findIdx?_cons]
  by_cases hx : p x = true
  · rw [if_pos hx, if_pos hx]
    rfl
  · rw [if_neg hx, if_neg hx]
    cases l.findIdx? p with
    | none => rfl
    | some i => rfl

theorem map_modifyFirst {f : α → β} (hg : ∀ x, f (g x) = f x) (l : List α) :
    (modifyFirst p g l).map f = l.map f := by
  induction l with
  | nil => rfl
  | cons x l ih =>
      rw [modifyFirst_cons]
      split
      · rw [List.map_cons, List.map_cons, hg]
      · rw [List.map_cons, List.map_cons, ih]

/-- The entry is found again, changed. -/
theorem find?_modifyFirst_self (hg : ∀ x, p (g x) = p x) (l : List α) :
    (modifyFirst p g l).find? p = (l.find? p).map g := by
  induction l with
  | nil => rfl
  | cons x l ih =>
      rw [modifyFirst_cons]
      by_cases hx : p x = true
      · rw [if_pos hx, List.find?_cons_of_pos (by rw [hg, hx]), List.find?_cons_of_pos hx]
        rfl
      · rw [if_neg hx, List.find?_cons_of_neg hx, List.find?_cons_of_neg hx, ih]

/-- A test that no match of `p` satisfies, before or after the change, finds what it found. -/
theorem find?_modifyFirst_other {q : α → Bool}
    (hq : ∀ x, p x = true → q x = false ∧ q (g x) = false) (l : List α) :
    (modifyFirst p g l).find? q = l.find? q := by
  induction l with
  | nil => rfl
  | cons x l ih =>
      rw [modifyFirst_cons]
      by_cases hx : p x = true
      · obtain ⟨hbefore, hafter⟩ := hq x hx
        rw [if_pos hx, List.find?_cons_of_neg (ne_true_of_eq_false hafter),
          List.find?_cons_of_neg (ne_true_of_eq_false hbefore)]
      · rw [if_neg hx, List.find?_cons, List.find?_cons, ih]

/-- With no key twice, an entry is the first with its key. -/
theorem find?_key [DecidableEq β] {key : α → β} {l : List α} (hnodup : (l.map key).Nodup) {x : α}
    (hx : x ∈ l) : l.find? (fun y => decide (key y = key x)) = some x := by
  induction l with
  | nil => cases hx
  | cons y l ih =>
      rw [List.map_cons, List.nodup_cons] at hnodup
      rcases List.mem_cons.mp hx with rfl | hrest
      · exact List.find?_cons_of_pos (decide_eq_true rfl)
      · have hother : key y ≠ key x := by
          intro heq
          apply hnodup.1
          rw [heq]
          exact List.mem_map_of_mem hrest
        rw [List.find?_cons_of_neg (by simpa using hother), ih hnodup.2 hrest]

end FirstMatch
