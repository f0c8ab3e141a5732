import Mathlib.Data.List.Basic
import Mathlib.Data.Nat.ModEq

/-!
# Windows of a ring

A ring of `n` cells holds a queue in the `count` cells from `start` on, wrapping past the last. What
such a window holds, and what a write and a move of either end do to it.
-/

namespace Ring

variable {α : Type*} {n : Nat} (hn : 0 < n)

/-- The cell `i` places from the beginning of the array, round and round. -/
def cell (cells : Vector α n) (i : Nat) : α :=
  cells.get ⟨i % n, Nat.mod_lt i hn⟩

/-- The `count` cells from `start` on. -/
def window (cells : Vector α n) (start count : Nat) : List α :=
  (List.range count).map fun i => cell hn cells (start + i)

theorem getElem?_mod (cells : Vector α n) (i : Nat) : cells[i % n]? = some (cell hn cells i) :=
  Vector.getElem?_eq_getElem (Nat.mod_lt i hn)

theorem get_eq_cell (cells : Vector α n) {i : Nat} (hi : i < n) :
    cells.get ⟨i, hi⟩ = cell hn cells i := by
  unfold cell
  congr 2
  exact (Nat.mod_eq_of_lt hi).symm

theorem cell_congr {i j : Nat} (cells : Vector α n) (h : i % n = j % n) :
    cell hn cells i = cell hn cells j := by
  unfold cell
  congr 2

theorem cell_set_self (cells : Vector α n) {i j : Nat} (hj : j < n) (h : i % n = j) (x : α) :
    cell hn (cells.set j x hj) i = x := by
  subst h
  exact Vector.getElem_set_self hj

theorem cell_set_of_ne (cells : Vector α n) {i j : Nat} (hj : j < n) (h : i % n ≠ j) (x : α) :
    cell hn (cells.set j x hj) i = cell hn cells i :=
  Vector.getElem_set_ne hj (Nat.mod_lt i hn) (Ne.symm h)

@[simp]
theorem length_window (cells : Vector α n) (start count : Nat) :
    (window hn cells start count).length = count := by
  simp [window]

@[simp]
theorem window_zero (cells : Vector α n) (start : Nat) : window hn cells start 0 = [] := rfl

/-- Growing at the end. -/
theorem window_succ (cells : Vector α n) (start count : Nat) :
    window hn cells start (count + 1) =
      window hn cells start count ++ [cell hn cells (start + count)] := by
  simp [window, List.range_succ]

/-- Shrinking at the beginning. -/
theorem window_succ_eq_cons (cells : Vector α n) (start count : Nat) :
    window hn cells start (count + 1) =
      cell hn cells start :: window hn cells (start + 1) count := by
  unfold window
  rw [List.range_succ_eq_map, List.map_cons, List.map_map, Nat.add_zero]
  congr 1
  apply List.map_congr_left
  intro i _
  exact congrArg (cell hn cells) (by simp only [Nat.succ_eq_add_one]; omega)

theorem window_of_ne_zero (cells : Vector α n) (start : Nat) {count : Nat} (h : count ≠ 0) :
    window hn cells start count =
      cell hn cells start :: window hn cells (start + 1) (count - 1) := by
  obtain ⟨less, rfl⟩ := Nat.exists_eq_succ_of_ne_zero h
  exact window_succ_eq_cons hn cells start less

theorem window_congr {start start' : Nat} (cells : Vector α n) (h : start % n = start' % n)
    (count : Nat) : window hn cells start count = window hn cells start' count := by
  apply List.map_congr_left
  intro i _
  apply cell_congr
  rw [Nat.add_mod, h, ← Nat.add_mod]

theorem window_append (cells : Vector α n) (start front back : Nat) :
    window hn cells start (front + back) =
      window hn cells start front ++ window hn cells (start + front) back := by
  induction back with
  | zero => simp
  | succ back ih =>
      rw [← Nat.add_assoc, window_succ, ih, window_succ, List.append_assoc, Nat.add_assoc]

/-- A write outside the window does not show in it. -/
theorem window_set_of_outside (cells : Vector α n) {start count j : Nat} (hj : j < n)
    (h : ∀ i < count, (start + i) % n ≠ j) (x : α) :
    window hn (cells.set j x hj) start count = window hn cells start count := by
  apply List.map_congr_left
  intro i hi
  exact cell_set_of_ne hn cells hj (h i (List.mem_range.mp hi)) x

/-- Nor does one right behind a window that leaves a cell free. -/
theorem window_set_behind (cells : Vector α n) {start count j : Nat} (hj : j < n)
    (hbehind : j = (start + count) % n) (hroom : count < n) (x : α) :
    window hn (cells.set j x hj) start count = window hn cells start count := by
  apply window_set_of_outside
  intro i hi heq
  -- two places less than a turn apart are different cells
  have hmod : i % n = count % n := Nat.ModEq.add_left_cancel' start (heq.trans hbehind)
  rw [Nat.mod_eq_of_lt (hi.trans hroom), Nat.mod_eq_of_lt hroom] at hmod
  omega

/-- It makes the window longer. -/
theorem window_push (cells : Vector α n) {start count j : Nat} (hj : j < n)
    (hbehind : j = (start + count) % n) (hroom : count < n) (x : α) :
    window hn (cells.set j x hj) start (count + 1) = window hn cells start count ++ [x] := by
  rw [window_succ, cell_set_self hn cells hj hbehind.symm, window_set_behind hn cells hj hbehind hroom]

theorem cell_set_behind (cells : Vector α n) {start count j : Nat} (hj : j < n)
    (hbehind : j = (start + count) % n) (hroom : count < n) (hsome : count ≠ 0) (x : α) :
    cell hn (cells.set j x hj) start = cell hn cells start := by
  have hwindow := window_set_behind hn cells hj hbehind hroom x
  rw [window_of_ne_zero hn _ _ hsome, window_of_ne_zero hn _ _ hsome] at hwindow
  exact (List.cons.inj hwindow).1

end Ring
