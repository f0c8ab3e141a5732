import Bcm.Lib.Ring
import Bcm.Records

/-!
# The event log is a queue

The records in the ring, oldest first. A write appends one and drops the oldest of a full log, and a
read takes the oldest.
-/

namespace Bcm.Logger

/-- The place of the oldest record, some turns of the ring further on. -/
def oldest (l : Logger) : Nat := l.head.val + 32 - l.count

theorem capacity_pos : 0 < 32 := Nat.succ_pos 31

/-- The records a reader has yet to take, oldest first. -/
def contents (l : Logger) : List LogRecord := Ring.window capacity_pos l.records l.oldest l.count

@[simp]
theorem length_contents (l : Logger) : l.contents.length = l.count :=
  Ring.length_window _ l.records l.oldest l.count

@[simp]
theorem contents_new : new.contents = [] := rfl

@[simp]
theorem contents_clear (l : Logger) : l.clear.contents = [] := rfl

theorem head_succ (l : Logger) : (l.head + 1).val = (l.head.val + 1) % 32 := by
  rw [Fin.val_add]
  rfl

/-- A write appends, and only the newest 32 records stay. -/
theorem contents_log (l : Logger) {event : LogEvent} (h : event ≠ .none) (timestampMs arg : Nat) :
    (l.log timestampMs event arg).contents =
      (l.contents ++ [LogRecord.mk timestampMs event arg]).drop (l.count + 1 - 32) := by
  have hhead : l.head.val < 32 := l.head.isLt
  have hcount : l.count ≤ 32 := l.count_le
  unfold log
  rw [if_neg h]
  dsimp only
  split
  case isTrue hroom =>
    have hdrop : l.count + 1 - 32 = 0 := by omega
    have hplace : (l.oldest + l.count) % 32 = l.head.val := by
      unfold oldest
      omega
    have holdest : ((l.head + 1).val + 32 - (l.count + 1)) % 32 = l.oldest % 32 := by
      rw [head_succ]
      unfold oldest
      omega
    rw [hdrop, List.drop_zero, contents, oldest]
    rw [Ring.window_congr _ _ holdest, Ring.window_succ, Ring.cell_set_self _ _ hhead hplace]
    rw [Ring.window_set_of_outside _ _ hhead]
    · rfl
    · intro i hi
      unfold oldest
      omega
  case isFalse hfull =>
    have hcap : l.count = 31 + 1 := by omega
    have hdrop : l.count + 1 - 32 = 1 := by omega
    have hplace : (l.oldest + 1 + 31) % 32 = l.head.val := by
      unfold oldest
      omega
    have holdest : ((l.head + 1).val + 32 - l.count) % 32 = (l.oldest + 1) % 32 := by
      rw [head_succ]
      unfold oldest
      omega
    rw [hdrop, contents, oldest, contents]
    rw [Ring.window_congr _ _ holdest]
    dsimp only
    rw [hcap, Ring.window_succ, Ring.cell_set_self _ _ hhead hplace]
    rw [Ring.window_set_of_outside _ _ hhead, Ring.window_succ_eq_cons]
    · rfl
    · intro i hi
      unfold oldest
      omega

theorem log_none (l : Logger) (timestampMs arg : Nat) : l.log timestampMs .none arg = l := by
  rw [log, if_pos rfl]

theorem pop_contents (l : Logger) :
    l.pop.1 = l.contents.head? ∧ l.pop.2.contents = l.contents.tail := by
  unfold pop
  split
  case isTrue hempty =>
    have hnil : l.contents = [] := List.length_eq_zero_iff.mp (by rw [length_contents, hempty])
    rw [hnil]
    exact ⟨rfl, rfl⟩
  case isFalse hsome =>
    have hbound := l.count_le
    rw [contents, Ring.window_of_ne_zero capacity_pos l.records l.oldest hsome]
    refine ⟨Ring.getElem?_mod _ l.records l.oldest, ?_⟩
    rw [List.tail_cons, contents, oldest]
    dsimp only
    apply Ring.window_congr
    unfold oldest
    omega

end Bcm.Logger
