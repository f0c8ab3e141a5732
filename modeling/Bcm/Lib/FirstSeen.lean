import Mathlib.Data.List.Induction
import Mathlib.Data.List.Nodup

/-!
# The first few to come

Of a list, its first `bound` distinct members in the order of their first coming: what a table of
`bound` places holds that turns newcomers away when it is full.
-/

namespace FirstSeen

variable {α : Type*} [DecidableEq α] (bound : Nat)

def firstSeen (l : List α) : List α := l.eraseDups.take bound

@[simp]
theorem firstSeen_nil : firstSeen bound ([] : List α) = [] := List.take_nil

theorem length_firstSeen_le (l : List α) : (firstSeen bound l).length ≤ bound :=
  List.length_take_le bound l.eraseDups

theorem mem_of_mem_firstSeen {l : List α} {x : α} (h : x ∈ firstSeen bound l) : x ∈ l :=
  List.mem_eraseDups.mp (List.mem_of_mem_take h)

theorem eraseDups_concat (l : List α) (x : α) :
    (l ++ [x]).eraseDups = if x ∈ l then l.eraseDups else l.eraseDups ++ [x] := by
  rw [List.eraseDups_append]
  split
  case isTrue hmem => simp [List.removeAll, hmem]
  case isFalse hnew => simp [List.removeAll, hnew, List.eraseDups_cons]

theorem nodup_eraseDups (l : List α) : l.eraseDups.Nodup := by
  induction l using List.reverseRecOn with
  | nil => exact List.nodup_nil
  | append_singleton l x ih =>
      rw [eraseDups_concat]
      split
      · exact ih
      case isFalse hnew =>
        rw [← List.concat_eq_append]
        apply ih.concat
        rwa [List.mem_eraseDups]

theorem nodup_firstSeen (l : List α) : (firstSeen bound l).Nodup :=
  (nodup_eraseDups l).sublist (List.take_sublist bound _)

variable {bound} {l : List α} {x : α}

/-- As long as there is a place left, everything that came is there. -/
theorem mem_firstSeen_of_room (hroom : (firstSeen bound l).length < bound) :
    x ∈ firstSeen bound l ↔ x ∈ l := by
  have hall : firstSeen bound l = l.eraseDups := by
    apply List.take_of_length_le
    rw [firstSeen, List.length_take] at hroom
    omega
  rw [hall, List.mem_eraseDups]

theorem firstSeen_concat_of_mem (hmem : x ∈ firstSeen bound l) :
    firstSeen bound (l ++ [x]) = firstSeen bound l := by
  rw [firstSeen, eraseDups_concat, if_pos (mem_of_mem_firstSeen bound hmem), firstSeen]

theorem firstSeen_concat_of_room (hnew : x ∉ firstSeen bound l)
    (hroom : (firstSeen bound l).length < bound) :
    firstSeen bound (l ++ [x]) = firstSeen bound l ++ [x] := by
  rw [mem_firstSeen_of_room hroom] at hnew
  rw [firstSeen, List.length_take] at hroom
  rw [firstSeen, eraseDups_concat, if_neg hnew, firstSeen, List.take_of_length_le,
    List.take_of_length_le]
  · omega
  · rw [List.length_append, List.length_singleton]
    omega

theorem firstSeen_concat_of_full (hfull : bound ≤ (firstSeen bound l).length) :
    firstSeen bound (l ++ [x]) = firstSeen bound l := by
  rw [firstSeen, List.length_take] at hfull
  rw [firstSeen, eraseDups_concat]
  split
  · rfl
  · rw [List.take_append_of_le_length (by omega), firstSeen]

end FirstSeen
