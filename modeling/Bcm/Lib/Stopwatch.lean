import Mathlib.Algebra.BigOperators.Group.List.Basic
import Mathlib.Algebra.GroupWithZero.Nat
import Mathlib.Data.List.Basic
import Mathlib.Data.List.Induction

/-!
# A stopwatch that wraps

A stopwatch adds up times and shows their sum modulo its width. It rings the first time it shows the
bound or more. If the sum stays within the width, it rings just when the sum has come to the bound;
one long time that steps over the rest of the width keeps it silent.

A stopwatch that starts again whenever a flag goes down shows how long the flag has been up.
-/

namespace Stopwatch

/-- The stopwatch has rung, after one of the times. -/
def Rung (width bound : Nat) (times : List Nat) : Prop :=
  ∃ front, front <+: times ∧ front ≠ [] ∧ bound ≤ front.sum % width

variable {width bound : Nat} {times : List Nat}

theorem not_rung_nil : ¬Rung width bound [] := by
  rintro ⟨front, hfront, hsome, -⟩
  exact hsome (List.prefix_nil.mp hfront)

theorem Rung.ne_nil (h : Rung width bound times) : times ≠ [] := by
  rintro rfl
  exact not_rung_nil h

theorem shown_concat (width : Nat) (times : List Nat) (time : Nat) :
    (times ++ [time]).sum % width = (times.sum % width + time) % width := by
  rw [List.sum_append, List.sum_singleton, Nat.mod_add_mod]

theorem rung_concat (time : Nat) :
    Rung width bound (times ++ [time]) ↔
      Rung width bound times ∨ bound ≤ (times.sum % width + time) % width := by
  rw [← shown_concat]
  constructor
  · rintro ⟨front, hfront, hsome, hbound⟩
    rcases List.prefix_concat_iff.mp hfront with rfl | hbefore
    · exact Or.inr hbound
    · exact Or.inl ⟨front, hbefore, hsome, hbound⟩
  · rintro (⟨front, hfront, hsome, hbound⟩ | hlast)
    · exact ⟨front, hfront.trans (List.prefix_append times [time]), hsome, hbound⟩
    · exact ⟨times ++ [time], List.prefix_refl _, by simp, hlast⟩

/-- It does not ring too early. -/
theorem not_rung_of_sum_lt (h : times.sum < bound) : ¬Rung width bound times := by
  rintro ⟨front, ⟨rest, rfl⟩, -, hbound⟩
  rw [List.sum_append] at h
  have hshown : front.sum % width ≤ front.sum := Nat.mod_le _ _
  omega

/-! ### Entries that take time -/

section Total

variable {α : Type*} (time : α → Nat)

/-- The time of all the entries together. -/
def total (entries : List α) : Nat := (entries.map time).sum

@[simp]
theorem total_nil : total time [] = 0 := rfl

@[simp]
theorem total_cons (entry : α) (entries : List α) :
    total time (entry :: entries) = time entry + total time entries := by
  rw [total, List.map_cons, List.sum_cons, total]

@[simp]
theorem total_append (front back : List α) :
    total time (front ++ back) = total time front + total time back := by
  rw [total, List.map_append, List.sum_append, total, total]

/-- The first entry with which the times come to a bound. -/
theorem exists_crossing {bound : Nat} (hbound : 0 < bound) {entries : List α}
    (h : bound ≤ total time entries) :
    ∃ front entry back, entries = front ++ entry :: back ∧ total time front < bound ∧
      bound ≤ total time front + time entry := by
  induction entries using List.reverseRecOn with
  | nil =>
      rw [total_nil] at h
      omega
  | append_singleton entries entry ih =>
      by_cases hbefore : bound ≤ total time entries
      · obtain ⟨front, first, back, rfl, hfront, hfirst⟩ := ih hbefore
        exact ⟨front, first, back ++ [entry], by simp, hfront, hfirst⟩
      · refine ⟨entries, entry, [], rfl, by omega, ?_⟩
        rwa [total_append, total_cons, total_nil, Nat.add_zero] at h

end Total

/-! ### Stretches of a flag

Records of a flag, each with the time up to it. A stretch is a part of the records in which the flag
is up in every one. -/

section Stretch

variable {bound : Nat}

/-- The time since the flag was last down. -/
def heldFor (records : List (Nat × Bool)) : Nat :=
  records.foldl (fun held r => if r.2 then held + r.1 else 0) 0

@[simp]
theorem heldFor_nil : heldFor [] = 0 := rfl

@[simp]
theorem heldFor_concat (records : List (Nat × Bool)) (time : Nat) (flag : Bool) :
    heldFor (records ++ [(time, flag)]) = if flag then heldFor records + time else 0 := by
  rw [heldFor, List.foldl_append]
  rfl

/-- No stretch takes longer than the bound. -/
def StretchesWithin (bound : Nat) (records : List (Nat × Bool)) : Prop :=
  ∀ stretch, stretch <:+: records → (∀ r ∈ stretch, r.2 = true) → total Prod.fst stretch ≤ bound

theorem total_le_heldFor (front : List (Nat × Bool)) {stretch : List (Nat × Bool)}
    (hstretch : ∀ r ∈ stretch, r.2 = true) :
    total Prod.fst stretch ≤ heldFor (front ++ stretch) := by
  induction stretch using List.reverseRecOn with
  | nil => exact Nat.zero_le _
  | append_singleton stretch r ih =>
      obtain ⟨time, flag⟩ := r
      have hflag : flag = true := hstretch (time, flag) (by simp)
      have hbefore := ih fun r hr => hstretch r (List.mem_append_left _ hr)
      rw [← List.append_assoc, heldFor_concat, if_pos hflag, total_append, total_cons, total_nil]
      omega

/-- The time since the flag was last down is that of the stretch at the end. -/
theorem exists_stretch (records : List (Nat × Bool)) :
    ∃ stretch, stretch <:+ records ∧ (∀ r ∈ stretch, r.2 = true) ∧
      total Prod.fst stretch = heldFor records := by
  induction records using List.reverseRecOn with
  | nil => exact ⟨[], List.suffix_refl [], by simp, rfl⟩
  | append_singleton records r ih =>
      obtain ⟨time, flag⟩ := r
      cases flag with
      | false => exact ⟨[], List.nil_suffix, by simp, by simp⟩
      | true =>
          obtain ⟨stretch, ⟨front, hfront⟩, hstretch, htotal⟩ := ih
          refine ⟨stretch ++ [(time, true)], ⟨front, ?_⟩, ?_, ?_⟩
          · rw [← List.append_assoc, hfront]
          · intro r hr
            rcases List.mem_append.mp hr with hbefore | hlast
            · exact hstretch r hbefore
            · rw [List.mem_singleton.mp hlast]
          · rw [total_append, total_cons, total_nil, htotal, heldFor_concat, if_pos rfl]
            omega

/-- To bound every stretch, bound the one at the end of every front part. -/
theorem stretchesWithin_iff (bound : Nat) (records : List (Nat × Bool)) :
    StretchesWithin bound records ↔ ∀ front, front <+: records → heldFor front ≤ bound := by
  constructor
  · intro hwithin front hfront
    obtain ⟨stretch, hsuffix, hstretch, htotal⟩ := exists_stretch front
    rw [← htotal]
    exact hwithin stretch (hsuffix.isInfix.trans hfront.isInfix) hstretch
  · rintro hfronts stretch ⟨front, back, rfl⟩ hstretch
    calc total Prod.fst stretch ≤ heldFor (front ++ stretch) := total_le_heldFor front hstretch
      _ ≤ bound := hfronts (front ++ stretch) (List.prefix_append _ back)

theorem stretchesWithin_concat (bound : Nat) (records : List (Nat × Bool)) (time : Nat)
    (flag : Bool) :
    StretchesWithin bound (records ++ [(time, flag)]) ↔
      StretchesWithin bound records ∧ (flag = true → heldFor records + time ≤ bound) := by
  rw [stretchesWithin_iff, stretchesWithin_iff]
  constructor
  · intro hfronts
    refine ⟨fun front hfront => hfronts front (hfront.trans (List.prefix_append records _)), ?_⟩
    rintro rfl
    simpa using hfronts _ (List.prefix_refl _)
  · rintro ⟨hfronts, hlast⟩ front hfront
    rcases List.prefix_concat_iff.mp hfront with rfl | hbefore
    · cases flag with
      | true => simpa using hlast rfl
      | false => simp
    · exact hfronts front hbefore

end Stretch

end Stopwatch
