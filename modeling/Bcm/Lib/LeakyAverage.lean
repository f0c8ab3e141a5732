import Mathlib.Algebra.Order.Ring.Nat
import Mathlib.Logic.Function.Iterate

/-!
# A leaky accumulator

An accumulator that at each step loses its share, the `scale`-th part rounded down, and takes in a
sample. The share is also its reading. In naturals nothing wraps.

What is kept is monotone in the accumulator, so the share stays within any bounds on the samples.
Under one sample again and again it settles exactly: while the share is not the sample, the
accumulator moves towards it by at least one, and it cannot jump over.
-/

namespace LeakyAverage

variable {scale : Nat}

def share (scale acc : Nat) : Nat := acc / scale

def step (scale : Nat) (acc sample : Nat) : Nat := acc - share scale acc + sample

theorem share_le (scale acc : Nat) : share scale acc ≤ acc := Nat.div_le_self acc scale

theorem le_share_iff (hscale : 0 < scale) {bound acc : Nat} :
    bound ≤ share scale acc ↔ bound * scale ≤ acc := Nat.le_div_iff_mul_le hscale

theorem share_le_iff (hscale : 0 < scale) {bound acc : Nat} :
    share scale acc ≤ bound ↔ acc < (bound + 1) * scale := by
  rw [← Nat.lt_add_one_iff, share, Nat.div_lt_iff_lt_mul hscale]

theorem kept_mono (hscale : 0 < scale) {acc acc' : Nat} (hle : acc ≤ acc') :
    acc - share scale acc ≤ acc' - share scale acc' := by
  have hgain : share scale acc' ≤ share scale acc + (acc' - acc) := by
    have hfloor : acc < (share scale acc + 1) * scale := (share_le_iff hscale).mp (Nat.le_refl _)
    have hrest : acc' - acc ≤ (acc' - acc) * scale := Nat.le_mul_of_pos_right _ hscale
    have hsum : (share scale acc + (acc' - acc) + 1) * scale =
        (share scale acc + 1) * scale + (acc' - acc) * scale := by
      rw [← Nat.add_mul]
      congr 1
      omega
    rw [share_le_iff hscale, hsum]
    omega
  have hle' := share_le scale acc
  omega

theorem kept_mul (hscale : 0 < scale) (bound : Nat) :
    bound * scale - share scale (bound * scale) = bound * scale - bound := by
  rw [share, Nat.mul_div_cancel _ hscale]

/-- **Bounds on the samples bound the share.** -/
theorem step_between (hscale : 0 < scale) {low high acc sample : Nat}
    (hlow : low * scale ≤ acc) (hhigh : acc ≤ high * scale) (hsample : low ≤ sample)
    (hsample' : sample ≤ high) :
    low * scale ≤ step scale acc sample ∧ step scale acc sample ≤ high * scale := by
  have hkept := kept_mono hscale hlow
  have hkept' := kept_mono hscale hhigh
  rw [kept_mul hscale] at hkept hkept'
  have hle : low ≤ low * scale := Nat.le_mul_of_pos_right low hscale
  have hle' : high ≤ high * scale := Nat.le_mul_of_pos_right high hscale
  unfold step
  omega

/-! ### Under one sample -/

variable {acc sample : Nat}

theorem step_of_eq (h : share scale acc = sample) : step scale acc sample = acc := by
  have hle := share_le scale acc
  unfold step
  omega

/-- From above it comes down, and not below the sample. -/
theorem step_of_gt (hscale : 0 < scale) (h : sample < share scale acc) :
    step scale acc sample < acc ∧ sample ≤ share scale (step scale acc sample) := by
  have habove : (sample + 1) * scale ≤ acc := (le_share_iff hscale).mp h
  have hkept := kept_mono hscale habove
  rw [kept_mul hscale, Nat.add_mul, Nat.one_mul] at hkept
  have hle := share_le scale acc
  have hself : sample ≤ sample * scale := Nat.le_mul_of_pos_right sample hscale
  constructor
  · unfold step
    omega
  · rw [le_share_iff hscale]
    unfold step
    omega

/-- From below it comes up, and not above the sample. -/
theorem step_of_lt (hscale : 0 < scale) (h : share scale acc < sample) :
    acc < step scale acc sample ∧ share scale (step scale acc sample) ≤ sample := by
  have hbelow : acc < sample * scale := by
    rw [← Nat.not_le, ← le_share_iff hscale]
    omega
  have hkept := kept_mono hscale hbelow.le
  rw [kept_mul hscale] at hkept
  have hle := share_le scale acc
  have hself : sample ≤ sample * scale := Nat.le_mul_of_pos_right sample hscale
  constructor
  · unfold step
    omega
  · rw [share_le_iff hscale, Nat.add_mul, Nat.one_mul]
    unfold step
    omega

/-- **Every step moves the share towards the sample**, and none past it. -/
theorem step_towards (hscale : 0 < scale) (acc sample : Nat) :
    (share scale acc ≤ share scale (step scale acc sample) ∧
        share scale (step scale acc sample) ≤ sample) ∨
      (sample ≤ share scale (step scale acc sample) ∧
        share scale (step scale acc sample) ≤ share scale acc) := by
  rcases Nat.lt_trichotomy (share scale acc) sample with hlt | heq | hgt
  · obtain ⟨hup, hnot⟩ := step_of_lt hscale hlt
    exact Or.inl ⟨Nat.div_le_div_right hup.le, hnot⟩
  · rw [step_of_eq heq, heq]
    exact Or.inl ⟨Nat.le_refl _, Nat.le_refl _⟩
  · obtain ⟨hdown, hnot⟩ := step_of_gt hscale hgt
    exact Or.inr ⟨hnot, Nat.div_le_div_right hdown.le⟩

/-- How far the accumulator is from those of which the sample is the share. -/
def distance (scale acc sample : Nat) : Nat :=
  (sample * scale - acc) + (acc + 1 - (sample + 1) * scale)

theorem distance_step_lt (hscale : 0 < scale) (h : share scale acc ≠ sample) :
    distance scale (step scale acc sample) sample < distance scale acc sample := by
  have hgap : sample * scale < (sample + 1) * scale :=
    Nat.mul_lt_mul_of_pos_right (Nat.lt_add_one sample) hscale
  rcases Nat.lt_or_gt_of_ne h with hlt | hgt
  · obtain ⟨hup, hnot⟩ := step_of_lt hscale hlt
    have hbelow : acc < sample * scale := by
      rw [← Nat.not_le, ← le_share_iff hscale]
      omega
    have hwithin := (share_le_iff hscale).mp hnot
    unfold distance
    omega
  · obtain ⟨hdown, hnot⟩ := step_of_gt hscale hgt
    have habove : (sample + 1) * scale ≤ acc := (le_share_iff hscale).mp hgt
    have hwithin := (le_share_iff hscale).mp hnot
    unfold distance
    omega

/-- The accumulator after some steps under the sample. -/
def after (scale sample acc count : Nat) : Nat := (step scale · sample)^[count] acc

theorem after_succ (scale sample acc count : Nat) :
    after scale sample acc (count + 1) = step scale (after scale sample acc count) sample :=
  Function.iterate_succ_apply' ..

theorem after_of_eq (h : share scale acc = sample) (count : Nat) :
    after scale sample acc count = acc := by
  have hfixed : (step scale · sample) acc = acc := step_of_eq h
  exact Function.iterate_fixed hfixed count

/-- **It settles exactly**, since every step before it does lowers the distance. -/
theorem exists_settled (hscale : 0 < scale) (acc sample : Nat) :
    ∃ count, ∀ later, count ≤ later → share scale (after scale sample acc later) = sample := by
  induction hdistance : distance scale acc sample using Nat.strong_induction_on
    generalizing acc with
  | _ far ih =>
      by_cases hthere : share scale acc = sample
      · refine ⟨0, fun later _ => ?_⟩
        rw [after_of_eq hthere, hthere]
      · have hnearer := distance_step_lt hscale hthere
        rw [hdistance] at hnearer
        obtain ⟨count, hsettled⟩ := ih _ hnearer (step scale acc sample) rfl
        refine ⟨count + 1, fun later hlater => ?_⟩
        obtain ⟨more, rfl⟩ := Nat.exists_eq_add_of_lt (Nat.lt_of_succ_le hlater)
        exact hsettled (count + more) (Nat.le_add_right count more)

end LeakyAverage
