import Bcm.Drivers
import Bcm.Lib.LeakyAverage
import Bcm.Lib.Runs

/-!
# The low-pass filter

The filter is a leaky accumulator of scale `2 ^ shift` in a 32-bit register. With a shift of at most
16 the accumulator of 16-bit samples stays within the register, so no operation of an update wraps
and what holds of the accumulator holds of the filter.
-/

namespace Bcm.ExpFilter

open LeakyAverage

def scale (f : ExpFilter) : Nat := 2 ^ f.shift

theorem scale_pos (f : ExpFilter) : 0 < f.scale := Nat.two_pow_pos f.shift

def feed (f : ExpFilter) (sample : BitVec 16) : ExpFilter := (f.update sample).2

@[simp]
theorem feed_shift (f : ExpFilter) (sample : BitVec 16) : (f.feed sample).shift = f.shift := by
  unfold feed update
  dsimp only
  split
  · rfl
  · rfl

@[simp]
theorem feed_scale (f : ExpFilter) (sample : BitVec 16) : (f.feed sample).scale = f.scale := by
  rw [scale, feed_shift, scale]

/-! ### The register is wide enough -/

/-- Every 32-bit operation of the update has the result it has on naturals, and the value is not
cut. -/
structure Exact (f : ExpFilter) (sample : BitVec 16) : Prop where
  seed : (sample.setWidth 32 <<< f.shift).toNat = sample.toNat * f.scale
  lost : (f.acc >>> f.shift).toNat = share f.scale f.acc.toNat
  kept : (f.acc - (f.acc >>> f.shift)).toNat = f.acc.toNat - share f.scale f.acc.toNat
  sum : (f.acc - (f.acc >>> f.shift) + sample.setWidth 32).toNat =
    step f.scale f.acc.toNat sample.toNat
  reading : f.value.toNat = share f.scale f.acc.toNat

/-- What the accumulator of 16-bit samples stays within. -/
def Narrow (f : ExpFilter) : Prop := f.acc.toNat ≤ 65535 * f.scale

theorem toNat_sample (sample : BitVec 16) : (sample.setWidth 32).toNat = sample.toNat := by
  have hlt := sample.isLt
  rw [BitVec.toNat_setWidth]
  omega

theorem sample_le (sample : BitVec 16) : sample.toNat ≤ 65535 := by
  have hlt := sample.isLt
  omega

theorem scale_le {f : ExpFilter} (hshift : f.shift ≤ 16) : f.scale ≤ 65536 :=
  Nat.pow_le_pow_right (by decide) hshift

theorem Narrow.exact {f : ExpFilter} (hshift : f.shift ≤ 16) (h : f.Narrow)
    (sample : BitVec 16) : Exact f sample := by
  have hscale := scale_le hshift
  have hlost : (f.acc >>> f.shift).toNat = share f.scale f.acc.toNat := by
    rw [BitVec.toNat_ushiftRight, Nat.shiftRight_eq_div_pow]
    rfl
  have hvalue : share f.scale f.acc.toNat ≤ 65535 := by
    have hbound : 65535 * f.scale < (65535 + 1) * f.scale :=
      Nat.mul_lt_mul_of_pos_right (by decide) f.scale_pos
    rw [share_le_iff f.scale_pos]
    exact h.trans_lt hbound
  have hle := share_le f.scale f.acc.toNat
  have hkept : (f.acc - (f.acc >>> f.shift)).toNat =
      f.acc.toNat - share f.scale f.acc.toNat := by
    rw [BitVec.toNat_sub_of_le, hlost]
    rw [BitVec.le_def, hlost]
    exact hle
  have hzero : 0 * f.scale ≤ f.acc.toNat := by
    rw [Nat.zero_mul]
    exact Nat.zero_le _
  have hwithin := (step_between f.scale_pos hzero h (Nat.zero_le _) (sample_le sample)).2
  have hroom : 65535 * f.scale < 2 ^ 32 := by omega
  constructor
  · have hseed : sample.toNat * f.scale ≤ 65535 * f.scale :=
      Nat.mul_le_mul_right _ (sample_le sample)
    rw [BitVec.toNat_shiftLeft, toNat_sample, Nat.shiftLeft_eq]
    exact Nat.mod_eq_of_lt (hseed.trans_lt hroom)
  · exact hlost
  · exact hkept
  · rw [BitVec.toNat_add, hkept, toNat_sample]
    exact Nat.mod_eq_of_lt (hwithin.trans_lt hroom)
  · rw [ExpFilter.value, BitVec.toNat_setWidth, hlost]
    omega

/-! ### The filter is the accumulator -/

theorem feed_of_primed {f : ExpFilter} (hshift : f.shift ≤ 16) (h : f.Narrow)
    (hprimed : f.primed = true) (sample : BitVec 16) :
    (f.feed sample).primed = true ∧
      (f.feed sample).acc.toNat = step f.scale f.acc.toNat sample.toNat := by
  have hexact := (h.exact hshift sample).sum
  simp [feed, update, hprimed, hexact]

theorem feed_of_unprimed {f : ExpFilter} (hshift : f.shift ≤ 16) (h : f.Narrow)
    (hprimed : f.primed = false) (sample : BitVec 16) :
    (f.feed sample).primed = true ∧ (f.feed sample).acc.toNat = sample.toNat * f.scale := by
  have hexact := (h.exact hshift sample).seed
  simp [feed, update, hprimed, hexact]

/-- The accumulator stands between the bounds, scaled. -/
structure Within (low high : Nat) (f : ExpFilter) : Prop where
  primed : f.primed = true
  ge : low * f.scale ≤ f.acc.toNat
  le : f.acc.toNat ≤ high * f.scale

namespace Within

variable {low high : Nat} {f : ExpFilter}

theorem narrow (h : Within low high f) (hhigh : high ≤ 65535) : f.Narrow :=
  h.le.trans (Nat.mul_le_mul_right f.scale hhigh)

theorem feed (h : Within low high f) (hshift : f.shift ≤ 16) (hhigh : high ≤ 65535)
    {sample : BitVec 16} (hlow : low ≤ sample.toNat) (hle : sample.toNat ≤ high) :
    Within low high (f.feed sample) := by
  obtain ⟨hprimed, hacc⟩ := feed_of_primed hshift (h.narrow hhigh) h.primed sample
  obtain ⟨hge', hle'⟩ := step_between f.scale_pos h.ge h.le hlow hle
  refine ⟨hprimed, ?_, ?_⟩
  · rw [feed_scale, hacc]
    exact hge'
  · rw [feed_scale, hacc]
    exact hle'

theorem value_between (h : Within low high f) (hshift : f.shift ≤ 16) (hhigh : high ≤ 65535) :
    low ≤ f.value.toNat ∧ f.value.toNat ≤ high := by
  rw [((h.narrow hhigh).exact hshift 0).reading]
  constructor
  · exact (le_share_iff f.scale_pos).mpr h.ge
  · rw [share_le_iff f.scale_pos, Nat.add_mul, Nat.one_mul]
    have hpos := f.scale_pos
    have hle := h.le
    omega

end Within

section Run

variable {f : ExpFilter}

theorem narrow_reset (f : ExpFilter) : f.reset.Narrow := Nat.zero_le _

theorem shift_run (f : ExpFilter) (samples : List (BitVec 16)) :
    (Runs.run feed f samples).shift = f.shift := by
  induction samples generalizing f with
  | nil => rfl
  | cons sample samples ih => rw [Runs.run_cons, ih, feed_shift]

/-- The first sample seeds the filter, and the others keep it between their bounds. -/
theorem within_run (hshift : f.shift ≤ 16) {samples : List (BitVec 16)} (hsome : samples ≠ [])
    {low high : Nat} (hhigh : high ≤ 65535)
    (hsamples : ∀ sample ∈ samples, low ≤ sample.toNat ∧ sample.toNat ≤ high) :
    Within low high (Runs.run feed f.reset samples) := by
  induction samples using List.reverseRecOn with
  | nil => exact absurd rfl hsome
  | append_singleton samples sample ih =>
      obtain ⟨hlow, hle⟩ := hsamples sample (by simp)
      rw [Runs.run_concat]
      cases samples with
      | nil =>
          have hreset : f.reset.shift ≤ 16 := hshift
          obtain ⟨hprimed, hacc⟩ := feed_of_unprimed hreset f.narrow_reset rfl sample
          refine ⟨hprimed, ?_, ?_⟩
          · rw [feed_scale, Runs.run_nil, hacc]
            exact Nat.mul_le_mul_right _ hlow
          · rw [feed_scale, Runs.run_nil, hacc]
            exact Nat.mul_le_mul_right _ hle
      | cons first rest =>
          have hbefore := ih (by simp) fun sample hsample =>
            hsamples sample (List.mem_append_left _ hsample)
          have hshift' : (Runs.run feed f.reset (first :: rest)).shift ≤ 16 := by
            rw [shift_run]
            exact hshift
          exact hbefore.feed hshift' hhigh hlow hle

theorem narrow_run (hshift : f.shift ≤ 16) (samples : List (BitVec 16)) :
    (Runs.run feed f.reset samples).Narrow := by
  by_cases hsome : samples = []
  · rw [hsome]
    exact f.narrow_reset
  · have hwithin : Within 0 65535 (Runs.run feed f.reset samples) :=
      within_run hshift hsome (Nat.le_refl _) fun sample _ => ⟨Nat.zero_le _, sample_le sample⟩
    exact hwithin.narrow (Nat.le_refl _)

theorem value_run_between (hshift : f.shift ≤ 16) {samples : List (BitVec 16)}
    (hsome : samples ≠ []) {low high : Nat}
    (hsamples : ∀ sample ∈ samples, low ≤ sample.toNat ∧ sample.toNat ≤ high) :
    low ≤ (Runs.run feed f.reset samples).value.toNat ∧
      (Runs.run feed f.reset samples).value.toNat ≤ high := by
  have hshift' : (Runs.run feed f.reset samples).shift ≤ 16 := by
    rw [shift_run]
    exact hshift
  have hwithin : Within low (min high 65535) (Runs.run feed f.reset samples) := by
    apply within_run hshift hsome (Nat.min_le_right _ _)
    intro sample hsample
    obtain ⟨hlow, hle⟩ := hsamples sample hsample
    exact ⟨hlow, Nat.le_min.mpr ⟨hle, sample_le sample⟩⟩
  obtain ⟨hlow, hle⟩ := hwithin.value_between hshift' (Nat.min_le_right _ _)
  exact ⟨hlow, hle.trans (Nat.min_le_left _ _)⟩

def readAll (a : AnalogInput) (readings : List (BitVec 16)) : AnalogInput :=
  Runs.run (fun a reading => (a.sample reading).2) a readings

/-- A channel only passes its readings on to its filter. -/
theorem filter_readAll (a : AnalogInput) (readings : List (BitVec 16)) :
    (readAll a readings).filter = Runs.run feed a.filter readings := by
  induction readings using List.reverseRecOn with
  | nil => rfl
  | append_singleton readings reading ih =>
      rw [readAll, Runs.run_concat, Runs.run_concat, ← ih]
      rfl

theorem permille_le {value : BitVec 16} (h : value.toNat ≤ 4095) :
    (BitVec.ofNat 16 (value.toNat * 1000 / AnalogInput.fullScale)).toNat ≤ 1000 := by
  have hdiv : value.toNat * 1000 / 4095 ≤ 1000 := by omega
  rw [BitVec.toNat_ofNat, AnalogInput.fullScale]
  exact (Nat.mod_le _ _).trans hdiv

/-- **The filter stays within its inputs and nothing wraps.** For any samples since construction or
reset, the last of which is `sample`. -/
theorem run_between (hshift : f.shift ≤ 16) (samples : List (BitVec 16)) (sample : BitVec 16) :
    Exact (Runs.run feed f.reset samples) sample ∧
      (∀ low high, (∀ s ∈ samples ++ [sample], low ≤ s.toNat ∧ s.toNat ≤ high) →
        low ≤ (Runs.run feed f.reset (samples ++ [sample])).value.toNat ∧
          (Runs.run feed f.reset (samples ++ [sample])).value.toNat ≤ high) ∧
      ((∀ s ∈ samples ++ [sample], s.toNat ≤ AnalogInput.fullScale) → ∀ channel,
        (readAll (AnalogInput.reset ⟨channel, f⟩) (samples ++ [sample])).permille.toNat ≤ 1000) := by
  have hsome : samples ++ [sample] ≠ [] := by simp
  refine ⟨?_, ?_, ?_⟩
  · apply (narrow_run hshift samples).exact
    rw [shift_run]
    exact hshift
  · exact fun low high hsamples => value_run_between hshift hsome hsamples
  · intro hsamples channel
    have hvalue := value_run_between hshift hsome fun s hs => ⟨Nat.zero_le _, hsamples s hs⟩
    rw [AnalogInput.permille, filter_readAll]
    exact permille_le hvalue.2

theorem run_between_spike :
    Exact (Runs.run feed (new 3).reset [1000, 1000, 4095]) 1000 ∧
      ∃ value, value = (Runs.run feed (new 3).reset ([1000, 1000, 4095] ++ [1000])).value ∧
        1000 ≤ value.toNat ∧ value.toNat ≤ 4095 := by
  have hshift : (new 3).shift ≤ 16 := by decide
  have hsamples : ∀ s ∈ [1000, 1000, 4095] ++ [(1000 : BitVec 16)],
      1000 ≤ s.toNat ∧ s.toNat ≤ 4095 := by simp
  obtain ⟨hexact, hbetween, -⟩ := run_between hshift [1000, 1000, 4095] 1000
  exact ⟨hexact, _, rfl, hbetween _ _ hsamples⟩

/-! ### A steady input -/

/-- The filter after some updates with one sample. -/
def hold (sample : BitVec 16) (f : ExpFilter) (count : Nat) : ExpFilter :=
  (feed · sample)^[count] f

theorem hold_succ (sample : BitVec 16) (f : ExpFilter) (count : Nat) :
    hold sample f (count + 1) = (hold sample f count).feed sample :=
  Function.iterate_succ_apply' ..

theorem hold_eq (hshift : f.shift ≤ 16) (h : Within 0 65535 f) (sample : BitVec 16)
    (count : Nat) :
    (hold sample f count).shift = f.shift ∧ Within 0 65535 (hold sample f count) ∧
      (hold sample f count).acc.toNat = after f.scale sample.toNat f.acc.toNat count := by
  induction count with
  | zero => exact ⟨rfl, h, rfl⟩
  | succ count ih =>
      obtain ⟨hsame, hwithin, hacc⟩ := ih
      have hshift' : (hold sample f count).shift ≤ 16 := hsame ▸ hshift
      have hnarrow := hwithin.narrow (Nat.le_refl _)
      have hnext := (feed_of_primed hshift' hnarrow hwithin.primed sample).2
      have hscale : (hold sample f count).scale = f.scale := congrArg (2 ^ ·) hsame
      rw [hold_succ]
      refine ⟨by rw [feed_shift, hsame], ?_, ?_⟩
      · exact hwithin.feed hshift' (Nat.le_refl _) (Nat.zero_le _) (sample_le sample)
      · rw [hnext, hscale, hacc, after_succ]

theorem value_hold (hshift : f.shift ≤ 16) (h : Within 0 65535 f) (sample : BitVec 16)
    (count : Nat) :
    (hold sample f count).value.toNat =
      share f.scale (after f.scale sample.toNat f.acc.toNat count) := by
  obtain ⟨hsame, hwithin, hacc⟩ := hold_eq hshift h sample count
  have hshift' : (hold sample f count).shift ≤ 16 := hsame ▸ hshift
  have hscale : (hold sample f count).scale = f.scale := congrArg (2 ^ ·) hsame
  rw [((hwithin.narrow (Nat.le_refl _)).exact hshift' 0).reading, hscale, hacc]

/-- **The filter settles exactly.** From any state that samples lead to, each update with one sample
moves the value towards it and not past it, and after finitely many it is there for good. -/
theorem hold_settles (hshift : f.shift ≤ 16) {samples : List (BitVec 16)} (hsome : samples ≠ [])
    (sample : BitVec 16) :
    (∀ count,
        let value := (hold sample (Runs.run feed f.reset samples) count).value
        let next := (hold sample (Runs.run feed f.reset samples) (count + 1)).value
        (value ≤ next ∧ next ≤ sample) ∨ (sample ≤ next ∧ next ≤ value)) ∧
      ∃ count, ∀ later, count ≤ later →
        (hold sample (Runs.run feed f.reset samples) later).value = sample := by
  have hshift' : (Runs.run feed f.reset samples).shift ≤ 16 := by
    rw [shift_run]
    exact hshift
  have hwithin : Within 0 65535 (Runs.run feed f.reset samples) :=
    within_run hshift hsome (Nat.le_refl _) fun sample _ => ⟨Nat.zero_le _, sample_le sample⟩
  have hvalue := value_hold hshift' hwithin sample
  constructor
  · intro count
    dsimp only
    rw [BitVec.le_def, BitVec.le_def, BitVec.le_def, BitVec.le_def, hvalue, hvalue, after_succ]
    exact step_towards (scale_pos _) _ _
  · obtain ⟨count, hsettled⟩ := exists_settled (scale_pos (Runs.run feed f.reset samples))
      (Runs.run feed f.reset samples).acc.toNat sample.toNat
    refine ⟨count, fun later hlater => ?_⟩
    apply BitVec.eq_of_toNat_eq
    rw [hvalue, hsettled later hlater]

/-- A step from 1000 up to 3000. -/
theorem hold_settles_up :
    ∃ count, ∀ later, count ≤ later →
      (hold 3000 (Runs.run feed (new 3).reset [1000]) later).value = 3000 := by
  have hshift : (new 3).shift ≤ 16 := by decide
  have hsome : [(1000 : BitVec 16)] ≠ [] := by simp
  exact (hold_settles hshift hsome 3000).2

end Run

end Bcm.ExpFilter
