import Bcm.Lib.Transducer
import Bcm.Records

/-!
# How many chirps sound

A chirp is a run of calls that answer true, and the gap after it a run that answers false. A call
ends at most one phase, however long it is, so no chirp and no gap is passed over. Only the first
chirp could be: it starts before the first call, which must not be as long as the chirp.
-/

namespace Bcm.HornMgr

open Transducer

def tick (cfg : Config) (h : HornMgr) (dtMs : Nat) : HornMgr × Bool :=
  (h.update cfg dtMs, (h.update cfg dtMs).output)

/-- What `update` returns for each of the calls. -/
def levels (cfg : Config) (h : HornMgr) (dts : List Nat) : List Bool := outputs (tick cfg) h dts

theorem chirping_eq_false_iff {h : HornMgr} : h.chirping = false ↔ h.chirpsLeft = 0 := by
  simp [chirping]

/-- Within a chirp. -/
def sounding (h : HornMgr) : Bool := h.chirping && h.chirpOn

theorem sounding_iff {h : HornMgr} :
    h.sounding = true ↔ 0 < h.chirpsLeft ∧ h.chirpOn = true := by
  simp [sounding, chirping]

/-- **What a call does to the chirps.** It stays in the phase, or ends a chirp, or starts the next
one. -/
theorem update_phase (cfg : Config) (dtMs : Nat) {h : HornMgr}
    (hcontinuous : h.continuous = false) :
    (h.update cfg dtMs).continuous = false ∧
      (h.update cfg dtMs).output = (h.update cfg dtMs).sounding ∧
      ((h.update cfg dtMs).sounding = h.sounding ∧
          (h.update cfg dtMs).chirpsLeft = h.chirpsLeft ∨
        h.sounding = true ∧ (h.update cfg dtMs).sounding = false ∧
          (h.update cfg dtMs).chirpsLeft + 1 = h.chirpsLeft ∨
        h.sounding = false ∧ (h.update cfg dtMs).sounding = true ∧
          (h.update cfg dtMs).chirpsLeft = h.chirpsLeft) := by
  rcases Nat.eq_zero_or_pos h.chirpsLeft with hleft | hleft
  · rw [update_of_silent hleft hcontinuous]
    refine ⟨hcontinuous, ?_, Or.inl ⟨rfl, rfl⟩⟩
    simp [sounding, chirping, hleft]
  cases hexpires : h.timer.expires dtMs with
  | false =>
      rw [update_of_not_expires hleft hexpires]
      refine ⟨hcontinuous, ?_, Or.inl ⟨rfl, rfl⟩⟩
      simp [sounding, chirping, hleft]
  | true =>
      cases hon : h.chirpOn with
      | true =>
          rw [update_of_chirp_end hleft hexpires hon]
          refine ⟨hcontinuous, ?_, Or.inr (Or.inl ⟨sounding_iff.mpr ⟨hleft, hon⟩, ?_, ?_⟩)⟩
          · simp [sounding]
          · simp [sounding]
          · exact Nat.sub_add_cancel hleft
      | false =>
          rw [update_of_gap_end hleft hexpires hon]
          refine ⟨hcontinuous, ?_, Or.inr (Or.inr ⟨?_, ?_, rfl⟩)⟩
          · simp [sounding, chirping, hleft]
          · simp [sounding, hon]
          · exact sounding_iff.mpr ⟨hleft, rfl⟩

/-- Runs of true, each of them closed by a run of false. A pair counts the calls of the two runs
beyond the first. -/
def bursts (runs : List (Nat × Nat)) : List Bool :=
  runs.flatMap fun r => List.replicate (r.1 + 1) true ++ List.replicate (r.2 + 1) false

theorem bursts_cons (on off : Nat) (runs : List (Nat × Nat)) :
    bursts ((on, off) :: runs) =
      List.replicate (on + 1) true ++ List.replicate (off + 1) false ++ bursts runs := rfl

/-- The answers up to the end of the last chirp, from within a chirp and from a gap. -/
theorem levels_eq (cfg : Config) {h : HornMgr} (hcontinuous : h.continuous = false)
    {dts : List Nat} (hdone : (final (tick cfg) h dts).chirpsLeft = 0) :
    (h.sounding = true → ∃ on off runs, runs.length + 1 = h.chirpsLeft ∧
        levels cfg h dts =
          List.replicate on true ++ List.replicate (off + 1) false ++ bursts runs) ∧
      (h.sounding = false → ∃ off runs, runs.length = h.chirpsLeft ∧
        levels cfg h dts = List.replicate off false ++ bursts runs) := by
  induction dts generalizing h with
  | nil =>
      have hnone : h.chirpsLeft = 0 := hdone
      refine ⟨fun hsounding => ?_, fun _ => ⟨0, [], hnone.symm, rfl⟩⟩
      have hleft := (sounding_iff.mp hsounding).1
      omega
  | cons dtMs dts ih =>
      obtain ⟨hcontinuous', houtput, hphase⟩ := update_phase cfg dtMs hcontinuous
      obtain ⟨hchirp, hgap⟩ := ih hcontinuous' hdone
      have hlevels : levels cfg h (dtMs :: dts) =
          (h.update cfg dtMs).sounding :: levels cfg (h.update cfg dtMs) dts := by
        rw [← houtput]
        rfl
      rw [hlevels]
      rcases hphase with ⟨hsame, hleft⟩ | ⟨hbefore, hafter, hleft⟩ | ⟨hbefore, hafter, hleft⟩
      · rw [hsame] at hchirp hgap ⊢
        rw [hleft] at hchirp hgap
        constructor
        · intro hsounding
          obtain ⟨on, off, runs, hcount, hrest⟩ := hchirp hsounding
          exact ⟨on + 1, off, runs, hcount, by rw [hrest, hsounding]; rfl⟩
        · intro hsounding
          obtain ⟨off, runs, hcount, hrest⟩ := hgap hsounding
          exact ⟨off + 1, runs, hcount, by rw [hrest, hsounding]; rfl⟩
      · -- the call ends a chirp
        obtain ⟨off, runs, hcount, hrest⟩ := hgap hafter
        refine ⟨fun _ => ⟨0, off, runs, by omega, by rw [hrest, hafter]; rfl⟩, fun hno => ?_⟩
        rw [hbefore] at hno
        exact absurd hno (by decide)
      · -- the call starts the next chirp
        obtain ⟨on, off, runs, hcount, hrest⟩ := hchirp hafter
        refine ⟨fun hno => ?_,
          fun _ => ⟨0, (on, off) :: runs, by simpa using hcount.trans hleft, ?_⟩⟩
        · rw [hbefore] at hno
          exact absurd hno (by decide)
        · rw [hrest, hafter, bursts_cons]
          rfl

/-- After the last chirp every call answers false. -/
theorem levels_of_silent (cfg : Config) {h : HornMgr} (hcontinuous : h.continuous = false)
    (hleft : h.chirpsLeft = 0) (dts : List Nat) : ∀ level ∈ levels cfg h dts, level = false := by
  induction dts generalizing h with
  | nil => exact fun level hlevel => absurd hlevel List.not_mem_nil
  | cons dtMs dts ih =>
      have hsilent : h.update cfg dtMs = { h with output := false } :=
        update_of_silent hleft hcontinuous
      intro level hlevel
      rw [levels, outputs_cons, tick, hsilent] at hlevel
      rcases List.mem_cons.mp hlevel with rfl | hlater
      · rfl
      · exact ih (h := { h with output := false }) hcontinuous hleft level hlater

theorem continuous_final (cfg : Config) {h : HornMgr} (hcontinuous : h.continuous = false)
    (dts : List Nat) : (final (tick cfg) h dts).continuous = false := by
  induction dts generalizing h with
  | nil => exact hcontinuous
  | cons dtMs dts ih => exact ih (update_phase cfg dtMs hcontinuous).1

/-- **`chirp(n)` sounds exactly `n` chirps.** The answers are `n` runs of true, each followed by one
of false, and they are false from the call on that ends the chirping. -/
theorem chirp_levels {cfg : Config} {h : HornMgr} (hcontinuous : h.continuous = false) {count : Nat}
    (hcount : 0 < count) {firstMs : Nat} (hfirst : firstMs < cfg.chirpMs) {dts : List Nat}
    (hdone : (final (tick cfg) (h.chirp cfg count) (firstMs :: dts)).chirping = false) :
    (∃ runs : List (Nat × Nat), runs.length = count ∧
        levels cfg (h.chirp cfg count) (firstMs :: dts) = bursts runs) ∧
      ∀ front back, firstMs :: dts = front ++ back →
        (final (tick cfg) (h.chirp cfg count) front).chirping = false →
          ∀ level ∈ levels cfg (final (tick cfg) (h.chirp cfg count) front) back,
            level = false := by
  have hstart : h.chirp cfg count =
      { h with chirpsLeft := count, chirpOn := true, timer := h.timer.start cfg.chirpMs } := by
    rw [chirp, if_neg (Nat.pos_iff_ne_zero.mp hcount)]
  have hsilent : (h.chirp cfg count).continuous = false := by rw [hstart]; exact hcontinuous
  constructor
  · have hsounding : (h.chirp cfg count).sounding = true := by
      rw [hstart]
      exact sounding_iff.mpr ⟨hcount, rfl⟩
    obtain ⟨on, off, runs, hlength, hlevels⟩ :=
      (levels_eq cfg hsilent (chirping_eq_false_iff.mp hdone)).1 hsounding
    -- the first call falls within the first chirp
    have hexpires : (h.chirp cfg count).timer.expires firstMs = false := by
      rw [← Bool.not_eq_true, SoftTimer.expires_eq_true_iff, hstart, SoftTimer.start_remaining]
      omega
    have hfirst : (levels cfg (h.chirp cfg count) (firstMs :: dts)).head? = some true := by
      rw [levels, outputs_cons, List.head?_cons, tick,
        update_of_not_expires (sounding_iff.mp hsounding).1 hexpires]
      exact congrArg some (sounding_iff.mp hsounding).2
    rw [hlevels] at hfirst ⊢
    cases on with
    | zero => exact absurd hfirst (by simp [List.replicate_succ])
    | succ on =>
        rw [hstart] at hlength
        exact ⟨(on, off) :: runs, hlength, by rw [bursts_cons]⟩
  · intro front back _ hquiet
    exact levels_of_silent cfg (continuous_final cfg hsilent front)
      (chirping_eq_false_iff.mp hquiet) back

/-- The two chirps of an unlock, the first cut into two calls. -/
theorem chirp_levels_unlock :
    (∃ runs : List (Nat × Nat), runs.length = 2 ∧
        levels .shipped (new.chirp .shipped 2) [5, 60, 80, 120, 80] = bursts runs) ∧
      ∀ front back, [5, 60, 80, 120, 80] = front ++ back →
        (final (tick .shipped) (new.chirp .shipped 2) front).chirping = false →
          ∀ level ∈ levels .shipped (final (tick .shipped) (new.chirp .shipped 2) front) back,
            level = false :=
  chirp_levels rfl (by decide) (by decide) (by decide)

end Bcm.HornMgr
