import Bcm.Blink
import Bcm.Lib.Runs

/-!
# The phase of a blinking lamp

Where a blinker stands in its period is the time since it was started, however the time was cut into
updates. The loop of an update takes whole phases from the time it has counted, and each pass keeps
the place in the period.
-/

namespace Bcm.Blinker

/-! ### The loop -/

section Loop

variable {b : Blinker}

theorem elapsed_toggle_lt (h : ¬b.CaughtUp) : b.toggle.elapsed < b.elapsed := by
  obtain ⟨hlimit, helapsed⟩ := not_or.mp h
  rw [toggle]
  dsimp only
  omega

theorem caughtUp_catchUp {fuel : Nat} (hfuel : b.elapsed ≤ fuel) : (catchUp fuel b).CaughtUp := by
  induction fuel generalizing b with
  | zero =>
      rw [catchUp]
      rcases Nat.eq_zero_or_pos b.limit with hzero | hpos
      · exact Or.inl hzero
      · exact Or.inr (by omega)
  | succ fuel ih =>
      rw [catchUp]
      by_cases hcaught : b.CaughtUp
      · rw [if_pos hcaught]
        exact hcaught
      · rw [if_neg hcaught]
        have hlt := elapsed_toggle_lt hcaught
        apply ih
        omega

/-- How far into its period a blinker is, the lit phase coming first. -/
def position (b : Blinker) : Nat := if b.output then b.elapsed else b.onMs + b.elapsed

theorem position_toggle (h : ¬b.CaughtUp) :
    b.toggle.position % (b.onMs + b.offMs) = b.position % (b.onMs + b.offMs) := by
  have helapsed : b.limit ≤ b.elapsed := Nat.le_of_not_lt (not_or.mp h).2
  unfold position toggle
  unfold limit at helapsed ⊢
  cases houtput : b.output with
  | true =>
      rw [houtput, if_pos rfl] at helapsed
      have hwhole : b.onMs + (b.elapsed - b.onMs) = b.elapsed := Nat.add_sub_cancel' helapsed
      simp [hwhole]
  | false =>
      rw [houtput, if_neg Bool.false_ne_true] at helapsed
      have hwhole : b.onMs + b.elapsed = b.elapsed - b.offMs + (b.onMs + b.offMs) := by omega
      simp [hwhole]

/-- What the loop leaves alone, and that it keeps the place in the period. -/
theorem catchUp_keeps (fuel : Nat) (b : Blinker) :
    (catchUp fuel b).mode = b.mode ∧ (catchUp fuel b).onMs = b.onMs ∧
      (catchUp fuel b).offMs = b.offMs ∧
      (catchUp fuel b).position % (b.onMs + b.offMs) = b.position % (b.onMs + b.offMs) := by
  induction fuel generalizing b with
  | zero => exact ⟨rfl, rfl, rfl, rfl⟩
  | succ fuel ih =>
      rw [catchUp]
      by_cases hcaught : b.CaughtUp
      · rw [if_pos hcaught]
        exact ⟨rfl, rfl, rfl, rfl⟩
      · rw [if_neg hcaught]
        obtain ⟨hmode, hon, hoff, hposition⟩ := ih b.toggle
        exact ⟨hmode, hon, hoff, hposition.trans (position_toggle hcaught)⟩

theorem CaughtUp.position_lt (h : b.CaughtUp) (hon : 0 < b.onMs) (hoff : 0 < b.offMs) :
    b.position < b.onMs + b.offMs ∧ (b.output = true ↔ b.position < b.onMs) := by
  unfold CaughtUp limit at h
  unfold position
  cases houtput : b.output with
  | true =>
      rw [houtput, if_pos rfl] at h
      rw [if_pos rfl]
      refine ⟨by omega, iff_of_true rfl (by omega)⟩
  | false =>
      rw [houtput, if_neg Bool.false_ne_true] at h
      rw [if_neg Bool.false_ne_true]
      refine ⟨by omega, iff_of_false Bool.false_ne_true (by omega)⟩

end Loop

/-! ### The updates -/

def advance (b : Blinker) (dtMs : Nat) : Blinker := (b.update dtMs).2

theorem update_eq (b : Blinker) (dtMs : Nat) :
    b.update dtMs = ((b.advance dtMs).output, b.advance dtMs) := by
  unfold advance update
  split
  · rfl
  · rfl

theorem advance_of_blink {b : Blinker} (h : b.mode = .blink) (dtMs : Nat) :
    b.advance dtMs =
      catchUp (min 0xFFFF (b.elapsed + dtMs))
        { b with elapsed := min 0xFFFF (b.elapsed + dtMs) } := by
  have hmode : ¬b.mode ≠ .blink := not_not.mpr h
  rw [advance, update, if_neg hmode, saturate16_eq_min]

/-- A blinker of the given times, some time after it was started lit. -/
structure Phase (onMs offMs time : Nat) (b : Blinker) : Prop where
  mode : b.mode = .blink
  onMs_eq : b.onMs = onMs
  offMs_eq : b.offMs = offMs
  caughtUp : b.CaughtUp
  position : b.position = time % (onMs + offMs)

namespace Phase

variable {onMs offMs time : Nat} {b : Blinker}

theorem start (hon : 0 < onMs) (b : Blinker) :
    Phase onMs offMs 0 (b.setOff.setBlink onMs offMs) := by
  have hstart : b.setOff.setBlink onMs offMs = ⟨.blink, onMs, offMs, 0, true⟩ := by
    rw [setBlink, if_neg]
    simp [setOff]
  rw [hstart]
  exact ⟨rfl, rfl, rfl, Or.inr hon, (Nat.zero_mod _).symm⟩

/-- Asking again for the same pattern changes nothing. -/
theorem setBlink_eq (h : Phase onMs offMs time b) : b.setBlink onMs offMs = b :=
  if_pos ⟨h.mode, h.onMs_eq.symm, h.offMs_eq.symm⟩

theorem lit_iff (h : Phase onMs offMs time b) (hon : 0 < onMs) (hoff : 0 < offMs) :
    b.output = true ↔ time % (onMs + offMs) < onMs := by
  obtain ⟨-, hlit⟩ := h.caughtUp.position_lt (h.onMs_eq.symm ▸ hon) (h.offMs_eq.symm ▸ hoff)
  rw [hlit, h.position, h.onMs_eq]

theorem advance (h : Phase onMs offMs time b) (hon : 0 < onMs) (hoff : 0 < offMs) {dtMs : Nat}
    (hdt : dtMs + max onMs offMs ≤ 65535) : Phase onMs offMs (time + dtMs) (b.advance dtMs) := by
  have hpos : 0 < b.limit := by
    unfold limit
    rw [h.onMs_eq, h.offMs_eq]
    split
    · exact hon
    · exact hoff
  have hlimit : b.limit ≤ max onMs offMs := by
    unfold limit
    rw [h.onMs_eq, h.offMs_eq]
    split
    · exact Nat.le_max_left _ _
    · exact Nat.le_max_right _ _
  have helapsed : b.elapsed < b.limit := h.caughtUp.resolve_left (Nat.ne_of_gt hpos)
  have hsum : min 0xFFFF (b.elapsed + dtMs) = b.elapsed + dtMs := by omega
  have hadvance := advance_of_blink h.mode dtMs
  rw [hsum] at hadvance
  have hcaught := caughtUp_catchUp (b := { b with elapsed := b.elapsed + dtMs }) (Nat.le_refl _)
  obtain ⟨hmode, honMs, hoffMs, hposition⟩ :=
    catchUp_keeps (b.elapsed + dtMs) { b with elapsed := b.elapsed + dtMs }
  rw [← hadvance] at hcaught hmode honMs hoffMs hposition
  have hmoved : ({ b with elapsed := b.elapsed + dtMs } : Blinker).position =
      b.position + dtMs := by
    unfold Blinker.position
    dsimp only
    split
    · rfl
    · exact (Nat.add_assoc _ _ _).symm
  refine ⟨hmode.trans h.mode, honMs.trans h.onMs_eq, hoffMs.trans h.offMs_eq, hcaught, ?_⟩
  have hwithin := (hcaught.position_lt (honMs.trans h.onMs_eq ▸ hon) (hoffMs.trans h.offMs_eq ▸ hoff)).1
  dsimp only at hposition honMs hoffMs
  rw [hmoved, h.position, h.onMs_eq, h.offMs_eq, Nat.mod_add_mod] at hposition
  rw [honMs, hoffMs, h.onMs_eq, h.offMs_eq] at hwithin
  rw [← hposition, Nat.mod_eq_of_lt hwithin]

end Phase

/-! ### Slicing the time -/

inductive Call where
  | update (dtMs : Nat)
  | setBlink

def exec (onMs offMs : Nat) (b : Blinker) : Call → Blinker
  | .update dtMs => b.advance dtMs
  | .setBlink => b.setBlink onMs offMs

def Call.dtMs : Call → Nat
  | .update dtMs => dtMs
  | .setBlink => 0

def total (calls : List Call) : Nat := (calls.map Call.dtMs).sum

/-- No update is long enough to overflow the 16 bits of the time in the phase. -/
def Unsaturated (onMs offMs : Nat) (calls : List Call) : Prop :=
  ∀ dtMs, .update dtMs ∈ calls → dtMs + max onMs offMs ≤ 65535

variable {onMs offMs : Nat}

theorem phase_run (hon : 0 < onMs) (hoff : 0 < offMs) (b : Blinker) {calls : List Call}
    (hcalls : Unsaturated onMs offMs calls) :
    Phase onMs offMs (total calls)
      (Runs.run (exec onMs offMs) (b.setOff.setBlink onMs offMs) calls) := by
  induction calls using List.reverseRecOn with
  | nil => exact Phase.start hon b
  | append_singleton calls call ih =>
      have hbefore := ih fun dtMs hmem => hcalls dtMs (List.mem_append_left _ hmem)
      have htotal : total (calls ++ [call]) = total calls + call.dtMs := by
        rw [total, List.map_append, List.sum_append, List.map_singleton, List.sum_singleton]
        rfl
      rw [Runs.run_concat, htotal]
      cases call with
      | update dtMs => exact hbefore.advance hon hoff (hcalls dtMs (by simp))
      | setBlink =>
          rw [exec, hbefore.setBlink_eq]
          exact hbefore

/-- **The blinker keeps exact phase however time is sliced.** -/
theorem exact_phase (hon : 0 < onMs) (hoff : 0 < offMs) (b : Blinker) {calls : List Call}
    (hcalls : Unsaturated onMs offMs calls) :
    let after := Runs.run (exec onMs offMs) (b.setOff.setBlink onMs offMs) calls
    after.CaughtUp ∧ (after.output = true ↔ total calls % (onMs + offMs) < onMs) ∧
      ∀ calls', Unsaturated onMs offMs calls' → total calls' = total calls →
        (Runs.run (exec onMs offMs) (b.setOff.setBlink onMs offMs) calls').output =
          after.output := by
  intro after
  have hphase : Phase onMs offMs (total calls) after := phase_run hon hoff b hcalls
  refine ⟨hphase.caughtUp, hphase.lit_iff hon hoff, ?_⟩
  intro calls' hcalls' htotal
  have hphase' := phase_run hon hoff b hcalls'
  rw [Bool.eq_iff_iff, hphase.lit_iff hon hoff, hphase'.lit_iff hon hoff, htotal]

/-- Seven hundred milliseconds, with the request repeated on the way or all at once. -/
theorem exact_phase_sliced :
    (Runs.run (exec 333 333) (new.setOff.setBlink 333 333) [.update 700]).output =
      (Runs.run (exec 333 333) (new.setOff.setBlink 333 333)
        [.update 400, .setBlink, .update 300]).output := by
  have hsliced : Unsaturated 333 333 [.update 400, .setBlink, .update 300] := by
    simp [Unsaturated]
  have hwhole : Unsaturated 333 333 [.update 700] := by simp [Unsaturated]
  exact (exact_phase (by decide) (by decide) new hsliced).2.2 _ hwhole rfl

end Bcm.Blinker
