import Bcm.Proof.BlinkPhase
import Mathlib.Data.List.DropRight

/-!
# Lamps that blink together

Each lamp has a blinker of its own, and a request it already follows does not restart it. So the
phase of a lamp is that of the cycles in a row in which it was asked to blink, and two lamps are in
phase when they were asked from the same cycle on. A lamp that was blinking before the other keeps
its phase.
-/

namespace Bcm.OutputStage

/-- What one cycle hands to `drive_outputs`. -/
structure Cycle where
  wanted : LampState
  horn : Bool
  dtMs : Nat

def exec (cfg : Config) (o : OutputStage) (c : Cycle) : OutputStage :=
  o.driveOutputs cfg c.wanted c.horn c.dtMs

def Cycle.blinks (id : LampId) (c : Cycle) : Bool := c.wanted.get id == .blink

/-- The last cycles in a row that ask a lamp to blink. -/
def stretch (id : LampId) (cycles : List Cycle) : List Cycle := cycles.rtakeWhile (Cycle.blinks id)

def started (cfg : Config) : Blinker := ⟨.blink, cfg.indicatorOnMs, cfg.indicatorOffMs, 0, true⟩

/-- A blinker started at the beginning of some cycles, after them. -/
def pattern (cfg : Config) (cycles : List Cycle) : Blinker :=
  Runs.run (fun b c => b.advance c.dtMs) (started cfg) cycles

variable {cfg : Config}

theorem pattern_concat (cycles : List Cycle) (c : Cycle) :
    pattern cfg (cycles ++ [c]) = (pattern cfg cycles).advance c.dtMs := Runs.run_concat _ _ _ _

theorem setBlink_of_not_blink {b : Blinker} (h : b.mode ≠ .blink) :
    b.setBlink cfg.indicatorOnMs cfg.indicatorOffMs = started cfg :=
  if_neg fun hsame => h hsame.1

/-- A blinker goes on with the pattern it is asked for again. -/
theorem setBlink_pattern (cycles : List Cycle) :
    (pattern cfg cycles).setBlink cfg.indicatorOnMs cfg.indicatorOffMs = pattern cfg cycles := by
  have hsame : (pattern cfg cycles).mode = .blink ∧
      cfg.indicatorOnMs = (pattern cfg cycles).onMs ∧
        cfg.indicatorOffMs = (pattern cfg cycles).offMs := by
    induction cycles using List.reverseRecOn with
    | nil => exact ⟨rfl, rfl, rfl⟩
    | append_singleton cycles c ih =>
        obtain ⟨hmode, hon, hoff⟩ := ih
        rw [pattern_concat, Blinker.advance_of_blink hmode]
        obtain ⟨hmode', hon', hoff', -⟩ := Blinker.catchUp_keeps
          (min 0xFFFF ((pattern cfg cycles).elapsed + c.dtMs))
          { pattern cfg cycles with
            elapsed := min 0xFFFF ((pattern cfg cycles).elapsed + c.dtMs) }
        exact ⟨hmode'.trans hmode, hon.trans hon'.symm, hoff.trans hoff'.symm⟩
  exact if_pos hsame

/-- A lamp that was not asked to blink is not blinking, and one that was is in the pattern of the
cycles since. -/
structure Follows (cfg : Config) (since : List Cycle) (l : Led) : Prop where
  idle : since = [] → l.blinker.mode ≠ .blink
  blinker : since ≠ [] → l.blinker = pattern cfg since
  pin : since ≠ [] → l.pin = (pattern cfg since).output

theorem Follows.setBlink {since : List Cycle} {l : Led} (h : Follows cfg since l) :
    l.blinker.setBlink cfg.indicatorOnMs cfg.indicatorOffMs = pattern cfg since := by
  by_cases hsince : since = []
  · rw [setBlink_of_not_blink (h.idle hsince), hsince]
    rfl
  · rw [h.blinker hsince, setBlink_pattern]

theorem Follows.drive_blink {since : List Cycle} {l : Led} (h : Follows cfg since l) (c : Cycle) :
    Follows cfg (since ++ [c]) (l.drive cfg .blink c.dtMs) := by
  have hblinker : (l.drive cfg .blink c.dtMs).blinker = pattern cfg (since ++ [c]) := by
    rw [pattern_concat, ← h.setBlink]
    rfl
  have hpin : (l.drive cfg .blink c.dtMs).pin = (pattern cfg (since ++ [c])).output := by
    rw [← hblinker, Led.drive, Led.update, Blinker.update_eq]
  exact ⟨fun hnil => absurd hnil (by simp), fun _ => hblinker, fun _ => hpin⟩

theorem follows_drive_steady {wanted : LampDrive} (h : wanted ≠ .blink) (l : Led) (dtMs : Nat) :
    Follows cfg [] (l.drive cfg wanted dtMs) := by
  refine ⟨fun _ => ?_, fun hnil => absurd rfl hnil, fun hnil => absurd rfl hnil⟩
  cases wanted with
  | off => simp [Led.drive, Led.update, Led.off, Blinker.update, Blinker.setOff]
  | on => simp [Led.drive, Led.update, Led.on, Blinker.update, Blinker.setOn]
  | blink => exact absurd rfl h

theorem follows_run (cfg : Config) (cycles : List Cycle) (id : LampId) :
    Follows cfg (stretch id cycles) ((Runs.run (exec cfg) init cycles).lamps id) := by
  induction cycles using List.reverseRecOn with
  | nil =>
      refine ⟨fun _ => ?_, fun hnil => absurd rfl hnil, fun hnil => absurd rfl hnil⟩
      simp [init, Led.init, Blinker.setOff]
  | append_singleton cycles c ih =>
      rw [Runs.run_concat]
      by_cases hblink : c.wanted.get id = .blink
      · have hmore : stretch id (cycles ++ [c]) = stretch id cycles ++ [c] :=
          List.rtakeWhile_concat_pos _ _ _ (beq_iff_eq.mpr hblink)
        have hlamp := ih.drive_blink c
        rw [hmore]
        rw [← hblink] at hlamp
        exact hlamp
      · have hnone : stretch id (cycles ++ [c]) = [] :=
          List.rtakeWhile_concat_neg _ _ _ fun hblinks => hblink (beq_iff_eq.mp hblinks)
        rw [hnone]
        exact follows_drive_steady hblink _ _

theorem pin_of_blink (cycles : List Cycle) {c : Cycle} {id : LampId}
    (h : c.wanted.get id = .blink) :
    ((Runs.run (exec cfg) init (cycles ++ [c])).lamps id).pin =
      (pattern cfg (stretch id (cycles ++ [c]))).output := by
  have hmore : stretch id (cycles ++ [c]) = stretch id cycles ++ [c] :=
    List.rtakeWhile_concat_pos _ _ _ (beq_iff_eq.mpr h)
  apply (follows_run cfg (cycles ++ [c]) id).pin
  rw [hmore]
  exact List.concat_ne_nil c (stretch id cycles)

def time (cycles : List Cycle) : Nat := (cycles.map Cycle.dtMs).sum

theorem phase_pattern (hon : 0 < cfg.indicatorOnMs) (hoff : 0 < cfg.indicatorOffMs)
    {cycles : List Cycle}
    (hdt : ∀ c ∈ cycles, c.dtMs + max cfg.indicatorOnMs cfg.indicatorOffMs ≤ 65535) :
    Blinker.Phase cfg.indicatorOnMs cfg.indicatorOffMs (time cycles) (pattern cfg cycles) := by
  induction cycles using List.reverseRecOn with
  | nil => exact Blinker.Phase.start hon .new
  | append_singleton cycles c ih =>
      have htime : time (cycles ++ [c]) = time cycles + c.dtMs := by
        rw [time, List.map_append, List.sum_append, List.map_singleton, List.sum_singleton, time]
      have hbefore := ih fun c' hmem => hdt c' (List.mem_append_left _ hmem)
      rw [htime, pattern_concat]
      exact hbefore.advance hon hoff (hdt c (by simp))

/-- **When the two sides are in phase.** Each is in the phase of its own row of requests, so they
agree when both rows began with one cycle, and otherwise exactly when the two times fall into the
same part of the period. -/
theorem sides_in_phase (cfg : Config) (cycles : List Cycle) (c : Cycle)
    (hleft : c.wanted.get .indLeft = .blink) (hright : c.wanted.get .indRight = .blink) :
    let o := Runs.run (exec cfg) init (cycles ++ [c])
    let left := stretch .indLeft (cycles ++ [c])
    let right := stretch .indRight (cycles ++ [c])
    (o.lamps .indLeft).pin = (pattern cfg left).output ∧
      (o.lamps .indRight).pin = (pattern cfg right).output ∧
      (left.length = right.length → (o.lamps .indLeft).pin = (o.lamps .indRight).pin) ∧
      (0 < cfg.indicatorOnMs → 0 < cfg.indicatorOffMs →
        (∀ c' ∈ cycles ++ [c], c'.dtMs + max cfg.indicatorOnMs cfg.indicatorOffMs ≤ 65535) →
        let period := cfg.indicatorOnMs + cfg.indicatorOffMs
        ((o.lamps .indLeft).pin = (o.lamps .indRight).pin ↔
          (time left % period < cfg.indicatorOnMs ↔ time right % period < cfg.indicatorOnMs))) := by
  intro o left right
  have hleftPin : (o.lamps .indLeft).pin = (pattern cfg left).output := pin_of_blink cycles hleft
  have hrightPin : (o.lamps .indRight).pin = (pattern cfg right).output :=
    pin_of_blink cycles hright
  have hleftSuffix : left <:+ cycles ++ [c] := List.rtakeWhile_suffix _ _
  have hrightSuffix : right <:+ cycles ++ [c] := List.rtakeWhile_suffix _ _
  refine ⟨hleftPin, hrightPin, ?_, ?_⟩
  · intro hlength
    have hsame : left = right :=
      (List.suffix_of_suffix_length_le hleftSuffix hrightSuffix hlength.le).eq_of_length hlength
    rw [hleftPin, hrightPin, hsame]
  · intro hon hoff hdt period
    have hleftPhase := phase_pattern hon hoff fun c' hmem => hdt c' (hleftSuffix.subset hmem)
    have hrightPhase := phase_pattern hon hoff fun c' hmem => hdt c' (hrightSuffix.subset hmem)
    rw [hleftPin, hrightPin, Bool.eq_iff_iff, hleftPhase.lit_iff hon hoff,
      hrightPhase.lit_iff hon hoff]

/-- The left indicator, and then the hazard. -/
def turning : LampState := LampState.dark.set .indLeft .blink

def hazard : LampState := (turning.set .indRight .blink).set .hazard .blink

/-- The hazard pressed with neither side blinking. -/
theorem sides_in_phase_at_once :
    let o := Runs.run (exec .shipped) init ([] ++ [⟨hazard, false, 5⟩])
    let left := stretch .indLeft ([] ++ [⟨hazard, false, 5⟩])
    let right := stretch .indRight ([] ++ [⟨hazard, false, 5⟩])
    (o.lamps .indLeft).pin = (o.lamps .indRight).pin ∧
      ((o.lamps .indLeft).pin = (o.lamps .indRight).pin ↔
        (time left % (333 + 333) < 333 ↔ time right % (333 + 333) < 333)) := by
  have hleft : hazard.get .indLeft = .blink := by decide
  have hright : hazard.get .indRight = .blink := by decide
  have hdt : ∀ c' ∈ [] ++ [(⟨hazard, false, 5⟩ : Cycle)],
      c'.dtMs + max Config.shipped.indicatorOnMs Config.shipped.indicatorOffMs ≤ 65535 := by
    simp [Config.shipped]
  obtain ⟨-, -, hsame, hexactly⟩ := sides_in_phase .shipped [] ⟨hazard, false, 5⟩ hleft hright
  exact ⟨hsame rfl, hexactly (by decide) (by decide) hdt⟩

/-- The hazard pressed while the left side is in its dark phase. -/
theorem out_of_phase :
    ¬∀ (cfg : Config) (cycles : List Cycle) (c : Cycle),
      c.wanted.get .indLeft = .blink → c.wanted.get .indRight = .blink →
        ((Runs.run (exec cfg) init (cycles ++ [c])).lamps .indLeft).pin =
          ((Runs.run (exec cfg) init (cycles ++ [c])).lamps .indRight).pin := by
  intro hunison
  have hsame := hunison .shipped (List.replicate 80 ⟨turning, false, 5⟩) ⟨hazard, false, 5⟩
    (by decide) (by decide)
  revert hsame
  decide +kernel

end Bcm.OutputStage
