import Bcm.Lib.Stopwatch
import Bcm.Proof.CoreStep
import Bcm.Proof.HornChirps

/-!
# How long the buzzer is on

Nothing in the core asserts the continuous tone, so the limiter of the horn is never asked, and the
buzzer is on for chirps alone. One chirp is short. But a lock or an unlock in the middle of a chirp
starts another from its beginning, and the buzzer stays on: requests that come fast enough keep it
on for good. The call that starts the second chirp of an unlock counts with all its time as well.

The buzzer stays within the limit if no chirp is started that would take it past the limit.
-/

namespace Bcm.BcmCore

open Stopwatch

/-- The time a cycle took, and whether the horn sounds at its end. -/
def hornRecord (cfg : Config) (s : BcmCore) : CoreOp → List (Nat × Bool)
  | .step dtMs => [(dtMs, (s.step cfg dtMs).horn.output)]
  | _ => []

/-- A core with the records of its horn so far. -/
structure Heard where
  core : BcmCore
  records : List (Nat × Bool)

namespace Heard

def exec (cfg : Config) (w : Heard) (op : CoreOp) : Heard :=
  ⟨w.core.exec cfg op, w.records ++ hornRecord cfg w.core op⟩

def new (cfg : Config) : Heard := ⟨.new cfg, []⟩

def run (cfg : Config) (ops : List CoreOp) : Heard := Runs.run (exec cfg) (new cfg) ops

/-- The run that is heard is the run. -/
theorem core_run (cfg : Config) (ops : List CoreOp) :
    (run cfg ops).core = BcmCore.run cfg ops := by
  induction ops using List.reverseRecOn with
  | nil => rfl
  | append_singleton ops op ih =>
      rw [BcmCore.run_concat, ← ih, run, Runs.run_concat]
      rfl

end Heard

/-- The cycle locks or unlocks the door, and the horn is told to chirp. -/
def startsChirp (cfg : Config) (dtMs : Nat) (s : BcmCore) : Bool :=
  ((s.applyEdges cfg dtMs).door.update cfg dtMs).ctx.chirpLock ||
    ((s.applyEdges cfg dtMs).door.update cfg dtMs).ctx.chirpUnlock

/-- The gap between two chirps ends in the cycle. -/
def startsSecondChirp (dtMs : Nat) (s : BcmCore) : Bool :=
  s.horn.chirping && !s.horn.chirpOn && s.horn.timer.expires dtMs

/-- A chirp that the cycle starts would end within the limit. -/
def ChirpFits (cfg : Config) (w : Heard) (dtMs : Nat) : Prop :=
  if w.core.startsChirp cfg dtMs then heldFor w.records + cfg.chirpMs ≤ cfg.hornMaxOnMs + 1
  else w.core.startsSecondChirp dtMs = true → dtMs + cfg.chirpMs ≤ cfg.hornMaxOnMs + 1

instance (cfg : Config) (w : Heard) (dtMs : Nat) : Decidable (ChirpFits cfg w dtMs) :=
  inferInstanceAs (Decidable (ite _ _ _))

def ChirpsFit (cfg : Config) (w : Heard) (op : CoreOp) : Prop :=
  AtStep (fun _ dtMs => ChirpFits cfg w dtMs) w.core op

instance (cfg : Config) (w : Heard) (op : CoreOp) : Decidable (ChirpsFit cfg w op) :=
  inferInstanceAs (Decidable (AtStep _ _ _))

/-! ### One cycle -/

theorem chirpedBy_eq (cfg : Config) (d : DoorMgr) (h : HornMgr) :
    chirpedBy cfg d h =
      if d.ctx.chirpUnlock then h.chirp cfg 2
      else if d.ctx.chirpLock then h.chirp cfg 1
      else h := by
  unfold chirpedBy
  cases d.ctx.chirpLock <;> rfl

/-- The horn of a core has nothing but chirps, and a chirp that sounds will end. -/
structure ChirpsOnly (h : HornMgr) : Prop where
  discrete : h.continuous = false
  shot : h.timer.periodic = false
  armed : h.sounding = true → h.timer.running = true

/-- A chirp sounds, and its time is what the timer shows. -/
structure SoundsFor (remainingMs : Nat) (h : HornMgr) : Prop where
  output : h.output = true
  sounding : h.sounding = true
  running : h.timer.running = true
  remaining : h.timer.remaining = remainingMs

/-- A horn on its way into a call, in a chirp that the call does not end. -/
theorem soundsFor_update (cfg : Config) {dtMs : Nat} {h : HornMgr} (hsounding : h.sounding = true)
    (hrunning : h.timer.running = true) (hlt : dtMs < h.timer.remaining) :
    SoundsFor (h.timer.remaining - dtMs) (h.update cfg dtMs) := by
  obtain ⟨hleft, hon⟩ := HornMgr.sounding_iff.mp hsounding
  have hexpires : h.timer.expires dtMs = false := by
    rw [← Bool.not_eq_true, SoftTimer.expires_eq_true_iff]
    omega
  rw [HornMgr.update_of_not_expires hleft hexpires,
    SoftTimer.advance_of_not_expires hrunning hexpires]
  exact ⟨hon, HornMgr.sounding_iff.mpr ⟨hleft, hon⟩, hrunning, rfl⟩

/-- A chirp that starts just before a call shorter than it. -/
theorem soundsFor_chirp {cfg : Config} {dtMs count : Nat} (hshort : dtMs < cfg.chirpMs)
    (hcount : 0 < count) (h : HornMgr) :
    SoundsFor (cfg.chirpMs - dtMs) ((h.chirp cfg count).update cfg dtMs) := by
  have hstart : h.chirp cfg count =
      { h with chirpsLeft := count, chirpOn := true, timer := h.timer.start cfg.chirpMs } := by
    rw [HornMgr.chirp, if_neg (Nat.pos_iff_ne_zero.mp hcount)]
  rw [hstart]
  apply soundsFor_update cfg (h := { h with
    chirpsLeft := count, chirpOn := true, timer := h.timer.start cfg.chirpMs })
  · exact HornMgr.sounding_iff.mpr ⟨hcount, rfl⟩
  · rw [SoftTimer.start_running]
    exact decide_eq_true (Nat.zero_lt_of_lt hshort)
  · exact hshort

/-- The second chirp starts as the call ends. -/
theorem soundsFor_second {cfg : Config} {dtMs : Nat} (hshort : dtMs < cfg.chirpMs) {h : HornMgr}
    (hleft : 0 < h.chirpsLeft) (hoff : h.chirpOn = false)
    (hexpires : h.timer.expires dtMs = true) : SoundsFor cfg.chirpMs (h.update cfg dtMs) := by
  rw [HornMgr.update_of_gap_end hleft hexpires hoff]
  refine ⟨rfl, HornMgr.sounding_iff.mpr ⟨hleft, rfl⟩, ?_, rfl⟩
  rw [SoftTimer.start_running]
  exact decide_eq_true (Nat.zero_lt_of_lt hshort)

theorem shot_update (cfg : Config) (dtMs : Nat) {h : HornMgr} (hdiscrete : h.continuous = false)
    (hshot : h.timer.periodic = false) : (h.update cfg dtMs).timer.periodic = false := by
  rcases Nat.eq_zero_or_pos h.chirpsLeft with hleft | hleft
  · rw [HornMgr.update_of_silent hleft hdiscrete]
    exact hshot
  cases hexpires : h.timer.expires dtMs with
  | false =>
      rw [HornMgr.update_of_not_expires hleft hexpires, SoftTimer.advance_periodic]
      exact hshot
  | true =>
      cases hon : h.chirpOn with
      | true =>
          rw [HornMgr.update_of_chirp_end hleft hexpires hon]
          rfl
      | false =>
          rw [HornMgr.update_of_gap_end hleft hexpires hon]
          rfl

/-- What a cycle does to the horn: it starts a chirp, or the second one after a gap, or it falls
within a chirp, or it ends in silence. -/
inductive HornStep (cfg : Config) (dtMs : Nat) (s : BcmCore) (h : HornMgr) : Prop
  | started : s.startsChirp cfg dtMs = true → SoundsFor (cfg.chirpMs - dtMs) h →
      HornStep cfg dtMs s h
  | startedSecond : s.startsChirp cfg dtMs = false → s.startsSecondChirp dtMs = true →
      SoundsFor cfg.chirpMs h → HornStep cfg dtMs s h
  | sounds : s.startsChirp cfg dtMs = false → s.horn.sounding = true →
      dtMs < s.horn.timer.remaining → SoundsFor (s.horn.timer.remaining - dtMs) h →
      HornStep cfg dtMs s h
  | silent : h.sounding = false → h.output = false → HornStep cfg dtMs s h

theorem startsSecondChirp_iff {dtMs : Nat} {s : BcmCore} :
    s.startsSecondChirp dtMs = true ↔
      0 < s.horn.chirpsLeft ∧ s.horn.chirpOn = false ∧ s.horn.timer.expires dtMs = true := by
  simp [startsSecondChirp, HornMgr.chirping, and_assoc]

/-- A cycle that starts no chirp, from the horn before it. -/
theorem hornStep_update {cfg : Config} {dtMs : Nat} (hshort : dtMs < cfg.chirpMs) {s : BcmCore}
    (h : ChirpsOnly s.horn) (hnone : s.startsChirp cfg dtMs = false) :
    HornStep cfg dtMs s (s.horn.update cfg dtMs) := by
  rcases Nat.eq_zero_or_pos s.horn.chirpsLeft with hleft | hleft
  · rw [HornMgr.update_of_silent hleft h.discrete]
    exact HornStep.silent (by simp [HornMgr.sounding, HornMgr.chirping, hleft]) rfl
  cases hexpires : s.horn.timer.expires dtMs with
  | false =>
      cases hon : s.horn.chirpOn with
      | true =>
          have hsounding := HornMgr.sounding_iff.mpr ⟨hleft, hon⟩
          have hrunning := h.armed hsounding
          have hlt : dtMs < s.horn.timer.remaining := by
            rw [← Bool.not_eq_true, SoftTimer.expires_eq_true_iff] at hexpires
            exact Nat.lt_of_not_le fun hle => hexpires ⟨hrunning, hle⟩
          exact HornStep.sounds hnone hsounding hlt (soundsFor_update cfg hsounding hrunning hlt)
      | false =>
          rw [HornMgr.update_of_not_expires hleft hexpires]
          exact HornStep.silent (by simp [HornMgr.sounding, hon]) hon
  | true =>
      cases hon : s.horn.chirpOn with
      | true =>
          rw [HornMgr.update_of_chirp_end hleft hexpires hon]
          exact HornStep.silent (by simp [HornMgr.sounding]) rfl
      | false =>
          exact HornStep.startedSecond hnone (startsSecondChirp_iff.mpr ⟨hleft, hon, hexpires⟩)
            (soundsFor_second hshort hleft hon hexpires)

theorem soundsFor_step_of_starts {cfg : Config} {dtMs : Nat} (hshort : dtMs < cfg.chirpMs)
    {s : BcmCore} (hstarts : s.startsChirp cfg dtMs = true) :
    SoundsFor (cfg.chirpMs - dtMs) (s.step cfg dtMs).horn := by
  rw [step_horn, chirpedBy_eq]
  unfold startsChirp at hstarts
  cases hunlock : ((s.applyEdges cfg dtMs).door.update cfg dtMs).ctx.chirpUnlock with
  | true =>
      rw [if_pos rfl]
      exact soundsFor_chirp hshort (by decide) s.horn
  | false =>
      rw [hunlock, Bool.or_false] at hstarts
      rw [if_neg Bool.false_ne_true, if_pos hstarts]
      exact soundsFor_chirp hshort (by decide) s.horn

theorem step_horn_of_not_starts {cfg : Config} {dtMs : Nat} {s : BcmCore}
    (hnone : s.startsChirp cfg dtMs = false) :
    (s.step cfg dtMs).horn = s.horn.update cfg dtMs := by
  obtain ⟨hlock, hunlock⟩ := Bool.or_eq_false_iff.mp hnone
  rw [step_horn, chirpedBy_eq, hlock, hunlock]
  rfl

/-- **One cycle.** -/
theorem hornStep {cfg : Config} {dtMs : Nat} (hshort : dtMs < cfg.chirpMs) {s : BcmCore}
    (h : ChirpsOnly s.horn) : HornStep cfg dtMs s (s.step cfg dtMs).horn := by
  cases hstarts : s.startsChirp cfg dtMs with
  | true => exact HornStep.started hstarts (soundsFor_step_of_starts hshort hstarts)
  | false =>
      rw [step_horn_of_not_starts hstarts]
      exact hornStep_update hshort h hstarts

theorem ChirpsOnly.update {h : HornMgr} (hchirps : ChirpsOnly h) (cfg : Config) (dtMs : Nat)
    (harmed : (h.update cfg dtMs).sounding = true → (h.update cfg dtMs).timer.running = true) :
    ChirpsOnly (h.update cfg dtMs) :=
  ⟨(HornMgr.update_phase cfg dtMs hchirps.discrete).1,
    shot_update cfg dtMs hchirps.discrete hchirps.shot, harmed⟩

theorem ChirpsOnly.chirpedBy {h : HornMgr} (hchirps : ChirpsOnly h) {cfg : Config}
    (hpos : 0 < cfg.chirpMs) (d : DoorMgr) : ChirpsOnly (chirpedBy cfg d h) := by
  have hchirp : ∀ count, 0 < count → ChirpsOnly (h.chirp cfg count) := by
    intro count hcount
    rw [HornMgr.chirp, if_neg (Nat.pos_iff_ne_zero.mp hcount)]
    refine ⟨hchirps.discrete, rfl, fun _ => ?_⟩
    rw [SoftTimer.start_running]
    exact decide_eq_true hpos
  rw [chirpedBy_eq]
  split
  · exact hchirp 2 (by decide)
  · split
    · exact hchirp 1 (by decide)
    · exact hchirps

theorem HornStep.armed {cfg : Config} {dtMs : Nat} {s : BcmCore} {h : HornMgr}
    (hstep : HornStep cfg dtMs s h) (hsounding : h.sounding = true) : h.timer.running = true := by
  cases hstep with
  | started _ hsounds => exact hsounds.running
  | startedSecond _ _ hsounds => exact hsounds.running
  | sounds _ _ _ hsounds => exact hsounds.running
  | silent hsilent _ => exact absurd (hsilent.symm.trans hsounding) (by decide)

theorem ChirpsOnly.step {cfg : Config} {dtMs : Nat} (hshort : dtMs < cfg.chirpMs) {s : BcmCore}
    (h : ChirpsOnly s.horn) : ChirpsOnly (s.step cfg dtMs).horn := by
  have hstep := hornStep hshort h
  rw [step_horn] at hstep ⊢
  exact (h.chirpedBy (Nat.zero_lt_of_lt hshort) _).update cfg dtMs hstep.armed

/-! ### Every cycle of a run -/

/-- The buzzer has been within the limit so far, and a chirp that sounds will end within it. -/
structure Quota (cfg : Config) (w : Heard) : Prop where
  chirps : ChirpsOnly w.core.horn
  sounding : w.core.horn.sounding = true →
    heldFor w.records + w.core.horn.timer.remaining ≤ cfg.hornMaxOnMs + 1
  gap : w.core.horn.sounding = false → w.core.horn.chirping = true → heldFor w.records = 0
  within : StretchesWithin cfg.hornMaxOnMs w.records

theorem Quota.step {cfg : Config} {w : Heard} (h : Quota cfg w) {dtMs : Nat}
    (hshort : dtMs < cfg.chirpMs) (hfits : ChirpFits cfg w dtMs) :
    Quota cfg (w.exec cfg (.step dtMs)) := by
  have hstep := hornStep hshort h.chirps
  have hchirps : ChirpsOnly (w.core.step cfg dtMs).horn := h.chirps.step hshort
  -- a cycle at whose end a chirp sounds is added to the stretch
  have hadd : ∀ remainingMs, SoundsFor remainingMs (w.core.step cfg dtMs).horn →
      0 < remainingMs → heldFor w.records + dtMs + remainingMs ≤ cfg.hornMaxOnMs + 1 →
        Quota cfg (w.exec cfg (.step dtMs)) := by
    intro remainingMs hsounds hpos hle
    refine ⟨hchirps, fun _ => ?_, fun hno => ?_, ?_⟩
    · change heldFor (w.records ++ [(dtMs, (w.core.step cfg dtMs).horn.output)]) +
        (w.core.step cfg dtMs).horn.timer.remaining ≤ _
      rw [heldFor_concat, hsounds.output, if_pos rfl, hsounds.remaining]
      exact hle
    · exact absurd (hsounds.sounding.symm.trans hno) (by decide)
    · refine (stretchesWithin_concat _ _ _ _).mpr ⟨h.within, fun _ => ?_⟩
      omega
  unfold ChirpFits at hfits
  cases hstep with
  | started hstarts hsounds =>
      rw [if_pos hstarts] at hfits
      exact hadd _ hsounds (by omega) (by omega)
  | startedSecond hnone hsecond hsounds =>
      rw [if_neg (by simp [hnone])] at hfits
      have hheld : heldFor w.records = 0 := by
        obtain ⟨hleft, hoff, -⟩ := startsSecondChirp_iff.mp hsecond
        apply h.gap
        · simp [HornMgr.sounding, hoff]
        · simpa [HornMgr.chirping] using hleft
      have hfit := hfits hsecond
      exact hadd _ hsounds (by omega) (by omega)
  | sounds hnone hsounding hlt hsounds =>
      have hquota := h.sounding hsounding
      exact hadd _ hsounds (by omega) (by omega)
  | silent hsilent hoff =>
      have hrecords : (w.exec cfg (.step dtMs)).records = w.records ++ [(dtMs, false)] := by
        rw [← hoff]
        rfl
      refine ⟨hchirps, fun hsounding => ?_, fun _ _ => ?_, ?_⟩
      · exact absurd (hsilent.symm.trans hsounding) (by decide)
      · rw [hrecords, heldFor_concat, if_neg Bool.false_ne_true]
      · rw [hrecords]
        refine (stretchesWithin_concat _ _ _ _).mpr ⟨h.within, fun hno => ?_⟩
        exact absurd hno (by decide)

theorem Quota.exec {cfg : Config} {w : Heard} (h : Quota cfg w) {op : CoreOp}
    (hshort : ∀ dtMs, op = .step dtMs → dtMs < cfg.chirpMs) (hfits : ChirpsFit cfg w op) :
    Quota cfg (w.exec cfg op) := by
  cases op with
  | step dtMs => exact h.step (hshort dtMs rfl) hfits
  | reset =>
      change Quota cfg ⟨w.core.reset, w.records ++ []⟩
      rw [List.append_nil]
      refine ⟨⟨rfl, h.chirps.shot, ?_⟩, ?_, ?_, h.within⟩
      · exact fun hsounding => absurd hsounding Bool.false_ne_true
      · exact fun hsounding => absurd hsounding Bool.false_ne_true
      · exact fun _ hchirping => absurd hchirping Bool.false_ne_true
  | _ =>
      change Quota cfg ⟨_, w.records ++ []⟩
      rw [List.append_nil]
      exact ⟨h.chirps, h.sounding, h.gap, h.within⟩

theorem quota_new (cfg : Config) : Quota cfg (Heard.new cfg) := by
  refine ⟨⟨rfl, rfl, ?_⟩, ?_, ?_, ?_⟩
  · exact fun hsounding => absurd hsounding Bool.false_ne_true
  · exact fun hsounding => absurd hsounding Bool.false_ne_true
  · exact fun _ hchirping => absurd hchirping Bool.false_ne_true
  · intro stretch hstretch _
    rw [List.eq_nil_of_infix_nil hstretch]
    exact Nat.zero_le _

/-- **When the buzzer stays within the limit.** -/
theorem run_stretchesWithin {cfg : Config} {ops : List CoreOp}
    (hshort : ∀ dtMs, .step dtMs ∈ ops → dtMs < cfg.chirpMs)
    (hfits : Runs.Along (Heard.exec cfg) (ChirpsFit cfg) (Heard.new cfg) ops) :
    StretchesWithin cfg.hornMaxOnMs (Heard.run cfg ops).records := by
  have hquota : Quota cfg (Heard.run cfg ops) := by
    induction ops using List.reverseRecOn with
    | nil => exact quota_new cfg
    | append_singleton ops op ih =>
        obtain ⟨hfront, hlast⟩ := Runs.along_concat.mp hfits
        have hbefore := ih (fun dtMs hdt => hshort dtMs (List.mem_append_left _ hdt)) hfront
        rw [Heard.run, Runs.run_concat]
        exact hbefore.exec (fun dtMs hop => hshort dtMs (by simp [hop])) hlast
  exact hquota.within

/-! ### Past the limit -/

theorem ChirpsOnly.run {cfg : Config} {ops : List CoreOp}
    (hshort : ∀ dtMs, .step dtMs ∈ ops → dtMs < cfg.chirpMs) :
    ChirpsOnly (Heard.run cfg ops).core.horn := by
  induction ops using List.reverseRecOn with
  | nil => exact (quota_new cfg).chirps
  | append_singleton ops op ih =>
      have hbefore := ih fun dtMs hdt => hshort dtMs (List.mem_append_left _ hdt)
      rw [Heard.run, Runs.run_concat]
      cases op with
      | step dtMs => exact hbefore.step (hshort dtMs (by simp))
      | reset => exact ⟨rfl, hbefore.shot, fun hsounding => absurd hsounding Bool.false_ne_true⟩
      | _ => exact hbefore

/-- The stretch at the end, after a cycle that leaves a chirp sounding and one that takes all but a
millisecond of what is left of it. -/
theorem heldFor_overrun {cfg : Config} {dtMs remainingMs : Nat} (w : Heard) (hpos : 0 < remainingMs)
    (hsounds : SoundsFor remainingMs (w.core.step cfg dtMs).horn)
    (hremaining : remainingMs ≤ cfg.chirpMs) :
    heldFor ((w.exec cfg (.step dtMs)).exec cfg (.step (remainingMs - 1))).records =
      heldFor w.records + dtMs + (remainingMs - 1) := by
  have hlast : ((w.core.step cfg dtMs).step cfg (remainingMs - 1)).horn.output = true := by
    cases hstarts : (w.core.step cfg dtMs).startsChirp cfg (remainingMs - 1) with
    | true => exact (soundsFor_step_of_starts (by omega) hstarts).output
    | false =>
        rw [step_horn_of_not_starts hstarts]
        refine (soundsFor_update cfg hsounds.sounding hsounds.running ?_).output
        rw [hsounds.remaining]
        omega
  change heldFor (w.records ++ [(dtMs, (w.core.step cfg dtMs).horn.output)] ++
    [(remainingMs - 1, ((w.core.step cfg dtMs).step cfg (remainingMs - 1)).horn.output)]) = _
  rw [heldFor_concat, heldFor_concat, hlast, hsounds.output, if_pos rfl, if_pos rfl]

/-- **The condition is tight.** After a chirp that does not fit, one short cycle more takes the
buzzer past the limit. -/
theorem exists_overrun {cfg : Config} {ops : List CoreOp} {dtMs : Nat}
    (hshort : ∀ dtMs, .step dtMs ∈ ops → dtMs < cfg.chirpMs) (hlast : dtMs < cfg.chirpMs)
    (hfits : ¬ ChirpFits cfg (Heard.run cfg ops) dtMs) :
    ∃ lastMs, lastMs < cfg.chirpMs ∧
      ¬ StretchesWithin cfg.hornMaxOnMs
        (Heard.run cfg (ops ++ [.step dtMs] ++ [.step lastMs])).records := by
  have hchirps := ChirpsOnly.run hshort
  have hoverrun : ∀ remainingMs, 0 < remainingMs → remainingMs ≤ cfg.chirpMs →
      SoundsFor remainingMs ((Heard.run cfg ops).core.step cfg dtMs).horn →
      cfg.hornMaxOnMs + 1 < heldFor (Heard.run cfg ops).records + dtMs + remainingMs →
        ∃ lastMs, lastMs < cfg.chirpMs ∧
          ¬ StretchesWithin cfg.hornMaxOnMs
            (Heard.run cfg (ops ++ [.step dtMs] ++ [.step lastMs])).records := by
    intro remainingMs hpos hremaining hsounds hlong
    refine ⟨remainingMs - 1, by omega, fun hwithin => ?_⟩
    have hheld := (stretchesWithin_iff _ _).mp hwithin _ (List.prefix_refl _)
    rw [Heard.run, Runs.run_concat, Runs.run_concat, ← Heard.run,
      heldFor_overrun _ hpos hsounds hremaining] at hheld
    omega
  unfold ChirpFits at hfits
  cases hstarts : (Heard.run cfg ops).core.startsChirp cfg dtMs with
  | true =>
      rw [hstarts, if_pos rfl] at hfits
      exact hoverrun (cfg.chirpMs - dtMs) (by omega) (by omega)
        (soundsFor_step_of_starts hlast hstarts) (by omega)
  | false =>
      rw [hstarts, if_neg Bool.false_ne_true, Classical.not_imp] at hfits
      obtain ⟨hsecond, hlong⟩ := hfits
      obtain ⟨hleft, hoff, hexpires⟩ := startsSecondChirp_iff.mp hsecond
      refine hoverrun cfg.chirpMs (by omega) (by omega) ?_ (by omega)
      rw [step_horn_of_not_starts hstarts]
      exact soundsFor_second hlast hleft hoff hexpires

/-! ### A buzzer that stays on -/

/-- A cycle has run, every door is shut, and nothing is pressed or asked for. -/
structure Resting (s : BcmCore) : Prop where
  cycled : s.firstCycle = false
  shut : s.inputs.doorOpen = false
  unpressed : s.doorSwitch = false
  unasked : s.hostLock = false ∧ s.hostUnlock = false

theorem resting_step (cfg : Config) (dtMs : Nat) {s : BcmCore} (hshut : s.inputs.doorOpen = false)
    (hasked : s.firstCycle = true → s.hostLock = false ∧ s.hostUnlock = false) :
    Resting (s.step cfg dtMs) := by
  obtain ⟨hlock, hunlock⟩ := s.step_host cfg dtMs
  refine ⟨s.step_firstCycle cfg dtMs, ?_, ?_, ?_⟩
  · rw [step_inputs, hshut]
  · simp [doorSwitch]
  · rw [hlock, hunlock]
    cases hfirst : s.firstCycle with
    | true =>
        obtain ⟨hnolock, hnounlock⟩ := hasked hfirst
        rw [hnolock, hnounlock]
        exact ⟨rfl, rfl⟩
    | false => exact ⟨rfl, rfl⟩

theorem requestedDoor_of_unlock (cfg : Config) {s : BcmCore} (hpress : s.doorSwitch = false)
    (hlock : s.hostLock = false) (hunlock : s.hostUnlock = true) :
    s.requestedDoor cfg = (s.door.setDoorOpen s.inputs.doorOpen).requestUnlock cfg := by
  simp [requestedDoor, hpress, hlock, hunlock]

theorem requestedDoor_of_lock (cfg : Config) {s : BcmCore} (hpress : s.doorSwitch = false)
    (hlock : s.hostLock = true) (hunlock : s.hostUnlock = false) :
    s.requestedDoor cfg = (s.door.setDoorOpen s.inputs.doorOpen).requestLock := by
  simp [requestedDoor, hpress, hlock, hunlock]

/-- An unlock asked for in Locked is taken, and welcomes for longer than the cycle. -/
theorem Resting.unlocks {cfg : Config} {dtMs : Nat} (hwelcome : dtMs < cfg.welcomeDurationMs)
    {s : BcmCore} (hrest : Resting s) (hlocked : s.door.state = .locked) :
    (s.requestDoorUnlock.step cfg dtMs).door.state = .welcome ∧
      s.requestDoorUnlock.startsChirp cfg dtMs = true := by
  have hdoor : (s.requestDoorUnlock.applyEdges cfg dtMs).door =
      (s.door.setDoorOpen s.inputs.doorOpen).requestUnlock cfg := by
    have hcycled : s.requestDoorUnlock.firstCycle = false := hrest.cycled
    rw [applyEdges_door, hcycled, if_neg Bool.false_ne_true]
    exact requestedDoor_of_unlock cfg (s := s.requestDoorUnlock) hrest.unpressed hrest.unasked.1 rfl
  have hfrom : (s.door.setDoorOpen s.inputs.doorOpen).state = .locked := hlocked
  generalize s.door.setDoorOpen s.inputs.doorOpen = d at hdoor hfrom
  obtain ⟨htimer, hautoLock, hctx⟩ := DoorMgr.requestUnlock_of_locked cfg hfrom
  have hstate := d.requestUnlock_state cfg
  rw [if_pos hfrom] at hstate
  have hwaits : (d.requestUnlock cfg).welcome.expires dtMs = false := by
    rw [htimer, ← Bool.not_eq_true, SoftTimer.expires_eq_true_iff, SoftTimer.start_remaining]
    omega
  have hstopped : (d.requestUnlock cfg).autoLock.expires dtMs = false :=
    SoftTimer.expires_of_stopped (by rw [hautoLock]; rfl) dtMs
  have hquiet := DoorMgr.update_of_quiet cfg hwaits hstopped
  constructor
  · rw [step_door, hdoor, hquiet]
    exact hstate
  · rw [startsChirp, hdoor, hquiet, hctx]
    exact Bool.or_true _

/-- A lock asked for in Welcome is taken. -/
theorem Resting.locks (cfg : Config) (dtMs : Nat) {s : BcmCore} (hrest : Resting s)
    (hwelcome : s.door.state = .welcome) :
    (s.requestDoorLock.step cfg dtMs).door.state = .locked ∧
      s.requestDoorLock.startsChirp cfg dtMs = true := by
  have hdoor : (s.requestDoorLock.applyEdges cfg dtMs).door =
      (s.door.setDoorOpen s.inputs.doorOpen).requestLock := by
    have hcycled : s.requestDoorLock.firstCycle = false := hrest.cycled
    rw [applyEdges_door, hcycled, if_neg Bool.false_ne_true]
    exact requestedDoor_of_lock cfg (s := s.requestDoorLock) hrest.unpressed rfl hrest.unasked.2
  have hfrom : (s.door.setDoorOpen s.inputs.doorOpen).state ≠ .locked := by
    change s.door.state ≠ .locked
    rw [hwelcome]
    decide
  have hshut : (s.door.setDoorOpen s.inputs.doorOpen).ctx.doorOpen = false := hrest.shut
  generalize s.door.setDoorOpen s.inputs.doorOpen = d at hdoor hfrom hshut
  obtain ⟨hstate, hctx, htimer, hautoLock⟩ := DoorMgr.requestLock_of_shut hshut hfrom
  have hquiet := DoorMgr.update_of_quiet cfg (d := d.requestLock)
    (SoftTimer.expires_of_stopped (by rw [htimer]; rfl) dtMs)
    (SoftTimer.expires_of_stopped (by rw [hautoLock]; rfl) dtMs)
  constructor
  · rw [step_door, hdoor, hquiet]
    exact hstate
  · rw [startsChirp, hdoor, hquiet, hctx]
    exact Bool.true_or _

/-- Rounds of an unlock and a lock that the host asks for, each a cycle after the other. -/
def alternatingOps (dtMs : Nat) : Nat → List CoreOp
  | 0 => [.step dtMs]
  | rounds + 1 =>
      alternatingOps dtMs rounds ++ [.requestDoorUnlock, .step dtMs] ++
        [.requestDoorLock, .step dtMs]

theorem heldFor_step_of_starts {cfg : Config} {dtMs : Nat} (hshort : dtMs < cfg.chirpMs) {w : Heard}
    (hstarts : w.core.startsChirp cfg dtMs = true) :
    heldFor (w.exec cfg (.step dtMs)).records = heldFor w.records + dtMs := by
  change heldFor (w.records ++ [(dtMs, (w.core.step cfg dtMs).horn.output)]) = _
  rw [heldFor_concat, (soundsFor_step_of_starts hshort hstarts).output, if_pos rfl]

/-- The first half of a round. -/
theorem Resting.run_unlock {cfg : Config} {dtMs : Nat} (hshort : dtMs < cfg.chirpMs)
    (hwelcome : dtMs < cfg.welcomeDurationMs) {w : Heard} (hrest : Resting w.core)
    (hlocked : w.core.door.state = .locked) :
    Resting (Runs.run (Heard.exec cfg) w [.requestDoorUnlock, .step dtMs]).core ∧
      (Runs.run (Heard.exec cfg) w [.requestDoorUnlock, .step dtMs]).core.door.state = .welcome ∧
      heldFor (Runs.run (Heard.exec cfg) w [.requestDoorUnlock, .step dtMs]).records =
        heldFor w.records + dtMs := by
  obtain ⟨hopened, hstarts⟩ := hrest.unlocks hwelcome hlocked
  have hasked : (Heard.exec cfg w .requestDoorUnlock).records = w.records :=
    List.append_nil w.records
  refine ⟨?_, hopened, ?_⟩
  · apply resting_step cfg dtMs (s := w.core.requestDoorUnlock) hrest.shut
    exact fun hfirst => absurd (hrest.cycled.symm.trans hfirst) (by decide)
  · rw [← hasked]
    exact heldFor_step_of_starts hshort hstarts

/-- The second half. -/
theorem Resting.run_lock {cfg : Config} {dtMs : Nat} (hshort : dtMs < cfg.chirpMs) {w : Heard}
    (hrest : Resting w.core) (hopened : w.core.door.state = .welcome) :
    Resting (Runs.run (Heard.exec cfg) w [.requestDoorLock, .step dtMs]).core ∧
      (Runs.run (Heard.exec cfg) w [.requestDoorLock, .step dtMs]).core.door.state = .locked ∧
      heldFor (Runs.run (Heard.exec cfg) w [.requestDoorLock, .step dtMs]).records =
        heldFor w.records + dtMs := by
  obtain ⟨hlocked, hstarts⟩ := hrest.locks cfg dtMs hopened
  have hasked : (Heard.exec cfg w .requestDoorLock).records = w.records :=
    List.append_nil w.records
  refine ⟨?_, hlocked, ?_⟩
  · apply resting_step cfg dtMs (s := w.core.requestDoorLock) hrest.shut
    exact fun hfirst => absurd (hrest.cycled.symm.trans hfirst) (by decide)
  · rw [← hasked]
    exact heldFor_step_of_starts hshort hstarts

/-- **A buzzer that stays on.** Every round adds its two cycles to the same stretch. -/
theorem heldFor_alternating {cfg : Config} {dtMs : Nat} (hshort : dtMs < cfg.chirpMs)
    (hwelcome : dtMs < cfg.welcomeDurationMs) (rounds : Nat) :
    Resting (Heard.run cfg (alternatingOps dtMs rounds)).core ∧
      (Heard.run cfg (alternatingOps dtMs rounds)).core.door.state = .locked ∧
      rounds * (dtMs + dtMs) ≤ heldFor (Heard.run cfg (alternatingOps dtMs rounds)).records := by
  induction rounds with
  | zero =>
      refine ⟨resting_step cfg dtMs rfl fun _ => ⟨rfl, rfl⟩, ?_, by omega⟩
      change ((BcmCore.new cfg).step cfg dtMs).door.state = .locked
      rw [step_door]
      exact DoorMgr.update_state_of_quiet cfg rfl rfl
  | succ rounds ih =>
      obtain ⟨hrest, hlocked, hheld⟩ := ih
      rw [alternatingOps, Heard.run, Runs.run_append, Runs.run_append, ← Heard.run]
      obtain ⟨hrest', hopened, hhalf⟩ := hrest.run_unlock hshort hwelcome hlocked
      obtain ⟨hrest'', hlocked', hround⟩ := hrest'.run_lock hshort hopened
      refine ⟨hrest'', hlocked', ?_⟩
      rw [hround, hhalf, Nat.succ_mul, ← Nat.add_assoc]
      omega

theorem mem_alternatingOps {dtMs stepMs rounds : Nat}
    (h : CoreOp.step stepMs ∈ alternatingOps dtMs rounds) : stepMs = dtMs := by
  induction rounds with
  | zero => simpa [alternatingOps] using h
  | succ rounds ih =>
      simp only [alternatingOps, List.mem_append, List.mem_cons, List.not_mem_nil, reduceCtorEq,
        CoreOp.step.injEq, or_false, false_or] at h
      rcases h with (hbefore | hdt) | hdt
      · exact ih hbefore
      · exact hdt
      · exact hdt

/-- One round stays far below the limit. -/
theorem run_stretchesWithin_round :
    StretchesWithin Config.shipped.hornMaxOnMs
      (Heard.run .shipped (alternatingOps 5 1)).records :=
  run_stretchesWithin (fun dtMs hdt => by rw [mem_alternatingOps hdt]; decide) (by decide +kernel)

/-- With the shipped values, 64 rounds of cycles shorter than a chirp keep the buzzer on for more
than the 10 s of the limit. -/
theorem not_stretchesWithin_shipped :
    Config.shipped.chirpMs ≤ Config.shipped.hornMaxOnMs ∧
      (∀ dtMs, .step dtMs ∈ alternatingOps 79 64 → dtMs < Config.shipped.chirpMs) ∧
      ¬ StretchesWithin Config.shipped.hornMaxOnMs
        (Heard.run .shipped (alternatingOps 79 64)).records := by
  refine ⟨by decide, fun dtMs hdt => by rw [mem_alternatingOps hdt]; decide, fun hwithin => ?_⟩
  have hlong := (@heldFor_alternating .shipped 79 (by decide) (by decide) 64).2.2
  have hheld := (stretchesWithin_iff _ _).mp hwithin _ (List.prefix_refl _)
  have hlimit : Config.shipped.hornMaxOnMs = 10000 := rfl
  omega

end Bcm.BcmCore
