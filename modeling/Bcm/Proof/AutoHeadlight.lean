import Bcm.Lib.Runs
import Bcm.Lighting

/-!
# The thresholds of the auto-headlight

The trigger is fed the complement of the reading, while its two thresholds are the configured ones
as they are. So the light comes on where the complement reaches the threshold for switching off, and
goes off where it falls to the threshold for switching on. That is what the configuration says only
if the two thresholds are complements of each other.
-/

namespace Bcm.LightingMgr

/-- The manager after some ambient readings and nothing else. -/
def afterReadings (cfg : Config) (readings : List Nat) : LightingMgr :=
  Runs.run updateAmbient (new cfg) readings

/-- A manager the driver has not touched: the light follows the trigger. -/
structure Automatic (cfg : Config) (m : LightingMgr) : Prop where
  low : m.dark.low = cfg.ambientDarkPermille
  high : m.dark.high = cfg.ambientLightPermille
  manual : m.ctx.manualOverride = false
  auto : m.ctx.autoHeadlightActive = m.dark.state
  light : m.lightState = if m.dark.state then .lowBeam else .off
  known : m.dark.state = true → m.darkKnown = true

theorem Automatic.isDark {cfg : Config} {m : LightingMgr} (h : Automatic cfg m) (permille : Nat) :
    m.isDark permille = true ↔
      if m.dark.state then cfg.ambientDarkPermille < complement permille
      else cfg.ambientLightPermille ≤ complement permille := by
  unfold LightingMgr.isDark Hysteresis.update
  rw [h.low, h.high]
  cases m.dark.state <;> simp

/-- After a reading the light is on exactly when the trigger is dark. -/
theorem Automatic.updateAmbient_light {cfg : Config} {m : LightingMgr} (h : Automatic cfg m)
    (permille : Nat) :
    ((m.updateAmbient permille).lightState, (m.updateAmbient permille).ctx) =
      if m.isDark permille then (.lowBeam, m.ctx.markAuto) else (.off, m.ctx.clearAuto) := by
  have hlight := h.light
  have hauto := h.auto
  have hmanual := h.manual
  rw [LightingMgr.updateAmbient_light]
  cases hstate : m.dark.state with
  | false =>
      rw [hstate] at hlight hauto
      have hyields : m.yieldsToAuto = true := by simp [yieldsToAuto, hlight, hmanual]
      have hheld : m.heldByAuto = false := by simp [heldByAuto, hauto]
      have hctx : m.ctx.clearAuto = m.ctx := by
        rw [LightingContext.clearAuto, ← hauto]
      rw [hyields, hheld, hlight, hctx]
      simp
  | true =>
      rw [hstate] at hlight hauto
      have hyields : m.yieldsToAuto = false := by simp [yieldsToAuto, hlight]
      have hheld : m.heldByAuto = true := by simp [heldByAuto, hlight, hauto]
      have hctx : m.ctx.markAuto = m.ctx := by
        rw [LightingContext.markAuto, ← hauto]
      rw [hyields, hheld, hlight, hctx, h.known hstate]
      simp

theorem Automatic.step {cfg : Config} {m : LightingMgr} (h : Automatic cfg m) (permille : Nat) :
    Automatic cfg (m.updateAmbient permille) := by
  obtain ⟨hdark, hknown⟩ := m.updateAmbient_dark permille
  have hboth := h.updateAmbient_light permille
  have hverdict : (m.updateAmbient permille).dark.state = m.isDark permille := by
    rw [hdark]
    rfl
  cases hisDark : m.isDark permille with
  | true =>
      rw [hisDark, if_pos rfl, Prod.mk.injEq] at hboth
      obtain ⟨hlight, hctx⟩ := hboth
      rw [hisDark] at hverdict
      exact ⟨by rw [hdark]; exact h.low, by rw [hdark]; exact h.high, by rw [hctx]; exact h.manual,
        by rw [hctx, hverdict]; rfl, by rw [hlight, hverdict]; rfl, fun _ => hknown⟩
  | false =>
      rw [hisDark, if_neg (by decide), Prod.mk.injEq] at hboth
      obtain ⟨hlight, hctx⟩ := hboth
      rw [hisDark] at hverdict
      exact ⟨by rw [hdark]; exact h.low, by rw [hdark]; exact h.high, by rw [hctx]; exact h.manual,
        by rw [hctx, hverdict]; rfl, by rw [hlight, hverdict]; rfl, fun _ => hknown⟩

theorem automatic_afterReadings (cfg : Config) (readings : List Nat) :
    Automatic cfg (afterReadings cfg readings) := by
  induction readings using List.reverseRecOn with
  | nil => exact ⟨rfl, rfl, rfl, rfl, rfl, fun hdark => absurd hdark (by simp [afterReadings, new])⟩
  | append_singleton readings permille ih =>
      rw [afterReadings, Runs.run_concat]
      exact ih.step permille

/-- What the configuration says of one reading: the light goes on only at or below the dark
threshold, goes off only at or above the light threshold, and below the dark threshold does go
on. -/
structure ObeysThresholds (cfg : Config) (m : LightingMgr) (permille : Nat) : Prop where
  goesOn : m.lightState = .off → (m.updateAmbient permille).lightState = .lowBeam →
    permille ≤ cfg.ambientDarkPermille
  goesOff : m.lightState = .lowBeam → (m.updateAmbient permille).lightState = .off →
    cfg.ambientLightPermille ≤ permille
  turnsOn : m.lightState = .off → permille < cfg.ambientDarkPermille →
    (m.updateAmbient permille).lightState = .lowBeam

theorem Automatic.goesOn_iff {cfg : Config} {m : LightingMgr} (h : Automatic cfg m)
    (hoff : m.lightState = .off) (permille : Nat) :
    (m.updateAmbient permille).lightState = .lowBeam ↔
      cfg.ambientLightPermille ≤ complement permille := by
  have hstate : m.dark.state = false := by
    by_contra hdark
    have hlight := h.light
    rw [hoff, if_pos (by simpa using hdark)] at hlight
    exact absurd hlight (by decide)
  have hisDark := h.isDark permille
  have hboth := h.updateAmbient_light permille
  rw [hstate, if_neg (by decide)] at hisDark
  rw [← hisDark]
  cases hverdict : m.isDark permille <;> rw [hverdict] at hboth <;> simp_all

theorem Automatic.goesOff_iff {cfg : Config} {m : LightingMgr} (h : Automatic cfg m)
    (hon : m.lightState = .lowBeam) (permille : Nat) :
    (m.updateAmbient permille).lightState = .off ↔
      complement permille ≤ cfg.ambientDarkPermille := by
  have hstate : m.dark.state = true := by
    by_contra hdark
    have hlight := h.light
    rw [hon, if_neg hdark] at hlight
    exact absurd hlight (by decide)
  have hisDark := h.isDark permille
  have hboth := h.updateAmbient_light permille
  rw [hstate, if_pos rfl] at hisDark
  rw [← not_lt, ← hisDark]
  cases hverdict : m.isDark permille <;> rw [hverdict] at hboth <;> simp_all

/-- **The thresholds are obeyed, exactly.** With the dark threshold below the light one and both on
the scale, every reading of every sequence of readings is treated as configured if and only if the
two thresholds add up to the full scale. -/
theorem obeysThresholds_iff {cfg : Config}
    (hlt : cfg.ambientDarkPermille < cfg.ambientLightPermille)
    (hscale : cfg.ambientLightPermille ≤ 1000) :
    (∀ readings permille, ObeysThresholds cfg (afterReadings cfg readings) permille) ↔
      cfg.ambientDarkPermille + cfg.ambientLightPermille = 1000 := by
  have hcomplement : ∀ value ≤ 1000, complement (1000 - value) = value := by
    intro value hvalue
    rw [complement, if_neg (by omega)]
    omega
  constructor
  · intro hobeys
    have hfresh := automatic_afterReadings cfg []
    have hon : (afterReadings cfg [1000 - cfg.ambientLightPermille]).lightState = .lowBeam :=
      (hfresh.goesOn_iff rfl _).mpr (hcomplement _ hscale).ge
    have hoff := ((automatic_afterReadings cfg [1000 - cfg.ambientLightPermille]).goesOff_iff hon
      (1000 - cfg.ambientDarkPermille)).mpr (hcomplement _ (by omega)).le
    -- the brightest reading that switches on, and then the darkest that switches off
    have hgoesOn := (hobeys [] (1000 - cfg.ambientLightPermille)).goesOn rfl hon
    have hgoesOff := (hobeys [1000 - cfg.ambientLightPermille]
      (1000 - cfg.ambientDarkPermille)).goesOff hon hoff
    omega
  · intro hsum readings permille
    have hauto := automatic_afterReadings cfg readings
    constructor
    · intro hoff hgoes
      have hreaches := (hauto.goesOn_iff hoff permille).mp hgoes
      unfold complement at hreaches
      split at hreaches
      · omega
      · omega
    · intro hon hgoes
      have hfalls := (hauto.goesOff_iff hon permille).mp hgoes
      unfold complement at hfalls
      split at hfalls
      · omega
      · omega
    · intro hoff hbelow
      refine (hauto.goesOn_iff hoff permille).mpr ?_
      unfold complement
      split
      · omega
      · omega

/-- The shipped configuration with thresholds of 400 and 600, which add up. -/
def balanced : Config :=
  { Config.shipped with ambientDarkPermille := 400, ambientLightPermille := 600 }

/-- At dusk, and then between the thresholds. -/
theorem obeysThresholds_balanced :
    ObeysThresholds balanced (afterReadings balanced [350, 500]) 650 :=
  (obeysThresholds_iff (by decide) (by decide)).mpr (by decide) [350, 500] 650

/-- The shipped thresholds are 300 and 400, and the light comes on at a reading of 600. -/
theorem not_obeysThresholds_shipped :
    ¬ ∀ readings permille, ObeysThresholds .shipped (afterReadings .shipped readings) permille := by
  intro hobeys
  have hgoesOn := (hobeys [] 600).goesOn (by decide) (by decide)
  exact absurd hgoesOn (by decide)

end Bcm.LightingMgr
