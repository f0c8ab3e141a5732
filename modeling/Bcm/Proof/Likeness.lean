import Bcm.CoreRun
import Bcm.Proof.EventLog

/-!
# What the core never reads

The counters of the machines, what a stopped timer holds, the cells of the log outside its queue, a
host request under an empty mask: no operation of the core reads any of these, and none of them
shows. Two cores that differ in nothing else are alike, and they stay alike under every operation.
-/

namespace Bcm

/-- Nothing is read of a timer that does not run. -/
def SoftTimer.Alike (t t' : SoftTimer) : Prop :=
  t = t' ∨ t.running = false ∧ t'.running = false

namespace SoftTimer.Alike

variable {t t' : SoftTimer}

theorem of_stop (t t' : SoftTimer) : Alike t.stop t'.stop := Or.inr ⟨rfl, rfl⟩

theorem update (h : Alike t t') (dtMs : Nat) :
    t.expires dtMs = t'.expires dtMs ∧ Alike (t.advance dtMs) (t'.advance dtMs) := by
  rcases h with rfl | ⟨hstopped, hstopped'⟩
  · exact ⟨rfl, Or.inl rfl⟩
  · rw [expires_of_stopped hstopped, expires_of_stopped hstopped', advance_of_stopped hstopped,
      advance_of_stopped hstopped']
    exact ⟨rfl, Or.inr ⟨hstopped, hstopped'⟩⟩

end SoftTimer.Alike

/-- Triggers that give the same verdict on every value that can come. -/
structure Hysteresis.Alike (admits : Nat → Prop) (h h' : Hysteresis) : Prop where
  low : h.low = h'.low
  high : h.high = h'.high
  verdict : ∀ v, admits v → (h.update v).1 = (h'.update v).1

namespace Hysteresis

theorem Alike.refl (admits : Nat → Prop) (h : Hysteresis) : Alike admits h h :=
  ⟨rfl, rfl, fun _ _ => rfl⟩

theorem Alike.update {admits : Nat → Prop} {h h' : Hysteresis} (halike : Alike admits h h')
    {v : Nat} (hv : admits v) : (h.update v).2 = (h'.update v).2 := by
  have hverdict := halike.verdict v hv
  have hafter : ∀ h : Hysteresis, (h.update v).2 = ⟨h.low, h.high, (h.update v).1⟩ := fun _ => rfl
  rw [hafter, hafter, halike.low, halike.high, hverdict]

end Hysteresis

/-! ### Lighting -/

/-- What the ambient trigger sees is never above 1000. -/
structure LightingMgr.Alike (m m' : LightingMgr) : Prop where
  light : m.light.state = m'.light.state
  indicator : m.indicator.state = m'.indicator.state
  ctx : m.ctx = m'.ctx
  indCtx : m.indCtx = m'.indCtx
  dark : m.dark.Alike (· ≤ 1000) m'.dark
  darkKnown : m.darkKnown = m'.darkKnown

namespace LightingMgr.Alike

variable {m m' : LightingMgr}

theorem lightEvent (h : Alike m m') (event : LightEvent) :
    Alike (m.lightEvent event) (m'.lightEvent event) := by
  obtain ⟨-, hstate, hctx, -⟩ := Fsm.dispatch_congr lightTable h.light event m.ctx
  unfold LightingMgr.lightEvent
  rw [← h.ctx]
  exact { h with light := hstate, ctx := hctx }

theorem indicatorEvent (h : Alike m m') (event : IndEvent) :
    Alike (m.indicatorEvent event) (m'.indicatorEvent event) := by
  obtain ⟨-, hstate, hctx, -⟩ := Fsm.dispatch_congr indTable h.indicator event m.indCtx
  unfold LightingMgr.indicatorEvent
  rw [← h.indCtx]
  exact { h with indicator := hstate, indCtx := hctx }

theorem nextMode (h : Alike m m') : Alike m.nextMode m'.nextMode := h.lightEvent .modeNext

theorem allOff (h : Alike m m') : Alike m.allOff m'.allOff :=
  { h.lightEvent .allOff with light := rfl }

theorem indicatorHazard (h : Alike m m') : Alike m.indicatorHazard m'.indicatorHazard := by
  unfold LightingMgr.indicatorHazard
  rw [h.indCtx]
  split
  · exact h.indicatorEvent .cancel
  · exact h.indicatorEvent .hazardPressed

theorem complement_le (permille : Nat) : complement permille ≤ 1000 := by
  unfold complement
  split
  · exact Nat.zero_le 1000
  · exact Nat.sub_le 1000 permille

theorem updateAmbient (h : Alike m m') (permille : Nat) :
    Alike (m.updateAmbient permille) (m'.updateAmbient permille) := by
  have hv := complement_le permille
  have hverdict : m.isDark permille = m'.isDark permille := h.dark.verdict _ hv
  have hafter : (m.dark.update (complement permille)).2 =
      (m'.dark.update (complement permille)).2 := h.dark.update hv
  have hread : Alike (m.takeReading permille) (m'.takeReading permille) := by
    refine { h with dark := ?_, darkKnown := rfl }
    unfold takeReading
    rw [hafter]
    exact Hysteresis.Alike.refl _ _
  rw [updateAmbient_eq, updateAmbient_eq, hverdict, h.darkKnown]
  split
  · exact hread
  · split
    · exact hread.lightEvent .autoOn
    · exact hread.lightEvent .autoOff

theorem reset (h : Alike m m') : Alike m.reset m'.reset where
  light := rfl
  indicator := rfl
  ctx := rfl
  indCtx := rfl
  dark := h.dark
  darkKnown := rfl

theorem apply_eq (h : Alike m m') (out : LampState) : m.apply out = m'.apply out := by
  unfold LightingMgr.apply applyIndicator applyLight lightState indicatorState
  rw [h.light, h.indicator]

end LightingMgr.Alike

/-! ### Doors -/

structure DoorMgr.Alike (d d' : DoorMgr) : Prop where
  state : d.fsm.state = d'.fsm.state
  ctx : d.ctx = d'.ctx
  welcome : d.welcome.Alike d'.welcome
  autoLock : d.autoLock.Alike d'.autoLock

namespace DoorMgr.Alike

variable {d d' : DoorMgr}

theorem dispatch (h : Alike d d') (event : DoorEvent) :
    (d.dispatch event).1 = (d'.dispatch event).1 ∧
      Alike (d.dispatch event).2 (d'.dispatch event).2 ∧
      ((d.dispatch event).2.fsm.blocked = d.fsm.blocked ↔
        (d'.dispatch event).2.fsm.blocked = d'.fsm.blocked) := by
  obtain ⟨hfired, hstate, hctx, hblocked⟩ := Fsm.dispatch_congr doorTable h.state event d.ctx
  unfold DoorMgr.dispatch
  rw [← h.ctx]
  exact ⟨hfired, { h with state := hstate, ctx := hctx }, hblocked⟩

theorem setDoorOpen (h : Alike d d') (isOpen : Bool) :
    Alike (d.setDoorOpen isOpen) (d'.setDoorOpen isOpen) :=
  { h with ctx := by rw [DoorMgr.setDoorOpen, DoorMgr.setDoorOpen, h.ctx] }

theorem requestLock (h : Alike d d') : Alike d.requestLock d'.requestLock := by
  obtain ⟨hfired, hmoved, hblocked⟩ := h.dispatch .lockRequest
  unfold DoorMgr.requestLock
  dsimp only
  refine Runs.rel_ite (by rw [hfired]) (Runs.rel_ite (not_congr hblocked) ?_ hmoved) ?_
  · exact { hmoved with ctx := by rw [hmoved.ctx] }
  · exact { hmoved with welcome := .of_stop _ _, autoLock := .of_stop _ _ }

theorem requestUnlock (h : Alike d d') (cfg : Config) :
    Alike (d.requestUnlock cfg) (d'.requestUnlock cfg) := by
  obtain ⟨hfired, hmoved, -⟩ := h.dispatch .unlockRequest
  unfold DoorMgr.requestUnlock
  dsimp only
  refine Runs.rel_ite (by rw [hfired]) ?_ hmoved
  exact { hmoved with welcome := Or.inl rfl, autoLock := .of_stop _ _ }

theorem updateWelcome (h : Alike d d') (cfg : Config) (dtMs : Nat) :
    Alike (d.updateWelcome cfg dtMs) (d'.updateWelcome cfg dtMs) := by
  obtain ⟨hexpires, htimer⟩ := h.welcome.update dtMs
  have hcounted : Alike { d with welcome := d.welcome.advance dtMs }
      { d' with welcome := d'.welcome.advance dtMs } := { h with welcome := htimer }
  obtain ⟨-, hmoved, -⟩ := hcounted.dispatch .welcomeExpired
  unfold DoorMgr.updateWelcome
  dsimp only
  refine Runs.rel_ite (Bool.eq_iff_iff.mp hexpires) ?_ hcounted
  exact { hmoved with autoLock := Or.inl rfl }

theorem updateAutoLock (h : Alike d d') (cfg : Config) (dtMs : Nat) :
    Alike (d.updateAutoLock cfg dtMs) (d'.updateAutoLock cfg dtMs) := by
  obtain ⟨hexpires, htimer⟩ := h.autoLock.update dtMs
  have hcounted : Alike { d with autoLock := d.autoLock.advance dtMs }
      { d' with autoLock := d'.autoLock.advance dtMs } := { h with autoLock := htimer }
  obtain ⟨hfired, hmoved, -⟩ := hcounted.dispatch .autoLockElapsed
  unfold DoorMgr.updateAutoLock
  dsimp only
  refine Runs.rel_ite (Bool.eq_iff_iff.mp hexpires) ?_ hcounted
  refine Runs.rel_ite (Bool.eq_iff_iff.mp (congrArg (!·) hfired)) ?_ hmoved
  exact { hmoved with autoLock := Or.inl rfl }

theorem withCtx (h : Alike d d') {ctx ctx' : DoorContext} (hctx : ctx = ctx') :
    Alike { d with ctx := ctx } { d' with ctx := ctx' } :=
  { h with ctx := hctx }

theorem reset (d d' : DoorMgr) : Alike d.reset d'.reset where
  state := rfl
  ctx := rfl
  welcome := .of_stop _ _
  autoLock := .of_stop _ _

theorem apply_eq (h : Alike d d') (out : LampState) : d.apply out = d'.apply out := by
  unfold DoorMgr.apply DoorMgr.state
  rw [h.state]

end DoorMgr.Alike

/-! ### Power -/

structure PowerMgr.Alike (p p' : PowerMgr) : Prop where
  state : p.fsm.state = p'.fsm.state
  ctx : p.ctx = p'.ctx
  batteryOk : p.batteryOk.Alike (fun _ => True) p'.batteryOk
  transition : p.transition.Alike p'.transition
  inactivity : p.inactivity.Alike p'.inactivity
  batteryKnown : p.batteryKnown = p'.batteryKnown

namespace PowerMgr.Alike

variable {p p' : PowerMgr}

theorem dispatch (h : Alike p p') (event : PowerEvent) :
    (p.dispatch event).1 = (p'.dispatch event).1 ∧
      Alike (p.dispatch event).2 (p'.dispatch event).2 := by
  obtain ⟨hfired, hstate, hctx, -⟩ := Fsm.dispatch_congr powerTable h.state event p.ctx
  unfold PowerMgr.dispatch
  rw [← h.ctx]
  exact ⟨hfired, { h with state := hstate, ctx := hctx }⟩

theorem state_iff (h : Alike p p') (s : PowerState) : p.state = s ↔ p'.state = s := by
  unfold PowerMgr.state
  rw [h.state]

theorem ignitionOn (h : Alike p p') (cfg : Config) :
    Alike (p.ignitionOn cfg) (p'.ignitionOn cfg) := by
  obtain ⟨hfired, hmoved⟩ := h.dispatch .ignitionOn
  unfold PowerMgr.ignitionOn
  dsimp only
  refine Runs.rel_ite (by rw [hfired]) ?_ hmoved
  have hwoken : Alike
      (if (p.dispatch .ignitionOn).2.state = .wake then
        { (p.dispatch .ignitionOn).2 with
          transition := (p.dispatch .ignitionOn).2.transition.start wakeMs }
      else (p.dispatch .ignitionOn).2)
      (if (p'.dispatch .ignitionOn).2.state = .wake then
        { (p'.dispatch .ignitionOn).2 with
          transition := (p'.dispatch .ignitionOn).2.transition.start wakeMs }
      else (p'.dispatch .ignitionOn).2) :=
    Runs.rel_ite (hmoved.state_iff _) { hmoved with transition := Or.inl rfl } hmoved
  exact Runs.rel_ite (hwoken.state_iff _) { hwoken with inactivity := Or.inl rfl } hwoken

theorem ignitionOff (h : Alike p p') : Alike p.ignitionOff p'.ignitionOff := by
  obtain ⟨hfired, hmoved⟩ := h.dispatch .ignitionOff
  unfold PowerMgr.ignitionOff
  dsimp only
  refine Runs.rel_ite (by rw [hfired]) ?_ hmoved
  exact { hmoved with transition := Or.inl rfl, inactivity := .of_stop _ _ }

theorem updateBattery (h : Alike p p') (permille : Nat) :
    Alike (p.updateBattery permille) (p'.updateBattery permille) := by
  have hverdict := h.batteryOk.verdict permille trivial
  have htrigger : (p.batteryOk.update permille).2.Alike (fun _ => True)
      (p'.batteryOk.update permille).2 := by
    rw [h.batteryOk.update trivial]
    exact Hysteresis.Alike.refl _ _
  unfold PowerMgr.updateBattery
  dsimp only
  refine Runs.rel_ite (by rw [h.batteryKnown]) ?_ ?_
  · exact { h with batteryOk := htrigger, batteryKnown := rfl }
  · exact { h with batteryOk := htrigger, ctx := congrArg (fun ok => PowerContext.mk !ok) hverdict }

theorem updateTransition (h : Alike p p') (cfg : Config) (dtMs : Nat) :
    Alike (p.updateTransition cfg dtMs) (p'.updateTransition cfg dtMs) := by
  obtain ⟨hexpires, htimer⟩ := h.transition.update dtMs
  have hcounted : Alike { p with transition := p.transition.advance dtMs }
      { p' with transition := p'.transition.advance dtMs } := { h with transition := htimer }
  unfold PowerMgr.updateTransition
  dsimp only
  refine Runs.rel_ite (Bool.eq_iff_iff.mp hexpires) ?_ hcounted
  refine Runs.rel_ite (hcounted.state_iff _) ?_ (Runs.rel_ite (hcounted.state_iff _) ?_ hcounted)
  · exact { (hcounted.dispatch .wakeComplete).2 with inactivity := Or.inl rfl }
  · exact (hcounted.dispatch .shutdownComplete).2

theorem updateInactivity (h : Alike p p') (dtMs : Nat) :
    Alike (p.updateInactivity dtMs) (p'.updateInactivity dtMs) := by
  obtain ⟨hexpires, htimer⟩ := h.inactivity.update dtMs
  have hcounted : Alike { p with inactivity := p.inactivity.advance dtMs }
      { p' with inactivity := p'.inactivity.advance dtMs } := { h with inactivity := htimer }
  obtain ⟨hfired, hmoved⟩ := hcounted.dispatch .inactivityElapsed
  unfold PowerMgr.updateInactivity
  dsimp only
  refine Runs.rel_ite (Bool.eq_iff_iff.mp hexpires) ?_ hcounted
  refine Runs.rel_ite (Bool.eq_iff_iff.mp hfired) ?_ hmoved
  exact { hmoved with transition := Or.inl rfl }

theorem update (h : Alike p p') (cfg : Config) (dtMs : Nat) :
    Alike (p.update cfg dtMs) (p'.update cfg dtMs) :=
  (h.updateTransition cfg dtMs).updateInactivity dtMs

theorem reset (h : Alike p p') : Alike p.reset p'.reset where
  state := rfl
  ctx := rfl
  batteryOk := h.batteryOk
  transition := .of_stop _ _
  inactivity := .of_stop _ _
  batteryKnown := rfl

theorem apply_eq (h : Alike p p') (out : LampState) : p.apply out = p'.apply out := by
  unfold PowerMgr.apply PowerMgr.state
  rw [h.state]

end PowerMgr.Alike

/-! ### Horn -/

structure HornMgr.Alike (h h' : HornMgr) : Prop where
  timer : h.timer.Alike h'.timer
  chirpsLeft : h.chirpsLeft = h'.chirpsLeft
  chirpOn : h.chirpOn = h'.chirpOn
  continuous : h.continuous = h'.continuous
  output : h.output = h'.output
  onTimeMs : h.onTimeMs = h'.onTimeMs

namespace HornMgr.Alike

variable {h h' : HornMgr}

theorem chirp (halike : Alike h h') (cfg : Config) (count : Nat) :
    Alike (h.chirp cfg count) (h'.chirp cfg count) :=
  Runs.rel_ite Iff.rfl halike
    { halike with chirpsLeft := rfl, chirpOn := rfl, timer := Or.inl rfl }

theorem sound (halike : Alike h h') :
    Alike { h with output := decide (0 < h.chirpsLeft) && h.chirpOn }
      { h' with output := decide (0 < h'.chirpsLeft) && h'.chirpOn } :=
  { halike with output := by rw [halike.chirpsLeft, halike.chirpOn] }

theorem update (halike : Alike h h') (cfg : Config) (dtMs : Nat) :
    Alike (h.update cfg dtMs) (h'.update cfg dtMs) := by
  obtain ⟨hexpires, htimer⟩ := halike.timer.update dtMs
  have hcounted : Alike { h with timer := h.timer.advance dtMs }
      { h' with timer := h'.timer.advance dtMs } := { halike with timer := htimer }
  unfold HornMgr.update
  dsimp only
  refine Runs.rel_ite (by rw [halike.chirpsLeft]) (sound ?_) (Runs.rel_ite ?_ ?_ ?_)
  · refine Runs.rel_ite (Bool.eq_iff_iff.mp hexpires) (Runs.rel_ite ?_ ?_ ?_) hcounted
    · rw [halike.chirpOn]
    · exact { hcounted with
        chirpOn := rfl, timer := Or.inl rfl, chirpsLeft := by rw [halike.chirpsLeft] }
    · exact { hcounted with chirpOn := rfl, timer := Or.inl rfl }
  · rw [halike.continuous]
  · exact { halike with
      onTimeMs := by rw [halike.onTimeMs], output := by rw [halike.onTimeMs] }
  · exact { halike with output := rfl }

theorem reset (h h' : HornMgr) : Alike h.reset h'.reset where
  timer := .of_stop _ _
  chirpsLeft := rfl
  chirpOn := rfl
  continuous := rfl
  output := rfl
  onTimeMs := rfl

end HornMgr.Alike

/-! ### The log -/

/-- Logs that hold the same records for a reader, and have dropped as many. -/
structure Logger.Alike (l l' : Logger) : Prop where
  contents : l.contents = l'.contents
  dropped : l.dropped = l'.dropped

namespace Logger.Alike

variable {l l' : Logger}

theorem count (h : Alike l l') : l.count = l'.count := by
  rw [← l.length_contents, ← l'.length_contents, h.contents]

theorem log (h : Alike l l') (timestampMs : Nat) (event : LogEvent) (arg : Nat) :
    Alike (l.log timestampMs event arg) (l'.log timestampMs event arg) := by
  by_cases hnone : event = .none
  · rw [hnone, log_none, log_none]
    exact h
  · constructor
    · rw [contents_log l hnone, contents_log l' hnone, h.contents, h.count]
    · unfold Logger.log
      rw [if_neg hnone, if_neg hnone]
      dsimp only
      simp only [apply_dite Logger.dropped, h.count, h.dropped]

theorem pop (h : Alike l l') : l.pop.1 = l'.pop.1 ∧ Alike l.pop.2 l'.pop.2 := by
  obtain ⟨htaken, hleft⟩ := l.pop_contents
  obtain ⟨htaken', hleft'⟩ := l'.pop_contents
  have hdropped : ∀ l : Logger, l.pop.2.dropped = l.dropped := by
    intro l
    unfold Logger.pop
    split
    · rfl
    · rfl
  rw [htaken, htaken', h.contents]
  refine ⟨rfl, ?_, ?_⟩
  · rw [hleft, hleft', h.contents]
  · rw [hdropped, hdropped, h.dropped]

/-- Cleared logs have nothing to tell them apart. -/
theorem clear (l l' : Logger) : Alike l.clear l'.clear := by
  constructor
  · rw [Logger.contents_clear, Logger.contents_clear]
  · rfl

end Logger.Alike

/-! ### The core, block by block -/

structure BcmCore.Alike (a b : BcmCore) : Prop where
  lighting : a.lighting.Alike b.lighting
  door : a.door.Alike b.door
  power : a.power.Alike b.power
  horn : a.horn.Alike b.horn
  faults : a.faults = b.faults
  log : a.log.Alike b.log
  inputs : a.inputs = b.inputs
  previous : a.previous = b.previous
  lamps : a.lamps = b.lamps
  merge : ∀ lamps, mergeHost a.hostRequest a.hostMask lamps =
    mergeHost b.hostRequest b.hostMask lamps
  commsLost : a.commsLost = b.commsLost
  hostLock : a.hostLock = b.hostLock
  hostUnlock : a.hostUnlock = b.hostUnlock
  hostLightMode : a.hostLightMode = b.hostLightMode
  ignitionHeldMs : a.ignitionHeldMs = b.ignitionHeldMs
  longPressFired : a.longPressFired = b.longPressFired
  prevLoadShed : a.prevLoadShed = b.prevLoadShed
  prevCommsLost : a.prevCommsLost = b.prevCommsLost
  prevDoor : a.prevDoor = b.prevDoor
  firstCycle : a.firstCycle = b.firstCycle

theorem BcmCore.mergeHost_zero (request lamps : LampState) : mergeHost request 0 lamps = lamps :=
  LampState.ext (funext fun id => if_neg (by simp))

namespace BcmCore.Alike

variable {a b : BcmCore}

theorem logEvent (h : Alike a b) {event event' : LogEvent} {arg arg' : Nat}
    (hevent : event = event') (harg : arg = arg') :
    Alike (a.logEvent event arg) (b.logEvent event' arg') := by
  subst hevent harg
  exact { h with log := h.log.log 0 event arg }

theorem seedHistory (h : Alike a b) : Alike a.seedHistory b.seedHistory :=
  { h with previous := h.inputs, firstCycle := rfl }

theorem holdIgnition (h : Alike a b) (cfg : Config) (dtMs : Nat) :
    Alike (a.holdIgnition cfg dtMs) (b.holdIgnition cfg dtMs) := by
  have htimed : Alike { a with ignitionHeldMs := (a.ignitionHeldMs + dtMs) % 2 ^ 16 }
      { b with ignitionHeldMs := (b.ignitionHeldMs + dtMs) % 2 ^ 16 } :=
    { h with ignitionHeldMs := by rw [h.ignitionHeldMs] }
  have hmode := h.lighting.nextMode
  unfold BcmCore.holdIgnition
  dsimp only
  refine Runs.rel_ite (by rw [h.inputs]) (Runs.rel_ite ?_ ?_ htimed) h
  · rw [h.longPressFired, h.ignitionHeldMs]
  · refine logEvent ?_ rfl (congrArg LightState.toNat hmode.light)
    exact { htimed with longPressFired := rfl, lighting := hmode }

theorem releaseIgnition (h : Alike a b) (cfg : Config) :
    Alike (a.releaseIgnition cfg) (b.releaseIgnition cfg) := by
  have hforget : ∀ {a b : BcmCore}, Alike a b →
      Alike { a with ignitionHeldMs := 0, longPressFired := false }
        { b with ignitionHeldMs := 0, longPressFired := false } := fun h =>
    { h with ignitionHeldMs := rfl, longPressFired := rfl }
  have hrunning : a.power.running = true ↔ b.power.running = true := by
    unfold PowerMgr.running PowerMgr.state
    rw [h.power.state]
  unfold BcmCore.releaseIgnition
  dsimp only
  refine Runs.rel_ite (by rw [h.inputs, h.previous]) (hforget ?_) h
  refine Runs.rel_ite (by rw [h.longPressFired]) (Runs.rel_ite hrunning ?_ ?_) h
  · have hoff : Alike { a with power := a.power.ignitionOff }
        { b with power := b.power.ignitionOff } := { h with power := h.power.ignitionOff }
    have hlogged : Alike ({ a with power := a.power.ignitionOff }.logEvent .ignitionOff)
        ({ b with power := b.power.ignitionOff }.logEvent .ignitionOff) := hoff.logEvent rfl rfl
    exact { hlogged with lighting := h.lighting.allOff }
  · refine logEvent ?_ rfl rfl
    exact { h with power := h.power.ignitionOn cfg }

theorem pressIndicatorLeft (h : Alike a b) : Alike a.pressIndicatorLeft b.pressIndicatorLeft := by
  refine Runs.rel_ite (by rw [h.inputs, h.previous]) ?_ h
  refine logEvent ?_ rfl rfl
  exact { h with lighting := h.lighting.indicatorEvent .leftPressed }

theorem pressIndicatorRight (h : Alike a b) :
    Alike a.pressIndicatorRight b.pressIndicatorRight := by
  refine Runs.rel_ite (by rw [h.inputs, h.previous]) ?_ h
  refine logEvent ?_ rfl rfl
  exact { h with lighting := h.lighting.indicatorEvent .rightPressed }

theorem pressHazard (h : Alike a b) : Alike a.pressHazard b.pressHazard := by
  have hpressed := h.lighting.indicatorHazard
  refine Runs.rel_ite (by rw [h.inputs, h.previous]) ?_ h
  refine logEvent ?_ ?_ rfl
  · exact { h with lighting := hpressed }
  · exact congrArg (fun state => if state = IndState.hazard then LogEvent.hazardOn else .hazardOff)
      hpressed.indicator

theorem readDoorOpen (h : Alike a b) : Alike a.readDoorOpen b.readDoorOpen := by
  have hdoor := h.door.setDoorOpen a.inputs.doorOpen
  rw [h.inputs] at hdoor
  unfold BcmCore.readDoorOpen
  rw [h.inputs]
  exact { h with inputs := rfl, door := hdoor }

theorem pressDoorLock (h : Alike a b) (cfg : Config) :
    Alike (a.pressDoorLock cfg) (b.pressDoorLock cfg) := by
  have hlocked : a.door.locked = true ↔ b.door.locked = true := by
    unfold DoorMgr.locked DoorMgr.state
    rw [h.door.state]
  refine Runs.rel_ite (by rw [h.inputs, h.previous]) (Runs.rel_ite hlocked ?_ ?_) h
  · exact { h with door := h.door.requestUnlock cfg }
  · exact { h with door := h.door.requestLock }

theorem takeHostLock (h : Alike a b) : Alike a.takeHostLock b.takeHostLock :=
  Runs.rel_ite (by rw [h.hostLock]) { h with hostLock := rfl, door := h.door.requestLock } h

theorem takeHostUnlock (h : Alike a b) (cfg : Config) :
    Alike (a.takeHostUnlock cfg) (b.takeHostUnlock cfg) :=
  Runs.rel_ite (by rw [h.hostUnlock])
    { h with hostUnlock := rfl, door := h.door.requestUnlock cfg } h

theorem takeHostLightMode (h : Alike a b) : Alike a.takeHostLightMode b.takeHostLightMode :=
  Runs.rel_ite (by rw [h.hostLightMode])
    { h with hostLightMode := rfl, lighting := h.lighting.nextMode } h

theorem logBrakeChange (h : Alike a b) : Alike a.logBrakeChange b.logBrakeChange := by
  refine Runs.rel_ite (by rw [h.inputs, h.previous]) (logEvent h ?_ rfl) h
  rw [h.inputs]

theorem rememberInputs (h : Alike a b) : Alike a.rememberInputs b.rememberInputs :=
  { h with previous := h.inputs }

theorem applyEdges (h : Alike a b) (cfg : Config) (dtMs : Nat) :
    Alike (a.applyEdges cfg dtMs) (b.applyEdges cfg dtMs) := by
  unfold BcmCore.applyEdges runBlocks
  refine Runs.rel_ite (by rw [h.firstCycle]) h.seedHistory (Runs.rel_foldl_blocks h ?_)
  intro block hblock s t hst
  simp only [edgeBlocks, List.mem_cons, List.not_mem_nil, or_false] at hblock
  rcases hblock with rfl | rfl | rfl | rfl | rfl | rfl | rfl | rfl | rfl | rfl | rfl | rfl
  · exact hst.holdIgnition cfg dtMs
  · exact hst.releaseIgnition cfg
  · exact hst.pressIndicatorLeft
  · exact hst.pressIndicatorRight
  · exact hst.pressHazard
  · exact hst.readDoorOpen
  · exact hst.pressDoorLock cfg
  · exact hst.takeHostLock
  · exact hst.takeHostUnlock cfg
  · exact hst.takeHostLightMode
  · exact hst.logBrakeChange
  · exact hst.rememberInputs

theorem readSensors (h : Alike a b) : Alike a.readSensors b.readSensors := by
  have hlighting := h.lighting.updateAmbient a.inputs.ambientPermille
  have hpower := h.power.updateBattery a.inputs.batteryPermille
  unfold BcmCore.readSensors
  rw [h.inputs] at hlighting hpower ⊢
  exact { h with inputs := rfl, lighting := hlighting, power := hpower }

theorem reportLockRefused (h : Alike a b) : Alike a.reportLockRefused b.reportLockRefused := by
  have htaken : Alike { a with door := a.door.takeLockRefused.2 }
      { b with door := b.door.takeLockRefused.2 } :=
    { h with door := h.door.withCtx (by rw [h.door.ctx]) }
  unfold BcmCore.reportLockRefused
  dsimp only
  refine Runs.rel_ite ?_ (logEvent ?_ rfl rfl) htaken
  · dsimp only [DoorMgr.takeLockRefused]
    rw [h.door.ctx]
  · exact { htaken with faults := by rw [h.faults] }

theorem chirpHorn (h : Alike a b) (cfg : Config) :
    Alike (a.chirpHorn cfg) (b.chirpHorn cfg) := by
  have hlock : HornMgr.Alike (if a.door.ctx.chirpLock then a.horn.chirp cfg 1 else a.horn)
      (if b.door.ctx.chirpLock then b.horn.chirp cfg 1 else b.horn) :=
    Runs.rel_ite (by rw [h.door.ctx]) (h.horn.chirp cfg 1) h.horn
  have htaken : DoorMgr.Alike a.door.takeChirpLock.2 b.door.takeChirpLock.2 :=
    h.door.withCtx (by rw [h.door.ctx])
  have hdoor : DoorMgr.Alike a.door.takeChirpLock.2.takeChirpUnlock.2
      b.door.takeChirpLock.2.takeChirpUnlock.2 := htaken.withCtx (by rw [htaken.ctx])
  refine { h with door := hdoor, horn := ?_ }
  exact Runs.rel_ite (by rw [h.door.ctx]) (hlock.chirp cfg 2) hlock

theorem loadShed (h : Alike a b) : a.power.loadShed = b.power.loadShed := by
  unfold PowerMgr.loadShed
  rw [h.power.ctx]

theorem reportFaults (h : Alike a b) : Alike a.reportFaults b.reportFaults := by
  have hfaults : a.reportFaults.faults = b.reportFaults.faults := by
    unfold BcmCore.reportFaults
    rw [h.loadShed, h.faults, h.commsLost]
  exact { h with faults := hfaults }

theorem logLoadShedChange (h : Alike a b) : Alike a.logLoadShedChange b.logLoadShedChange := by
  refine Runs.rel_ite (by rw [h.loadShed, h.prevLoadShed]) (logEvent ?_ ?_ rfl) h
  · exact { h with prevLoadShed := h.loadShed }
  · rw [h.loadShed]

theorem logCommsChange (h : Alike a b) : Alike a.logCommsChange b.logCommsChange := by
  refine Runs.rel_ite (by rw [h.commsLost, h.prevCommsLost]) (logEvent ?_ ?_ rfl) h
  · exact { h with prevCommsLost := h.commsLost }
  · rw [h.commsLost]

theorem logDoorChange (h : Alike a b) : Alike a.logDoorChange b.logDoorChange := by
  have hstate : a.door.state = b.door.state := h.door.state
  refine Runs.rel_ite (by rw [hstate, h.prevDoor]) (logEvent ?_ ?_ rfl) h
  · exact { h with prevDoor := hstate }
  · rw [hstate]

theorem arbiterInputs (h : Alike a b) : a.arbiterInputs = b.arbiterInputs := by
  unfold BcmCore.arbiterInputs PowerMgr.lampsPermitted PowerMgr.state
  rw [h.inputs, h.power.state, h.loadShed, h.commsLost]

theorem wanted (h : Alike a b) : a.wanted = b.wanted := by
  unfold BcmCore.wanted
  rw [h.power.apply_eq, h.lighting.apply_eq, h.door.apply_eq]

theorem driveLamps (h : Alike a b) : Alike a.driveLamps b.driveLamps := by
  have hlamps : a.driveLamps.lamps = b.driveLamps.lamps := by
    unfold BcmCore.driveLamps
    rw [h.wanted, h.merge, h.arbiterInputs]
  exact { h with lamps := hlamps }

theorem step (h : Alike a b) (cfg : Config) (dtMs : Nat) :
    Alike (a.step cfg dtMs) (b.step cfg dtMs) := by
  unfold BcmCore.step runBlocks
  refine Runs.rel_foldl_blocks (h.applyEdges cfg dtMs) ?_
  intro block hblock s t hst
  simp only [cycleBlocks, List.mem_cons, List.not_mem_nil, or_false] at hblock
  rcases hblock with rfl | rfl | rfl | rfl | rfl | rfl | rfl | rfl | rfl | rfl | rfl | rfl
  · exact hst.readSensors
  · exact { hst with power := hst.power.update cfg dtMs }
  · exact { hst with door := hst.door.updateWelcome cfg dtMs }
  · exact { hst with door := hst.door.updateAutoLock cfg dtMs }
  · exact hst.reportLockRefused
  · exact hst.chirpHorn cfg
  · exact hst.reportFaults
  · exact hst.logLoadShedChange
  · exact hst.logCommsChange
  · exact hst.logDoorChange
  · exact hst.driveLamps
  · exact { hst with horn := hst.horn.update cfg dtMs }

/-- A reset forgets whatever else the two differ in. -/
theorem reset (hlighting : a.lighting.reset.Alike b.lighting.reset)
    (hpower : a.power.reset.Alike b.power.reset) : Alike a.reset b.reset where
  lighting := hlighting
  door := .reset _ _
  power := hpower
  horn := .reset _ _
  faults := rfl
  log := .clear _ _
  inputs := rfl
  previous := rfl
  lamps := rfl
  merge := fun lamps => by
    rw [BcmCore.reset, BcmCore.reset, mergeHost_zero, mergeHost_zero]
  commsLost := rfl
  hostLock := rfl
  hostUnlock := rfl
  hostLightMode := rfl
  ignitionHeldMs := rfl
  longPressFired := rfl
  prevLoadShed := rfl
  prevCommsLost := rfl
  prevDoor := rfl
  firstCycle := rfl

/-- **What is never read stays unread.** Alike cores are alike after any operation. -/
theorem exec (h : Alike a b) (cfg : Config) (op : CoreOp) :
    Alike (a.exec cfg op) (b.exec cfg op) := by
  cases op with
  | setInputs inputs => exact { h with inputs := rfl }
  | setCommsLost lost => exact { h with commsLost := rfl }
  | setHostRequest request mask => exact { h with merge := fun _ => rfl }
  | requestDoorLock => exact { h with hostLock := rfl }
  | requestDoorUnlock => exact { h with hostUnlock := rfl }
  | requestLightMode => exact { h with hostLightMode := rfl }
  | step dtMs => exact h.step cfg dtMs
  | reset => exact .reset h.lighting.reset h.power.reset
  | setFault code => exact { h with faults := congrArg (·.set code) h.faults }
  | clearFaults => exact { h with faults := rfl }
  | popLog => exact { h with log := h.log.pop.2 }

end BcmCore.Alike

end Bcm
