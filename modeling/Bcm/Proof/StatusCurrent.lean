import Bcm.Proof.FirmwareCore
import Bcm.Proof.StatusQueries

/-!
# What the desktop tool shows of the vehicle

The handlers read a context that the cycle fills in and the sensor task and the host may write to as
well. Whenever a query comes, the lamps and the switches in it are those of the last cycle, the
battery is the last sample's and the faults are the core's. The power state alone is older: the
cycle copies it before the core steps.
-/

namespace Bcm

/-- A request changes nothing that a query reads. -/
theorem HostAct.apply_context (act : HostAct) (c : CommandContext) :
    (act.apply c).actual = c.actual ∧ (act.apply c).battery = c.battery ∧
      (act.apply c).switchBitmap = c.switchBitmap ∧ (act.apply c).powerState = c.powerState ∧
      (act.apply c).faults.isSome = c.faults.isSome := by
  cases act with
  | clearFaults => exact ⟨rfl, rfl, rfl, rfl, Option.isSome_map⟩
  | lamp id on =>
      unfold apply
      dsimp only
      split
      · exact ⟨rfl, rfl, rfl, rfl, rfl⟩
      · exact ⟨rfl, rfl, rfl, rfl, rfl⟩
  | nothing | lock | unlock | reset => exact ⟨rfl, rfl, rfl, rfl, rfl⟩

namespace Firmware

variable {Q : Type} {M : MessageQueue Q LogRecord} {cfg : Config} {up : PowerUp Q}

/-- The context holds the lamps, the battery and the faults. -/
structure Holds (f : Firmware Q) : Prop where
  actual : f.app.cmdCtx.actual = some f.app.core.lamps
  battery : f.app.cmdCtx.battery.map AnalogInput.permille = some f.batteryPermille
  faults : f.app.cmdCtx.faults.isSome = true

theorem holds_start : (start M cfg up).Holds := by
  constructor
  · unfold start BcmApp.init
    cases up.wasWatchdog with
    | false => rfl
    | true => rfl
  · rfl
  · rfl

theorem cycle_context (cfg : Config) (pins : Bsp.Levels) (f : Firmware Q) :
    (f.cycle cfg pins).app.cmdCtx =
      { f.app.cmdCtx with
        switchBitmap := (f.cycle cfg pins).switchBitmap
        powerState := f.app.core.power.state.toUInt8
        doorLockRequested := false
        doorUnlockRequested := false
        actual := f.app.cmdCtx.actual.map fun _ => (f.cycle cfg pins).app.core.lamps } := rfl

theorem Holds.cycle {f : Firmware Q} (h : f.Holds) (pins : Bsp.Levels) :
    (f.cycle cfg pins).Holds := by
  refine ⟨?_, h.battery, h.faults⟩
  rw [cycle_context, h.actual]
  rfl

/-- Besides what it holds, the context says what the last cycle has found. -/
structure Mirrors (power : PowerState) (f : Firmware Q) : Prop extends Holds f where
  switches : f.app.cmdCtx.switchBitmap = f.switchBitmap
  power : f.app.cmdCtx.powerState = power.toUInt8

theorem Holds.mirrors_cycle {f : Firmware Q} (h : f.Holds) (pins : Bsp.Levels) :
    Mirrors f.app.core.power.state (f.cycle cfg pins) :=
  ⟨h.cycle pins, rfl, rfl⟩

/-- What the queries read is as it was, or follows a sample. -/
structure SameQueries (f f' : Firmware Q) : Prop where
  actual : f'.app.cmdCtx.actual = f.app.cmdCtx.actual
  lamps : f'.app.core.lamps = f.app.core.lamps
  faults : f'.app.cmdCtx.faults.isSome = f.app.cmdCtx.faults.isSome
  switches : f'.app.cmdCtx.switchBitmap = f.app.cmdCtx.switchBitmap
  power : f'.app.cmdCtx.powerState = f.app.cmdCtx.powerState
  battery : f.app.cmdCtx.battery.map AnalogInput.permille = some f.batteryPermille →
    f'.app.cmdCtx.battery.map AnalogInput.permille = some f'.batteryPermille

theorem sameQueries_lends (f : Firmware Q) : SameQueries f { f with app := f.lends } :=
  ⟨rfl, rfl, Option.isSome_map, rfl, rfl, id⟩

theorem sameQueries_answer (reply : Bool) (response : Frame) (f : Firmware Q) :
    SameQueries f (f.answer reply response) := by
  unfold answer
  split
  · exact ⟨rfl, rfl, rfl, rfl, rfl, id⟩
  · exact ⟨rfl, rfl, rfl, rfl, rfl, id⟩

theorem SameQueries.trans {f g k : Firmware Q} (h : SameQueries f g) (hk : SameQueries g k) :
    SameQueries f k :=
  ⟨hk.actual.trans h.actual, hk.lamps.trans h.lamps, hk.faults.trans h.faults,
    hk.switches.trans h.switches, hk.power.trans h.power, hk.battery ∘ h.battery⟩

theorem sameQueries_pollByte {f f' : Firmware Q} (h : f.pollByte = some f') :
    SameQueries f f' := by
  cases polled h with
  | idle _ heq =>
      rw [heq]
      exact ⟨rfl, rfl, rfl, rfl, rfl, id⟩
  | kept byte _ _ heq =>
      rw [heq]
      exact (sameQueries_lends f).trans ⟨rfl, rfl, rfl, rfl, rfl, id⟩
  | served byte _ _ reply response app hserve heq =>
      rw [heq]
      refine SameQueries.trans ?_ (sameQueries_answer reply response _)
      obtain ⟨hctx, hcore⟩ := BcmApp.serve_asks hserve
      obtain ⟨hactual, hbattery, hswitches, hpower, hfaults⟩ :=
        (f.parser.feed byte).1.frame.asks.apply_context
          { f.app.cmdCtx with faults := f.app.cmdCtx.faults.map fun _ => f.app.core.faults }
      rw [← hctx] at hactual hbattery hswitches hpower hfaults
      refine ⟨hactual, ?_, hfaults.trans Option.isSome_map, hswitches, hpower, fun h => ?_⟩
      · change app.core.lamps = f.app.core.lamps
        rw [hcore]
      · change app.cmdCtx.battery.map AnalogInput.permille = some f.batteryPermille
        rw [hbattery]
        exact h

theorem sameQueries_exec {f f' : Firmware Q} {a : Action} (h : f.exec M cfg a = some f')
    (ha : a.isCycle = false) : SameQueries f f' := by
  cases a with
  | cycle pins => exact absurd ha (by simp [Action.isCycle])
  | pollByte => exact sameQueries_pollByte h
  | pollEnd =>
      obtain ⟨linkTimer, linkLost, hend⟩ := f.pollEnd_eq
      rw [← Option.some.inj h, hend]
      exact (sameQueries_lends f).trans ⟨rfl, rfl, rfl, rfl, rfl, id⟩
  | sample raw =>
      rw [← Option.some.inj h]
      refine ⟨rfl, rfl, rfl, rfl, rfl, fun hbattery => ?_⟩
      obtain ⟨battery, hsome, -⟩ := Option.map_eq_some_iff.mp hbattery
      unfold sample BcmApp.sampleBattery
      dsimp only
      rw [hsome]
      rfl
  | drain tick =>
      obtain ⟨queue, offered, hdrain⟩ := drain_eq (M := M) f tick
      rw [← Option.some.inj h, hdrain]
      exact ⟨rfl, rfl, rfl, rfl, rfl, id⟩
  | heartbeat | irq irq =>
      rw [← Option.some.inj h]
      exact ⟨rfl, rfl, rfl, rfl, rfl, id⟩
  | takeRecord =>
      obtain ⟨held, queue, htake⟩ := takeRecord_eq (M := M) f
      rw [← Option.some.inj h, htake]
      exact ⟨rfl, rfl, rfl, rfl, rfl, id⟩
  | writeRecord =>
      rw [← Option.some.inj h, f.writeRecord_eq]
      exact ⟨rfl, rfl, rfl, rfl, rfl, id⟩

theorem Holds.same {f f' : Firmware Q} (h : f.Holds) (hsame : SameQueries f f') : f'.Holds :=
  ⟨by rw [hsame.actual, hsame.lamps, h.actual], hsame.battery h.battery,
    hsame.faults.trans h.faults⟩

theorem holds_of_run {actions : List Action} {f : Firmware Q}
    (h : run M cfg up actions = some f) : f.Holds := by
  refine PartialRuns.run_invariant (I := Holds) holds_start (fun s a t hs hexec => ?_) h
  by_cases ha : a.isCycle = true
  · obtain ⟨pins, rfl⟩ : ∃ pins, a = .cycle pins := by
      cases a with
      | cycle pins => exact ⟨pins, rfl⟩
      | _ => exact absurd ha (by simp [Action.isCycle])
    rw [exec, Option.ite_none_left_eq_some] at hexec
    rw [← Option.some.inj hexec.2]
    exact hs.cycle pins
  · exact hs.same (sameQueries_exec hexec (Bool.not_eq_true _ ▸ ha))

theorem Mirrors.exec {power : PowerState} {f f' : Firmware Q} (h : Mirrors power f) {a : Action}
    (ha : a.isCycle = false) (hexec : f.exec M cfg a = some f') : Mirrors power f' := by
  have hsame := sameQueries_exec hexec ha
  have hbuttons := (sameBoard_exec hexec ha).buttons
  refine ⟨h.toHolds.same hsame, ?_, hsame.power.trans h.power⟩
  rw [hsame.switches, h.switches, switchBitmap, switchBitmap, hbuttons]

/-- **What the tool shows is what the vehicle is.** From a cycle to the next one, and whatever comes
in between, GET_STATUS shows the lamps and the switches of that cycle, with the power state from
before its step. GET_BATTERY shows the last sample, and GET_DTC the active faults of the core. -/
theorem status_is_current {before after : List Action} {pins : Bsp.Levels} {s f : Firmware Q}
    (hs : run M cfg up before = some s)
    (hf : PartialRuns.run (exec M cfg) s (.cycle pins :: after) = some f)
    (hafter : ∀ a ∈ after, a.isCycle = false) {p : Desktop.FrameParser} (hp : p.state = .header)
    (request : Frame) :
    Desktop.getStatusAsync (query .getStatus request f.app.dispatcher (some f.lentContext) p) =
        some ⟨f.app.core.lamps.bitmap, f.switchBitmap, s.app.core.power.state.toUInt8⟩ ∧
      Desktop.getBatteryAsync
          (query .getBattery request f.app.dispatcher (some f.lentContext) p) =
        some f.batteryPermille ∧
      Desktop.getDtcsAsync (query .getDtc request f.app.dispatcher (some f.lentContext) p) =
        (f.app.core.faults.entries.filter (·.active)).map (·.code) := by
  rw [PartialRuns.run_cons, Option.bind_eq_some_iff] at hf
  obtain ⟨t, ht, hrest⟩ := hf
  rw [exec, Option.ite_none_left_eq_some] at ht
  have hcycle : Mirrors s.app.core.power.state t := by
    rw [← Option.some.inj ht.2]
    exact (holds_of_run hs).mirrors_cycle pins
  have hmirrors : Mirrors s.app.core.power.state f :=
    PartialRuns.run_history (I := fun _ t => Mirrors s.app.core.power.state t) hcycle
      (fun _ _ _ _ _ ha h hexec => h.exec ha hexec)
      (PartialRuns.along_of_forall hafter t) hrest
  obtain ⟨battery, hbattery, hpermille⟩ := Option.map_eq_some_iff.mp hmirrors.battery
  obtain ⟨faults, hfaults⟩ := Option.isSome_iff_exists.mp hmirrors.faults
  have hlent : f.lentContext.faults = some f.app.core.faults := by
    rw [lentContext, hfaults]
    rfl
  refine ⟨?_, ?_, getDtc_faithful hp f.lentContext hlent request _⟩
  · have hswitches : f.lentContext.switchBitmap = f.switchBitmap := hmirrors.switches
    have hpower : f.lentContext.powerState = s.app.core.power.state.toUInt8 := hmirrors.power
    rw [getStatus_faithful hp f.lentContext hmirrors.actual request, hswitches, hpower]
  · rw [getBattery_faithful hp f.lentContext hbattery request, hpermille]

/-- After the first cycle, and a sample. -/
theorem status_is_current_sampled :
    let M := MessageQueue.plain LogRecord kLogQueueLength
    ∃ f, PartialRuns.run (exec M .shipped) (start M .shipped .quiet)
        [.cycle PowerUp.quiet.pins, .sample 4095] = some f ∧
      Desktop.getBatteryAsync
          (query .getBattery .new f.app.dispatcher (some f.lentContext) .new) =
        some f.batteryPermille := by
  intro M
  have hruns : (PartialRuns.run (exec M .shipped) (start M .shipped .quiet)
      [.cycle PowerUp.quiet.pins, .sample 4095]).isSome := by decide +kernel
  obtain ⟨f, hf⟩ := Option.isSome_iff_exists.mp hruns
  have hsample : ∀ a ∈ [Action.sample 4095], a.isCycle = false := by
    intro a ha
    rw [List.mem_singleton.mp ha]
    rfl
  have hstart : run M .shipped .quiet [] = some (start M .shipped .quiet) := rfl
  exact ⟨f, hf, (status_is_current hstart hf hsample rfl .new).2.1⟩

end Firmware

end Bcm
