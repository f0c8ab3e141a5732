import Bcm.Proof.LinkLoss
import Bcm.Proof.UnlockCause

/-!
# Doors that lock again

Doors that have been unlocked welcome for a while, are unlocked for a while and then lock. On this
board no door counts as open, so only a request to lock can come in before. An unlock request while
they are not locked changes nothing, and starts nothing over.
-/

namespace Bcm

/-- The cycles that the welcome time takes. -/
def welcomeCycles (cfg : Config) : Nat :=
  (cfg.welcomeDurationMs + (Firmware.kControlMs - 1)) / Firmware.kControlMs

/-- The state of the doors after so many cycles, counted from the one that unlocks them on. A time
of zero never runs out. -/
def doorsAfter (cfg : Config) (cycles : Nat) : DoorState :=
  if cfg.welcomeDurationMs = 0 ∨ cycles * Firmware.kControlMs < cfg.welcomeDurationMs then .welcome
  else if cfg.autoLockDelayMs = 0 ∨
      (cycles + 1 - welcomeCycles cfg) * Firmware.kControlMs < cfg.autoLockDelayMs then .unlocked
  else .locked

/-- As shipped: 2 s, and 3 s that begin with the cycle that ends these. -/
example : doorsAfter .shipped 399 = .welcome ∧ doorsAfter .shipped 400 = .unlocked ∧
    doorsAfter .shipped 998 = .unlocked ∧ doorsAfter .shipped 999 = .locked := by decide

theorem doorsAfter_locked_succ {cfg : Config} {cycles : Nat}
    (h : doorsAfter cfg cycles = .locked) : doorsAfter cfg (cycles + 1) = .locked := by
  unfold doorsAfter welcomeCycles Firmware.kControlMs at *
  split_ifs at h with hwelcome hdelay
  rw [if_neg (by omega), if_neg (by omega)]

/-! ### A timer that has been started -/

namespace SoftTimer

variable {periodMs elapsedMs dtMs : Nat} {t : SoftTimer}

theorem advance_started
    (ht : t = { SoftTimer.new.start periodMs with remaining := periodMs - elapsedMs })
    (hmore : t.expires dtMs = false) :
    (periodMs = 0 ∨ elapsedMs + dtMs < periodMs) ∧
      t.advance dtMs =
        { SoftTimer.new.start periodMs with remaining := periodMs - (elapsedMs + dtMs) } := by
  rcases Nat.eq_zero_or_pos periodMs with hzero | hpos
  · have hstopped : t.running = false := by
      rw [ht, hzero]
      rfl
    refine ⟨Or.inl hzero, ?_⟩
    rw [advance_of_stopped hstopped, ht, hzero, Nat.zero_sub, Nat.zero_sub]
  · have hrunning : t.running = true := by
      rw [ht]
      exact decide_eq_true hpos
    have hlong : ¬t.remaining ≤ dtMs := by
      intro hle
      rw [expires_eq_true_iff.mpr ⟨hrunning, hle⟩] at hmore
      exact absurd hmore (by decide)
    rw [advance_of_not_expires hrunning hmore]
    rw [ht] at hlong ⊢
    dsimp only at hlong ⊢
    rw [Nat.sub_sub]
    exact ⟨Or.inr (by omega), rfl⟩

theorem expires_started
    (ht : t = { SoftTimer.new.start periodMs with remaining := periodMs - elapsedMs })
    (hover : t.expires dtMs = true) : 0 < periodMs ∧ periodMs ≤ elapsedMs + dtMs := by
  obtain ⟨hrunning, hle⟩ := expires_eq_true_iff.mp hover
  rw [ht] at hrunning hle
  exact ⟨of_decide_eq_true hrunning, Nat.sub_le_iff_le_add'.mp hle⟩

end SoftTimer

/-! ### The doors of one manager -/

namespace DoorMgr

open Firmware (kControlMs)

/-- The doors so many cycles after they were unlocked. -/
inductive Unlocking (cfg : Config) (cycles : Nat) (d : DoorMgr) : Prop
  | welcoming (hstate : d.state = .welcome)
      (htime : cfg.welcomeDurationMs = 0 ∨ cycles * kControlMs < cfg.welcomeDurationMs)
      (hwelcome : d.welcome = { SoftTimer.new.start cfg.welcomeDurationMs with
        remaining := cfg.welcomeDurationMs - cycles * kControlMs })
      (hautoLock : d.autoLock.running = false)
  | waiting (hstate : d.state = .unlocked) (waited : Nat)
      (hcycles : cycles = welcomeCycles cfg + waited) (hduration : 0 < cfg.welcomeDurationMs)
      (htime : cfg.autoLockDelayMs = 0 ∨ (waited + 1) * kControlMs < cfg.autoLockDelayMs)
      (hwelcome : d.welcome.running = false)
      (hautoLock : d.autoLock = { SoftTimer.new.start cfg.autoLockDelayMs with
        remaining := cfg.autoLockDelayMs - (waited + 1) * kControlMs })
  | locked (hstate : d.state = .locked) (htime : doorsAfter cfg cycles = .locked)

variable {cfg : Config} {cycles : Nat} {d : DoorMgr}

theorem Unlocking.state (h : d.Unlocking cfg cycles) : d.state = doorsAfter cfg cycles := by
  cases h with
  | welcoming hstate htime => rw [hstate, doorsAfter, if_pos htime]
  | waiting hstate waited hcycles hduration htime =>
      have hover : ¬(cfg.welcomeDurationMs = 0 ∨ cycles * kControlMs < cfg.welcomeDurationMs) := by
        unfold welcomeCycles kControlMs at *
        omega
      rw [hstate, doorsAfter, if_neg hover, if_pos]
      unfold kControlMs at *
      omega
  | locked hstate htime => rw [hstate, htime]

/-- The wait goes on, or ends in Locked. -/
theorem Unlocking.updateAutoLock (hshut : d.ctx.doorOpen = false) (hstate : d.state = .unlocked)
    {waited : Nat} (hcycles : cycles = welcomeCycles cfg + waited)
    (hduration : 0 < cfg.welcomeDurationMs) (hwelcome : d.welcome.running = false)
    (hautoLock : d.autoLock = { SoftTimer.new.start cfg.autoLockDelayMs with
      remaining := cfg.autoLockDelayMs - waited * kControlMs }) :
    (d.updateAutoLock cfg kControlMs).Unlocking cfg cycles := by
  obtain ⟨hstate', hautoLock'⟩ := d.updateAutoLock_eq cfg kControlMs
  cases hexpires : d.autoLock.expires kControlMs with
  | true =>
      obtain ⟨hpos, hover⟩ := SoftTimer.expires_started hautoLock hexpires
      rw [hexpires, if_pos ⟨rfl, hstate, hshut⟩] at hstate'
      refine .locked hstate' ?_
      unfold doorsAfter
      unfold welcomeCycles kControlMs at *
      rw [if_neg (by omega), if_neg (by omega)]
  | false =>
      obtain ⟨htime, hadvance⟩ := SoftTimer.advance_started hautoLock hexpires
      rw [← Nat.succ_mul] at htime hadvance
      rw [hexpires, if_neg (fun h => Bool.false_ne_true h.1)] at hstate' hautoLock'
      refine .waiting (hstate'.trans hstate) waited hcycles hduration htime ?_ ?_
      · rw [updateAutoLock_welcome, hwelcome]
      · rw [hautoLock', hadvance]

/-- One more cycle. -/
theorem Unlocking.update (h : d.Unlocking cfg cycles) (hyet : doorsAfter cfg cycles ≠ .locked)
    (hshut : d.ctx.doorOpen = false) :
    (d.update cfg kControlMs).Unlocking cfg (cycles + 1) := by
  cases h with
  | locked _ htime => exact absurd htime hyet
  | waiting hstate waited hcycles hduration htime hwelcome hautoLock =>
      rw [DoorMgr.update, updateWelcome_of_stopped cfg kControlMs hwelcome]
      exact Unlocking.updateAutoLock hshut hstate (congrArg Nat.succ hcycles) hduration hwelcome
        hautoLock
  | welcoming hstate htime hwelcome hautoLock =>
      obtain ⟨hstate', hautoLock', hctx'⟩ := d.updateWelcome_eq cfg kControlMs
      cases hexpires : d.welcome.expires kControlMs with
      | true =>
          obtain ⟨hpos, hover⟩ := SoftTimer.expires_started hwelcome hexpires
          rw [hexpires, if_pos ⟨rfl, hstate⟩] at hstate'
          rw [hexpires, if_pos rfl] at hautoLock'
          have hcycles : cycles + 1 = welcomeCycles cfg + 0 := by
            unfold welcomeCycles kControlMs at *
            omega
          have hshot : d.welcome.periodic = false := by
            rw [hwelcome]
            rfl
          refine Unlocking.updateAutoLock (hctx' ▸ hshut) hstate' hcycles hpos ?_ ?_
          · rw [updateWelcome_welcome, SoftTimer.advance_of_expires hshot hexpires]
          · rw [hautoLock', Nat.zero_mul, Nat.sub_zero]
            rfl
      | false =>
          obtain ⟨htime', hadvance⟩ := SoftTimer.advance_started hwelcome hexpires
          rw [← Nat.succ_mul] at htime' hadvance
          have hquiet := SoftTimer.expires_of_stopped hautoLock kControlMs
          rw [update_of_quiet cfg hexpires hquiet]
          refine .welcoming hstate htime' hadvance ?_
          dsimp only
          rw [SoftTimer.advance_of_stopped hautoLock, hautoLock]

/-- No door counts as open, and the doors are locked or just unlocked. -/
def Fresh (cfg : Config) (d : DoorMgr) : Prop :=
  d.ctx.doorOpen = false ∧ (d.state = .locked ∨ d.Unlocking cfg 0)

theorem Fresh.requestUnlock (h : d.Fresh cfg) : (d.requestUnlock cfg).Fresh cfg := by
  obtain ⟨hshut, hstate⟩ := h
  by_cases hlocked : d.state = .locked
  · obtain ⟨hwelcome, hautoLock, hctx⟩ := requestUnlock_of_locked cfg hlocked
    have hstate' := requestUnlock_state cfg d
    rw [if_pos hlocked] at hstate'
    refine ⟨by rw [hctx]; exact hshut, Or.inr (.welcoming hstate' ?_ ?_ ?_)⟩
    · omega
    · rw [hwelcome, Nat.zero_mul, Nat.sub_zero]
      rfl
    · rw [hautoLock]
      rfl
  · rw [requestUnlock_of_unlocked cfg hlocked]
    exact ⟨hshut, hstate⟩

theorem Fresh.requestLock (h : d.Fresh cfg) : d.requestLock.Fresh cfg := by
  obtain ⟨hshut, -⟩ := h
  have hstate := d.requestLock_state
  rw [hshut, if_neg Bool.false_ne_true] at hstate
  refine ⟨?_, Or.inl hstate⟩
  by_cases hlocked : d.state = .locked
  · simp [DoorMgr.requestLock, dispatch_lockRequest, hlocked, hshut]
  · rw [(requestLock_of_shut hshut hlocked).2.1]
    exact hshut

theorem Fresh.update (h : d.Fresh cfg) :
    (d.update cfg kControlMs).state = .locked ∨ (d.update cfg kControlMs).Unlocking cfg 1 := by
  obtain ⟨hshut, hlocked | hunlocking⟩ := h
  · have hwelcome : d.state ≠ .welcome := by
      rw [hlocked]
      decide
    have hupdate := update_state_of_not_welcome cfg kControlMs hwelcome
    rw [hlocked, or_self] at hupdate
    exact Or.inl hupdate
  · right
    refine hunlocking.update ?_ hshut
    unfold doorsAfter
    rw [if_pos (by omega)]
    decide

theorem Unlocking.of_same {d' : DoorMgr} (h : d.Unlocking cfg cycles) (hstate : d'.state = d.state)
    (hwelcome : d'.welcome = d.welcome) (hautoLock : d'.autoLock = d.autoLock) :
    d'.Unlocking cfg cycles := by
  cases h with
  | welcoming hstate₀ htime hwelcome₀ hautoLock₀ =>
      refine .welcoming (hstate.trans hstate₀) htime (hwelcome.trans hwelcome₀) ?_
      rw [hautoLock, hautoLock₀]
  | waiting hstate₀ waited hcycles hduration htime hwelcome₀ hautoLock₀ =>
      refine .waiting (hstate.trans hstate₀) waited hcycles hduration htime ?_
        (hautoLock.trans hautoLock₀)
      rw [hwelcome, hwelcome₀]
  | locked hstate₀ htime => exact .locked (hstate.trans hstate₀) htime

end DoorMgr

/-! ### One cycle of the core -/

namespace BcmCore

open Firmware (kControlMs)

variable {cfg : Config} {cycles : Nat} {s : BcmCore}

theorem fresh_requestedDoor (hlocked : s.door.state = .locked) (hshut : s.inputs.doorOpen = false) :
    (s.requestedDoor cfg).Fresh cfg := by
  have hread : (s.door.setDoorOpen s.inputs.doorOpen).Fresh cfg := ⟨hshut, Or.inl hlocked⟩
  exact requestedDoor_keeps hread (fun _ h => h.requestUnlock) fun _ h => h.requestLock

/-- The cycle that unlocks the doors is the first that they welcome for. -/
theorem unlocking_step (hlocked : s.door.state = .locked) (hshut : s.inputs.doorOpen = false)
    (hunlocks : (s.step cfg kControlMs).door.state ≠ .locked) :
    (s.step cfg kControlMs).door.Unlocking cfg 1 := by
  obtain ⟨hnotFirst, -⟩ := unlock_cause hlocked hunlocks
  have hfresh : (s.requestedDoor cfg).Fresh cfg := fresh_requestedDoor hlocked hshut
  rw [step_door, applyEdges_door, hnotFirst, if_neg Bool.false_ne_true] at hunlocks ⊢
  rcases hfresh.update with hagain | hunlocking
  · exact absurd hagain hunlocks
  · exact hunlocking.of_same rfl rfl rfl

/-- A later one counts one more, if nobody asks for the lock. -/
theorem unlocking_later (h : s.door.Unlocking cfg cycles) (hyet : doorsAfter cfg cycles ≠ .locked)
    (hnotFirst : s.firstCycle = false) (hshut : s.inputs.doorOpen = false)
    (hswitch : s.doorSwitch = false) (hlock : s.hostLock = false) :
    (s.step cfg kControlMs).door.Unlocking cfg (cycles + 1) := by
  have hread : (s.door.setDoorOpen s.inputs.doorOpen).Unlocking cfg cycles :=
    h.of_same rfl rfl rfl
  have hopen : s.requestedDoor cfg = s.door.setDoorOpen s.inputs.doorOpen := by
    have hunlocked : (s.door.setDoorOpen s.inputs.doorOpen).state ≠ .locked := by
      rw [hread.state]
      exact hyet
    rw [requestedDoor, hswitch, hlock]
    simp only [Bool.false_eq_true, if_false]
    rw [DoorMgr.requestUnlock_of_unlocked cfg hunlocked, ite_self]
  rw [step_door, applyEdges_door, hnotFirst, if_neg Bool.false_ne_true, hopen]
  exact (hread.update hyet hshut).of_same rfl rfl rfl

end BcmCore

/-! ### Over a run -/

namespace Firmware

variable {Q : Type} {M : MessageQueue Q LogRecord} {cfg : Config} {up : PowerUp Q}

/-- The cycle does not find the door switch pressed where it was not. -/
def LeavesSwitch (f : Firmware Q) : Action → Prop
  | .cycle pins => (f.buttons .doorLock).state = false →
      ((f.readButtons pins kControlMs).buttons .doorLock).state = false
  | _ => True

instance (f : Firmware Q) : DecidablePred f.LeavesSwitch
  | .cycle pins => inferInstanceAs (Decidable ((f.buttons .doorLock).state = false →
      ((f.readButtons pins kControlMs).buttons .doorLock).state = false))
  | .pollByte | .pollEnd | .sample _ | .drain _ | .heartbeat | .takeRecord | .writeRecord
  | .irq _ => inferInstanceAs (Decidable True)

/-- No request to lock waits for the next cycle, unless it has been read since. -/
structure Settled (t f : Firmware Q) : Prop where
  notFirst : f.app.core.firstCycle = false
  held : f.app.core.hostLock = false
  asked : f.app.cmdCtx.doorLockRequested = true →
    ∃ request ∈ framesSince t f, request.asks = .lock

theorem settled_cycle {s : Firmware Q} (t : Firmware Q) (pins : Bsp.Levels)
    (hnotFirst : s.app.core.firstCycle = false) : Settled t (s.cycle cfg pins) := by
  obtain ⟨-, -, -, hfirst, -, -⟩ :=
    s.app.gatherInputs_core (s.readButtons pins kControlMs).snapshot
  have hheld := (BcmCore.step_host cfg kControlMs
    (s.app.gatherInputs (s.readButtons pins kControlMs).snapshot).core).1
  rw [hfirst, hnotFirst, Bool.false_and] at hheld
  refine ⟨?_, hheld, fun hasked => absurd hasked Bool.false_ne_true⟩
  exact (BcmCore.step_frame cfg kControlMs _).2.2.1

theorem lockRequested_apply {c : CommandContext} {act : HostAct}
    (h : (act.apply c).doorLockRequested = true) :
    c.doorLockRequested = true ∨ act = .lock := by
  cases act with
  | lamp id on =>
      unfold HostAct.apply at h
      dsimp only at h
      split at h
      · exact Or.inl h
      · exact Or.inl h
  | lock => exact Or.inr rfl
  | nothing | unlock | clearFaults | reset => exact Or.inl h

theorem Settled.of_same {t s f : Firmware Q} (h : Settled t s)
    (hread : s.framesRead <+: f.framesRead)
    (hcore : f.app.core.firstCycle = s.app.core.firstCycle ∧
      f.app.core.hostLock = s.app.core.hostLock)
    (hasked : f.app.cmdCtx.doorLockRequested = true →
      s.app.cmdCtx.doorLockRequested = true ∨ ∃ request ∈ framesSince t f, request.asks = .lock) :
    Settled t f := by
  refine ⟨hcore.1.trans h.notFirst, hcore.2.trans h.held, fun hnew => ?_⟩
  rcases hasked hnew with hbefore | hmore
  · obtain ⟨request, hmem, hlock⟩ := h.asked hbefore
    exact ⟨request, (hread.drop _).subset hmem, hlock⟩
  · exact hmore

theorem Settled.exec {t s f : Firmware Q} {a : Action} (h : Settled t s)
    (hparser : s.parser = FrameParser.new.after s.consumed)
    (hread : t.framesRead <+: s.framesRead) (hexec : s.exec M cfg a = some f) : Settled t f := by
  have hmore := framesRead_exec hexec
  cases moves hexec with
  | idle ha _ _ _ happ =>
      rcases happ with happ | happ
      · refine h.of_same hmore (by rw [happ]; exact ⟨rfl, rfl⟩) fun hnew => Or.inl ?_
        rwa [happ] at hnew
      · refine h.of_same hmore (by rw [happ]; exact ⟨rfl, rfl⟩) fun hnew => Or.inl ?_
        rwa [happ] at hnew
  | cycled pins _ heq =>
      rw [heq]
      exact settled_cycle t pins h.notFirst
  | served ha bytes request hsince hframes reply response hserve =>
      obtain ⟨hctx, -⟩ := BcmApp.serve_asks hserve
      have hlast : f.framesRead = s.framesRead ++ [request] := by
        rw [hsince.framesRead hparser, hframes]
      refine h.of_same hmore ?_ fun hnew => ?_
      · rcases BcmApp.serve_faults hserve with hsame | ⟨-, hcleared⟩
        · rw [hsame]
          exact ⟨rfl, rfl⟩
        · rw [hcleared]
          exact ⟨rfl, rfl⟩
      · rw [hctx] at hnew
        refine (lockRequested_apply hnew).imp id fun hasks => ⟨request, ?_, hasks⟩
        rw [framesSince_append hread hlast]
        exact List.mem_append_right _ (List.mem_singleton_self request)
  | sampled ha raw _ happ =>
      refine h.of_same hmore (by rw [happ]; exact ⟨rfl, rfl⟩) fun hnew => Or.inl ?_
      rwa [happ] at hnew
  | drained ha _ happ =>
      refine h.of_same hmore (by rw [happ]; exact ⟨rfl, rfl⟩) fun hnew => Or.inl ?_
      rwa [happ] at hnew

theorem unlocking_cycle {s : Firmware Q} {pins : Bsp.Levels}
    (hlocked : s.app.core.door.state = .locked)
    (hunlocks : (s.cycle cfg pins).app.core.door.state ≠ .locked) :
    (s.cycle cfg pins).app.core.door.Unlocking cfg 1 ∧ s.app.core.firstCycle = false := by
  obtain ⟨hdoor, hinputs, -, hfirst, -⟩ :=
    s.app.gatherInputs_core (s.readButtons pins kControlMs).snapshot
  have hshut : (s.app.gatherInputs (s.readButtons pins kControlMs).snapshot).core.inputs.doorOpen =
      false := (congrArg Inputs.doorOpen hinputs).trans rfl
  rw [← hdoor] at hlocked
  rw [← hfirst]
  exact ⟨BcmCore.unlocking_step hlocked hshut hunlocks,
    (BcmCore.unlock_cause hlocked hunlocks).1⟩

/-- A cycle in which nobody asks for the lock. -/
theorem unlocking_cycle_later {actions : List Action} {s : Firmware Q} {pins : Bsp.Levels}
    {cycles : Nat} (hs : run M cfg up actions = some s)
    (h : s.app.core.door.Unlocking cfg cycles) (hyet : doorsAfter cfg cycles ≠ .locked)
    (hnotFirst : s.app.core.firstCycle = false) (hheld : s.app.core.hostLock = false)
    (hasked : s.app.cmdCtx.doorLockRequested = false) (hswitch : s.LeavesSwitch (.cycle pins)) :
    (s.cycle cfg pins).app.core.door.Unlocking cfg (cycles + 1) := by
  have hbefore := (requests_of_run hs).previous hnotFirst
  obtain ⟨hdoor, hinputs, hprevious, hfirst, hlock, -⟩ :=
    s.app.gatherInputs_core (s.readButtons pins kControlMs).snapshot
  have hshut : (s.app.gatherInputs (s.readButtons pins kControlMs).snapshot).core.inputs.doorOpen =
      false := (congrArg Inputs.doorOpen hinputs).trans rfl
  have hpress : (s.app.gatherInputs (s.readButtons pins kControlMs).snapshot).core.doorSwitch =
      false := by
    rw [BcmCore.doorSwitch, hinputs, hprevious, hbefore]
    cases hold : (s.buttons .doorLock).state with
    | true => exact Bool.and_false _
    | false => exact (Bool.and_true _).trans (hswitch hold)
  rw [hheld, hasked] at hlock
  rw [← hdoor] at h
  exact BcmCore.unlocking_later h hyet (hfirst.trans hnotFirst) hshut hpress hlock

/-- While no request to lock is read, the doors count the cycles since they were unlocked. -/
structure LocksAgain (cfg : Config) (t : Firmware Q) (cycles : Nat) (f : Firmware Q) : Prop
    extends Settled t f where
  unlocking : (∀ request ∈ framesSince t f, request.asks ≠ .lock) → doorsAfter cfg cycles ≠ .locked →
    f.app.core.door.Unlocking cfg (cycles + 1)

theorem LocksAgain.exec {actions : List Action} {t s f : Firmware Q} {a : Action} {cycles : Nat}
    (h : LocksAgain cfg t cycles s) (hs : run M cfg up actions = some s)
    (hread : t.framesRead <+: s.framesRead) (hswitch : s.LeavesSwitch a)
    (hexec : s.exec M cfg a = some f) :
    LocksAgain cfg t (cycles + [a].countP Action.isCycle) f := by
  have hmore := framesRead_exec hexec
  refine ⟨h.toSettled.exec (reads_of_run hs).parser hread hexec, fun hnone hyet => ?_⟩
  have hbefore : ∀ request ∈ framesSince t s, request.asks ≠ .lock :=
    fun request hrequest => hnone request ((hmore.drop _).subset hrequest)
  rw [List.countP_singleton] at hyet ⊢
  cases ha : a.isCycle with
  | false =>
      obtain ⟨faults, log, hcore⟩ := core_frame hexec ha
      rw [ha] at hyet
      rw [hcore]
      exact h.unlocking hbefore hyet
  | true =>
      rw [ha, if_pos rfl] at hyet
      have hopen := h.unlocking hbefore fun hover => hyet (doorsAfter_locked_succ hover)
      have hasked : s.app.cmdCtx.doorLockRequested = false := by
        by_contra hasked
        obtain ⟨request, hmem, hasks⟩ := h.asked (Bool.not_eq_false _ ▸ hasked)
        exact hbefore request hmem hasks
      cases moves hexec with
      | cycled pins hpins heq =>
          rw [hpins] at hswitch
          rw [heq, if_pos rfl]
          exact unlocking_cycle_later hs hopen hyet h.notFirst h.held hasked hswitch
      | idle hother | served hother | sampled hother | drained hother =>
          exact absurd (ha.symm.trans hother) (by simp)

/-- **Doors that have been unlocked lock again.** Let a cycle unlock them, and from then on let the
door switch not be pressed and no DOOR_LOCK be read. Until they are locked they are in each cycle what
the times of the configuration say, however often they are asked to unlock, and whatever else
happens. -/
theorem doors_lock_again {before rest : List Action} {pins : Bsp.Levels} {s t f : Firmware Q}
    (hs : run M cfg up before = some s) (ht : s.exec M cfg (.cycle pins) = some t)
    (hlocked : s.app.core.door.state = .locked) (hunlocked : t.app.core.door.state ≠ .locked)
    (hf : PartialRuns.run (exec M cfg) t rest = some f)
    (hswitch : PartialRuns.Along (exec M cfg) LeavesSwitch t rest)
    (hlock : ∀ request ∈ framesSince t f, request.asks ≠ .lock)
    (hyet : doorsAfter cfg (rest.countP Action.isCycle) ≠ .locked) :
    f.app.core.door.state = doorsAfter cfg (rest.countP Action.isCycle + 1) := by
  have hrun : ∀ {back g}, PartialRuns.run (exec M cfg) t back = some g →
      run M cfg up (before ++ .cycle pins :: back) = some g := by
    intro back g hg
    rw [run, PartialRuns.run_append, Option.bind_eq_some_iff]
    refine ⟨s, hs, ?_⟩
    rw [PartialRuns.run_cons, ht]
    exact hg
  have hcycled : s.cycle cfg pins = t := by
    rw [exec, Option.ite_none_left_eq_some] at ht
    exact Option.some.inj ht.2
  rw [← hcycled] at hunlocked
  obtain ⟨hfirst, hnotFirst⟩ := unlocking_cycle hlocked hunlocked
  have hsettled : Settled t (s.cycle cfg pins) := settled_cycle t pins hnotFirst
  rw [hcycled] at hfirst hsettled
  have hagain : LocksAgain cfg t (rest.countP Action.isCycle) f := by
    refine PartialRuns.run_history
      (I := fun back g => LocksAgain cfg t (back.countP Action.isCycle) g)
      ⟨hsettled, fun _ _ => hfirst⟩ (fun back a g g' hg hleaves hagain hexec => ?_) hswitch hf
    rw [List.countP_append]
    exact hagain.exec (hrun hg) (framesRead_grows hg) hleaves hexec
  exact (hagain.unlocking hlock hyet).state

/-- Times that are over soon. -/
def shortTimes : Config := { Config.shipped with welcomeDurationMs := 10, autoLockDelayMs := 10 }

/-- Unlocked by the host, and asked to once more, they are locked in the third cycle. -/
theorem doors_lock_again_short :
    let M := MessageQueue.plain LogRecord kLogQueueLength
    let rest : List Action := unlockActions ++ [.cycle PowerUp.quiet.pins]
    ∃ s t f, run M shortTimes .quiet unlockActions = some s ∧
      s.exec M shortTimes (.cycle PowerUp.quiet.pins) = some t ∧
      t.app.core.door.state ≠ .locked ∧ PartialRuns.run (exec M shortTimes) t rest = some f ∧
      f.app.core.door.state = .locked := by
  intro M rest
  have hfacts : (run M shortTimes .quiet unlockActions).any (fun s =>
      decide (s.app.core.door.state = .locked) &&
        (s.exec M shortTimes (.cycle PowerUp.quiet.pins)).any (fun t =>
          decide (t.app.core.door.state ≠ .locked) &&
            (decide (PartialRuns.Along (exec M shortTimes) LeavesSwitch t rest) &&
              (PartialRuns.run (exec M shortTimes) t rest).any (fun f =>
                decide (∀ request ∈ framesSince t f, request.asks ≠ .lock))))) = true := by
    decide +kernel
  simp only [Option.any_eq_true, Bool.and_eq_true, decide_eq_true_eq] at hfacts
  obtain ⟨s, hs, hlocked, t, ht, hunlocked, hswitch, f, hf, hnolock⟩ := hfacts
  refine ⟨s, t, f, hs, ht, hunlocked, hf, ?_⟩
  exact doors_lock_again hs ht hlocked hunlocked hf hswitch hnolock (by decide)

end Firmware

end Bcm
