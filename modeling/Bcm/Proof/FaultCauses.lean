import Bcm.Proof.LinkLoss
import Bcm.Proof.OverrunReport
import Bcm.Proof.StatusCurrent

/-!
# What the faults say

On this board no door switch is wired and the self test reports no fault, so two of the codes never
come up. Each of the others is active exactly while something that has happened calls for it: the
watchdog before power up, an overrun that a cycle has found, or what the last cycle has found of the
battery and of the link. A CLEAR_DTC that is read takes each of these down.
-/

namespace Bcm

/-! ### No lock is refused -/

/-- No door is open, and no refusal stands. -/
structure DoorMgr.Shut (d : DoorMgr) : Prop where
  closed : d.ctx.doorOpen = false
  accepted : d.ctx.lockRefused = false

namespace DoorMgr.Shut

variable {d : DoorMgr}

theorem requestLock (h : d.Shut) : d.requestLock.Shut := by
  by_cases hlocked : d.state = .locked
  · have hkept : d.requestLock.ctx = d.ctx := by
      rw [DoorMgr.requestLock, dispatch_lockRequest, if_pos hlocked]
      simp
    exact ⟨by rw [hkept, h.closed], by rw [hkept, h.accepted]⟩
  · obtain ⟨-, hctx, -, -⟩ := requestLock_of_shut h.closed hlocked
    exact ⟨by rw [hctx]; exact h.closed, by rw [hctx]; rfl⟩

theorem requestUnlock (h : d.Shut) (cfg : Config) : (d.requestUnlock cfg).Shut := by
  by_cases hlocked : d.state = .locked
  · obtain ⟨-, -, hctx⟩ := requestUnlock_of_locked cfg hlocked
    exact ⟨by rw [hctx]; exact h.closed, by rw [hctx]; rfl⟩
  · rw [requestUnlock_of_unlocked cfg hlocked]
    exact h

theorem update (h : d.Shut) (cfg : Config) (dtMs : Nat) : (d.update cfg dtMs).Shut := by
  obtain ⟨-, -, hctx⟩ := d.updateWelcome_eq cfg dtMs
  have hwelcome : (d.updateWelcome cfg dtMs).Shut :=
    ⟨by rw [hctx, h.closed], by rw [hctx, h.accepted]⟩
  rw [DoorMgr.update]
  generalize d.updateWelcome cfg dtMs = d' at hwelcome
  obtain ⟨hclosed, haccepted⟩ := hwelcome
  unfold updateAutoLock
  dsimp only
  split
  · rw [dispatch_autoLockElapsed]
    dsimp only
    rw [if_neg (hclosed ▸ Bool.false_ne_true : ¬d'.ctx.doorOpen = true)]
    split
    · exact ⟨hclosed, haccepted⟩
    · exact ⟨hclosed, rfl⟩
  · exact ⟨hclosed, haccepted⟩

end DoorMgr.Shut

namespace BcmCore

variable {s : BcmCore}

theorem shut_requestedDoor (h : s.door.Shut) (hinputs : s.inputs.doorOpen = false)
    (cfg : Config) : (s.requestedDoor cfg).Shut := by
  have hread : (s.door.setDoorOpen s.inputs.doorOpen).Shut := ⟨hinputs, h.accepted⟩
  exact requestedDoor_keeps hread (fun _ h => h.requestUnlock cfg) fun _ h => h.requestLock

/-- With every door shut no lock is refused, in this cycle or for the next. -/
theorem shut_step (h : s.door.Shut) (hinputs : s.inputs.doorOpen = false) (cfg : Config)
    (dtMs : Nat) : (s.step cfg dtMs).door.Shut ∧ s.lockRefusal cfg dtMs = false := by
  have hedges : (s.applyEdges cfg dtMs).door.Shut := by
    rw [applyEdges_door]
    split
    · exact h
    · exact shut_requestedDoor h hinputs cfg
  have hupdate := hedges.update cfg dtMs
  refine ⟨?_, hupdate.accepted⟩
  rw [step_door]
  exact ⟨hupdate.closed, rfl⟩

end BcmCore

namespace Firmware

variable {Q : Type} {M : MessageQueue Q LogRecord} {cfg : Config} {up : PowerUp Q}

theorem shut_cycle {f : Firmware Q} (h : f.app.core.door.Shut) (pins : Bsp.Levels) :
    (f.cycle cfg pins).app.core.door.Shut ∧
      (f.app.gatherInputs (f.readButtons pins kControlMs).snapshot).core.lockRefusal cfg
        kControlMs = false := by
  obtain ⟨hdoor, hinputs, -⟩ :=
    f.app.gatherInputs_core (f.readButtons pins kControlMs).snapshot
  rw [← hdoor] at h
  exact BcmCore.shut_step h (by rw [hinputs]; rfl) cfg kControlMs

theorem shut_of_run {actions : List Action} {f : Firmware Q} (h : run M cfg up actions = some f) :
    f.app.core.door.Shut := by
  refine PartialRuns.run_invariant (I := fun f => f.app.core.door.Shut) ?_ ?_ h
  · unfold start BcmApp.init
    cases up.wasWatchdog with
    | false => exact ⟨rfl, rfl⟩
    | true => exact ⟨rfl, rfl⟩
  · intro s a t hs hexec
    cases ha : a.isCycle with
    | true =>
        cases moves hexec with
        | cycled pins _ heq =>
            rw [heq]
            exact (shut_cycle hs pins).1
        | idle hother | served hother | sampled hother | drained hother =>
            exact absurd (ha.symm.trans hother) (by simp)
    | false =>
        obtain ⟨faults, log, hcore⟩ := core_frame hexec ha
        rw [hcore]
        exact hs

/-! ### What a cycle and a request do to a fault -/

variable (cfg) in
/-- What a cycle finds: an overrun, the link lost, or the battery low. -/
def finds (pins : Bsp.Levels) (code : Dtc) (f : Firmware Q) : Bool :=
  decide (code = Dtc.uartOverrun) && f.line.uart.overrun ||
    decide (code = Dtc.commsLost) && f.linkLost ||
    decide (code = Dtc.batteryLow) && (f.cycle cfg pins).app.core.power.loadShed

/-- What only the next cycle takes down, besides the host. -/
def UntilNext (code : Dtc) : Prop := code = Dtc.commsLost ∨ code = Dtc.batteryLow

theorem active_cycle {f : Firmware Q} (hwithin : f.app.core.faults.Within Dtc.named)
    (hshut : f.app.core.door.Shut) (pins : Bsp.Levels) (code : Dtc) :
    (f.cycle cfg pins).app.core.faults.isActive code = true ↔
      f.finds cfg pins code = true ∨
        f.app.core.faults.isActive code = true ∧ ¬UntilNext code := by
  have hfaults := faults_gatherInputs f.app (f.readButtons pins kControlMs).snapshot
  have hoverrun : (f.readButtons pins kControlMs).snapshot.overrun = f.line.uart.overrun := rfl
  rw [hoverrun] at hfaults
  have hgathered : (f.app.gatherInputs (f.readButtons pins kControlMs).snapshot).core.faults.Within
      Dtc.named := by
    rw [hfaults]
    split
    · exact hwithin.set BcmCore.named_room (Or.inr (by decide))
    · exact hwithin
  have hactive : (f.cycle cfg pins).app.core.faults.isActive code =
      if code = Dtc.commsLost then f.linkLost
      else if code = Dtc.batteryLow then (f.cycle cfg pins).app.core.power.loadShed
      else (if f.line.uart.overrun then f.app.core.faults.set Dtc.uartOverrun
        else f.app.core.faults).isActive code := by
    have hstep := BcmCore.isActive_step cfg kControlMs hgathered code
    rw [BcmCore.refusalFaults, (shut_cycle hshut pins).2, commsLost_gatherInputs, hfaults] at hstep
    exact hstep
  have hset : (if f.line.uart.overrun then f.app.core.faults.set Dtc.uartOverrun
      else f.app.core.faults).isActive code =
        (decide (code = Dtc.uartOverrun) && f.line.uart.overrun ||
          f.app.core.faults.isActive code) := by
    cases f.line.uart.overrun with
    | false => simp
    | true =>
        rw [if_pos rfl, FaultMgr.isActive_set (by decide) (hwithin.fits BcmCore.named_room _),
          Bool.and_true]
  rw [hactive, hset, finds, UntilNext]
  by_cases hcomms : code = Dtc.commsLost
  · rw [hcomms]
    simp [Dtc.commsLost, Dtc.uartOverrun, Dtc.batteryLow]
  · by_cases hbattery : code = Dtc.batteryLow
    · rw [hbattery]
      simp [Dtc.commsLost, Dtc.uartOverrun, Dtc.batteryLow]
    · simp [hcomms, hbattery]

theorem faults_serve {a a' : BcmApp} {request response : Frame} {reply : Bool}
    (h : a.serve request = some (reply, response, a')) (hfaults : a.cmdCtx.faults.isSome = true) :
    a'.core.faults =
      if request.asks = .clearFaults then a.core.faults.clearAll else a.core.faults := by
  obtain ⟨hctx, hcore⟩ := BcmApp.serve_asks h
  obtain ⟨faults, hsome⟩ := Option.isSome_iff_exists.mp hfaults
  rw [hcore, hctx, hsome]
  cases hasks : request.asks with
  | clearFaults => rfl
  | lamp id on =>
      rw [if_neg (by simp)]
      unfold HostAct.apply
      dsimp only
      split
      · rfl
      · rfl
  | nothing | lock | unlock | reset => rfl

theorem active_exec {f f' : Firmware Q} {a : Action} (hholds : f.Holds)
    (hparser : f.parser = FrameParser.new.after f.consumed) (h : f.exec M cfg a = some f')
    (ha : a.isCycle = false) : ∃ more, f'.framesRead = f.framesRead ++ more ∧
      ∀ code, f'.app.core.faults.isActive code = true ↔
        f.app.core.faults.isActive code = true ∧
          ∀ request ∈ more, request.asks ≠ .clearFaults := by
  have hsame : ∀ {bytes}, Since f f' bytes → f.parser.frames bytes = [] →
      f'.app.core.faults = f.app.core.faults → ∃ more, f'.framesRead = f.framesRead ++ more ∧
        ∀ code, f'.app.core.faults.isActive code = true ↔
          f.app.core.faults.isActive code = true ∧
            ∀ request ∈ more, request.asks ≠ .clearFaults := by
    intro bytes hsince hnone hfaults
    refine ⟨[], by rw [hsince.framesRead hparser, hnone], fun code => ?_⟩
    rw [hfaults]
    exact (and_iff_left fun request hrequest => absurd hrequest List.not_mem_nil).symm
  cases moves h with
  | idle _ bytes hsince hframes happ =>
      refine hsame hsince hframes ?_
      rcases happ with happ | happ
      · rw [happ]
      · rw [happ]
        rfl
  | cycled pins heq =>
      rw [heq] at ha
      exact absurd ha (by simp [Action.isCycle])
  | served _ bytes request hsince hframes reply response hserve =>
      refine ⟨[request], by rw [hsince.framesRead hparser, hframes], fun code => ?_⟩
      rw [faults_serve hserve hholds.faults]
      by_cases hclear : request.asks = .clearFaults
      · rw [if_pos hclear]
        simp [hclear, FaultMgr.clearAll, FaultMgr.isActive, FaultMgr.new]
      · rw [if_neg hclear]
        simp [hclear]
  | sampled _ raw hsince happ =>
      refine hsame hsince rfl ?_
      rw [happ]
      rfl
  | drained _ hsince happ =>
      refine hsame hsince rfl ?_
      rw [happ]
      rfl

/-! ### Causes -/

/-- None of the frames read since asks for the faults to be cleared. -/
def NotClearedSince (s f : Firmware Q) : Prop :=
  ∀ request ∈ framesSince s f, request.asks ≠ .clearFaults

instance (s f : Firmware Q) : Decidable (NotClearedSince s f) :=
  inferInstanceAs (Decidable (∀ request ∈ framesSince s f, _))

variable (cfg) in
/-- The next action is a cycle that finds the fault. It lasts, for an overrun, or until the next
cycle, and no request takes it down. -/
def Causes (code : Dtc) (f s : Firmware Q) (rest : List Action) : Prop :=
  ∃ pins after, rest = .cycle pins :: after ∧ s.finds cfg pins code = true ∧
    (UntilNext code → ∀ a ∈ after, a.isCycle = false) ∧ NotClearedSince s f

variable (M cfg up) in
/-- A cycle of the run has found the fault, and it still stands. -/
def Found (actions : List Action) (f : Firmware Q) (code : Dtc) : Prop :=
  PartialRuns.Earlier (exec M cfg) (start M cfg up) actions (Causes cfg code f)

variable (M cfg up) in
/-- The watchdog has reset the controller, and the host has not cleared that. -/
def Restarted (f : Firmware Q) (code : Dtc) : Prop :=
  code = Dtc.watchdogReset ∧ up.wasWatchdog = true ∧ NotClearedSince (start M cfg up) f

theorem notClearedSince_append {s f f' : Firmware Q} {more : List Frame}
    (hs : s.framesRead <+: f.framesRead) (hmore : f'.framesRead = f.framesRead ++ more) :
    NotClearedSince s f' ↔
      NotClearedSince s f ∧ ∀ request ∈ more, request.asks ≠ .clearFaults := by
  rw [NotClearedSince, framesSince_append hs hmore, List.forall_mem_append]
  rfl

section Step

variable {actions : List Action} {a : Action} {f f' : Firmware Q} {more : List Frame}
  (h : run M cfg up actions = some f) (hmore : f'.framesRead = f.framesRead ++ more)

include h hmore

theorem restarted_concat (code : Dtc) :
    Restarted M cfg up f' code ↔
      Restarted M cfg up f code ∧ ∀ request ∈ more, request.asks ≠ .clearFaults := by
  rw [Restarted, Restarted, notClearedSince_append (framesRead_grows h) hmore, and_assoc, and_assoc]

theorem found_concat (hexec : f.exec M cfg a = some f') (code : Dtc) :
    Found M cfg up (actions ++ [a]) f' code ↔
      (∃ pins, a = .cycle pins ∧ f.finds cfg pins code = true ∧
        ∀ request ∈ more, request.asks ≠ .clearFaults) ∨
      Found M cfg up actions f code ∧ (UntilNext code → a.isCycle = false) ∧
        ∀ request ∈ more, request.asks ≠ .clearFaults := by
  have hrun : PartialRuns.run (exec M cfg) (start M cfg up) (actions ++ [a]) = some f' := by
    rw [PartialRuns.run_concat, Option.bind_eq_some_iff]
    exact ⟨f, h, hexec⟩
  have hcleared : ∀ {front back s}, actions = front ++ back → run M cfg up front = some s →
      (NotClearedSince s f' ↔
        NotClearedSince s f ∧ ∀ request ∈ more, request.asks ≠ .clearFaults) := by
    intro front back s hsplit hs
    rw [run, hsplit] at h
    exact notClearedSince_append (framesRead_grows (PartialRuns.run_rest h hs)) hmore
  rw [Found, PartialRuns.earlier_concat hrun]
  constructor
  · rintro (⟨pins, after, hnil, -⟩ | ⟨front, back, s, hsplit, hs, pins, after, hrest, hfinds,
      huntil, hclear⟩)
    · exact absurd hnil (by simp)
    · have hclear := (hcleared hsplit hs).mp hclear
      cases back with
      | nil =>
          -- the cycle that finds it is the last action
          obtain ⟨ha, -⟩ := List.cons.inj hrest
          rw [List.append_nil] at hsplit
          obtain rfl : f = s := Option.some.inj (h.symm.trans (hsplit ▸ hs))
          exact Or.inl ⟨pins, ha, hfinds, hclear.2⟩
      | cons b back =>
          obtain ⟨rfl, hafter⟩ := List.cons.inj hrest
          rw [← hafter] at huntil
          refine Or.inr ⟨⟨front, _, s, hsplit, hs, pins, back, rfl, hfinds, ?_, hclear.1⟩, ?_,
            hclear.2⟩
          · exact fun hnext b hb => huntil hnext b (List.mem_append_left _ hb)
          · exact fun hnext => huntil hnext a (by simp)
  · rintro (⟨pins, rfl, hfinds, hclear⟩ | ⟨⟨front, back, s, hsplit, hs, pins, after, rfl, hfinds,
      huntil, hbefore⟩, hother, hclear⟩)
    · right
      refine ⟨actions, [], f, (List.append_nil _).symm, h, pins, [], rfl, hfinds,
        fun _ b hb => absurd hb List.not_mem_nil, ?_⟩
      refine (hcleared (List.append_nil _).symm h).mpr ⟨?_, hclear⟩
      rw [NotClearedSince, framesSince_self]
      exact fun request hrequest => absurd hrequest List.not_mem_nil
    · right
      refine ⟨front, _, s, hsplit, hs, pins, after ++ [a], rfl, hfinds, fun hnext b hb => ?_,
        (hcleared hsplit hs).mpr ⟨hbefore, hclear⟩⟩
      rcases List.mem_append.mp hb with hb | hb
      · exact huntil hnext b hb
      · rw [List.mem_singleton.mp hb]
        exact hother hnext

end Step

theorem active_iff_of_run {actions : List Action} {f : Firmware Q}
    (h : run M cfg up actions = some f) (code : Dtc) :
    f.app.core.faults.isActive code = true ↔
      Restarted M cfg up f code ∨ Found M cfg up actions f code := by
  refine history_of_run (I := fun actions f => f.app.core.faults.isActive code = true ↔
    Restarted M cfg up f code ∨ Found M cfg up actions f code) ?_ ?_ h
  · have hnone : ¬Found M cfg up [] (start M cfg up) code := by
      rintro ⟨front, back, s, hsplit, -, pins, after, rfl, -⟩
      exact absurd hsplit (by simp)
    have hclear : NotClearedSince (start M cfg up) (start M cfg up) :=
      fun request hrequest => absurd hrequest (by rw [framesSince_self]; exact List.not_mem_nil)
    rw [or_iff_left hnone, Restarted, and_iff_left hclear]
    unfold start BcmApp.init
    cases up.wasWatchdog with
    | false => simp [BcmApp.new, BcmCore.new, FaultMgr.isActive, FaultMgr.new]
    | true =>
        have hfits : FaultMgr.new.Fits Dtc.watchdogReset :=
          (FaultMgr.within_new Dtc.named).fits BcmCore.named_room _
        change (FaultMgr.new.set Dtc.watchdogReset).isActive code = true ↔ _
        rw [FaultMgr.isActive_set (by decide) hfits]
        simp [FaultMgr.isActive, FaultMgr.new]
  · intro actions a s t hs hactive hexec
    cases ha : a.isCycle with
    | true =>
        obtain ⟨pins, rfl⟩ : ∃ pins, a = .cycle pins := by
          cases a with
          | cycle pins => exact ⟨pins, rfl⟩
          | _ => exact absurd ha (by simp [Action.isCycle])
        have ht := hexec
        rw [exec, Option.ite_none_left_eq_some] at ht
        have hmore : t.framesRead = s.framesRead ++ [] := by
          rw [← Option.some.inj ht.2, List.append_nil]
          rfl
        rw [restarted_concat hs hmore, found_concat hs hmore hexec, ← Option.some.inj ht.2,
          active_cycle (within_of_run hs) (shut_of_run hs), hactive]
        have hnone : ∀ request ∈ ([] : List Frame), request.asks ≠ .clearFaults :=
          fun request hrequest => absurd hrequest List.not_mem_nil
        constructor
        · rintro (hfinds | ⟨hrestarted | hfound, hother⟩)
          · exact Or.inr (Or.inl ⟨pins, rfl, hfinds, hnone⟩)
          · exact Or.inl ⟨hrestarted, hnone⟩
          · exact Or.inr (Or.inr ⟨hfound, fun hnext => absurd hnext hother, hnone⟩)
        · rintro (⟨hrestarted, -⟩ | ⟨pins', hpins, hfinds, -⟩ | ⟨hfound, hother, -⟩)
          · refine Or.inr ⟨Or.inl hrestarted, ?_⟩
            rw [hrestarted.1, UntilNext]
            decide
          · rw [Action.cycle.inj hpins]
            exact Or.inl hfinds
          · exact Or.inr ⟨Or.inr hfound, fun hnext => absurd (ha.symm.trans (hother hnext)) (by decide)⟩
    | false =>
        obtain ⟨more, hmore, hexact⟩ :=
          active_exec (holds_of_run hs) (reads_of_run hs).parser hexec ha
        have hlast : ¬∃ pins, a = .cycle pins ∧ s.finds cfg pins code = true ∧
            ∀ request ∈ more, request.asks ≠ .clearFaults := by
          rintro ⟨pins, rfl, -⟩
          exact absurd ha (by simp [Action.isCycle])
        rw [hexact, hactive, restarted_concat hs hmore, found_concat hs hmore hexec,
          or_iff_right hlast, or_and_right]
        exact or_congr Iff.rfl (and_congr_right fun _ => (and_iff_right fun _ => ha).symm)

theorem mem_active_iff {faults : FaultMgr} (h : faults.Within Dtc.named) (code : Dtc) :
    code ∈ (faults.entries.filter (·.active)).map (·.code) ↔ faults.isActive code = true := by
  rw [List.mem_map]
  constructor
  · rintro ⟨e, he, rfl⟩
    obtain ⟨hmem, hactive⟩ := List.mem_filter.mp he
    rw [FaultMgr.isActive_of_mem h.nodup hmem, hactive]
  · intro hactive
    rw [FaultMgr.isActive, Option.any_eq_true] at hactive
    obtain ⟨e, hfind, hactive⟩ := hactive
    have hcode := List.find?_some hfind
    exact ⟨e, List.mem_filter.mpr ⟨List.mem_of_find?_eq_some hfind, hactive⟩,
      of_decide_eq_true hcode⟩

/-- **Every trouble code has its cause.** At any point of any interleaving GET_DTC shows the desktop
tool a code if and only if the watchdog has reset the controller and the code says so, or a cycle
has found an overrun, or the last cycle has found the link lost or the battery low, and no frame read
since has asked for the faults to be cleared. -/
theorem trouble_codes_have_causes {actions : List Action} {f : Firmware Q}
    (h : run M cfg up actions = some f) {p : Desktop.FrameParser} (hp : p.state = .header)
    (request : Frame) (code : Dtc) :
    code ∈ Desktop.getDtcsAsync
        (query .getDtc request f.app.dispatcher (some f.lentContext) p) ↔
      Restarted M cfg up f code ∨ Found M cfg up actions f code := by
  obtain ⟨faults, hfaults⟩ := Option.isSome_iff_exists.mp (holds_of_run h).faults
  have hlent : f.lentContext.faults = some f.app.core.faults := by
    rw [lentContext, hfaults]
    rfl
  rw [getDtc_faithful hp f.lentContext hlent request, mem_active_iff (within_of_run h),
    active_iff_of_run h]

/-- A damaged byte that a cycle finds, after a reset by the watchdog. Both codes show, until a
CLEAR_DTC has been read. -/
theorem trouble_codes_have_causes_restarted :
    let M := MessageQueue.plain LogRecord kLogQueueLength
    let up := { PowerUp.quiet with wasWatchdog := true }
    let noise : List Action := [.irq ⟨none, false, true⟩]
    let found := noise ++ [.cycle up.pins]
    let codes := fun f : Firmware (List LogRecord) => Desktop.getDtcsAsync
      (query .getDtc .new f.app.dispatcher (some f.lentContext) .new)
    ∃ f g, run M .shipped up found = some f ∧
      Dtc.watchdogReset ∈ codes f ∧ Dtc.uartOverrun ∈ codes f ∧
      run M .shipped up (found ++ arrivals [0xAA, 0x0A, 0x00, 0x82, 0x55]) = some g ∧
      ¬Restarted M .shipped up g Dtc.watchdogReset ∧
      ¬Found M .shipped up (found ++ arrivals [0xAA, 0x0A, 0x00, 0x82, 0x55]) g
        Dtc.uartOverrun := by
  intro M up noise found codes
  have hnoise : (run M .shipped up noise).any (fun s =>
      s.finds .shipped up.pins Dtc.uartOverrun &&
        (s.exec M .shipped (.cycle up.pins)).any (fun f =>
          decide (NotClearedSince s f) && decide (NotClearedSince (start M .shipped up) f))) =
      true := by decide +kernel
  have hcleared : (run M .shipped up (found ++ arrivals [0xAA, 0x0A, 0x00, 0x82, 0x55])).any
      (fun g => decide (Dtc.watchdogReset ∉ codes g) && decide (Dtc.uartOverrun ∉ codes g)) =
      true := by decide +kernel
  simp only [Option.any_eq_true, Bool.and_eq_true, decide_eq_true_eq] at hnoise hcleared
  obtain ⟨s, hs, hfinds, f, hf, hsince, hever⟩ := hnoise
  obtain ⟨g, hg, hreset, hoverrun⟩ := hcleared
  have hrun : run M .shipped up found = some f := by
    rw [run, PartialRuns.run_concat, Option.bind_eq_some_iff]
    exact ⟨s, hs, hf⟩
  have hshown := trouble_codes_have_causes hrun (p := .new) rfl .new
  have hgone := trouble_codes_have_causes hg (p := .new) rfl .new
  refine ⟨f, g, hrun, (hshown _).mpr (Or.inl ⟨rfl, rfl, hever⟩), (hshown _).mpr (Or.inr ?_), hg,
    fun h => hreset ((hgone _).mpr (Or.inl h)), fun h => hoverrun ((hgone _).mpr (Or.inr h))⟩
  refine ⟨noise, [.cycle up.pins], s, rfl, hs, up.pins, [], rfl, hfinds, ?_, hsince⟩
  exact fun _ b hb => absurd hb List.not_mem_nil

end Firmware

end Bcm
