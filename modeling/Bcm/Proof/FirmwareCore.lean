import Bcm.Proof.FaultReports
import Bcm.Proof.HostRequests
import Bcm.Proof.ReceivePath

/-!
# The core in the firmware

What the tasks do to the core are operations that a run of the core is made of, so whatever holds of
all its runs holds in the firmware.
-/

namespace Bcm

theorem BcmApp.serve_asks {a a' : BcmApp} {request response : Frame} {reply : Bool}
    (h : a.serve request = some (reply, response, a')) :
    a'.cmdCtx = request.asks.apply
        { a.cmdCtx with faults := a.cmdCtx.faults.map fun _ => a.core.faults } ∧
      a'.core = { a.core with faults := a'.cmdCtx.faults.getD a.core.faults } := by
  rw [serve, Option.bind_eq_bind, Option.bind_eq_some_iff] at h
  obtain ⟨⟨reply, response, dispatcher, ctx⟩, hdispatch, hresult⟩ := h
  obtain ⟨-, -, rfl⟩ := Option.some.inj hresult
  rw [Commands.dispatch_asks hdispatch]
  exact ⟨rfl, rfl⟩

/-- The store is left as it is, or cleared by the request that asks for it. -/
theorem BcmApp.serve_faults {a a' : BcmApp} {request response : Frame} {reply : Bool}
    (h : a.serve request = some (reply, response, a')) :
    a'.core = a.core ∨
      request.asks = .clearFaults ∧ a'.core = { a.core with faults := a.core.faults.clearAll } := by
  obtain ⟨hctx, hcore⟩ := serve_asks h
  rw [hcore, hctx]
  cases hasks : request.asks with
  | clearFaults =>
      cases a.cmdCtx.faults with
      | none => exact Or.inl rfl
      | some faults => exact Or.inr ⟨rfl, rfl⟩
  | lamp id on =>
      left
      unfold HostAct.apply
      dsimp only
      split
      · cases a.cmdCtx.faults <;> rfl
      · cases a.cmdCtx.faults <;> rfl
  | nothing => left; cases a.cmdCtx.faults <;> rfl
  | lock => left; cases a.cmdCtx.faults <;> rfl
  | unlock => left; cases a.cmdCtx.faults <;> rfl
  | reset => left; cases a.cmdCtx.faults <;> rfl

namespace Firmware

open BcmCore (NamesFaults)

variable {Q : Type} {M : MessageQueue Q LogRecord} {cfg : Config} {up : PowerUp Q}

def Action.isCycle : Action → Bool
  | .cycle _ => true
  | _ => false

/-- **What an action does to the application**, and the bytes it reads. -/
inductive Moves (cfg : Config) (f : Firmware Q) (a : Action) (f' : Firmware Q) : Prop
  | idle (ha : a.isCycle = false) (bytes : List UInt8) (hsince : Since f f' bytes)
      (hframes : f.parser.frames bytes = []) (happ : f'.app = f.app ∨ f'.app = f.lends)
  | cycled (pins : Bsp.Levels) (ha : a = .cycle pins) (heq : f' = f.cycle cfg pins)
  | served (ha : a.isCycle = false) (bytes : List UInt8) (request : Frame)
      (hsince : Since f f' bytes) (hframes : f.parser.frames bytes = [request]) (reply : Bool)
      (response : Frame) (hserve : f.app.serve request = some (reply, response, f'.app))
  | sampled (ha : a.isCycle = false) (raw : BitVec 16) (hsince : Since f f' [])
      (happ : f'.app = f.app.sampleBattery raw)
  | drained (ha : a.isCycle = false) (hsince : Since f f' [])
      (happ : f'.app = f.app.takeLogEvent)

theorem answer_app (reply : Bool) (response : Frame) (f : Firmware Q) :
    (f.answer reply response).app = f.app := by
  unfold answer
  split
  · rfl
  · rfl

theorem moves_pollByte {f f' : Firmware Q} (h : f.pollByte = some f') :
    Moves cfg f .pollByte f' := by
  cases polled h with
  | idle hread heq =>
      rw [heq]
      exact .idle rfl [] ⟨(List.append_nil _).symm, rfl⟩ rfl (Or.inl rfl)
  | kept byte hread hmore heq =>
      rw [heq]
      refine .idle rfl [byte] ⟨rfl, rfl⟩ ?_ (Or.inr rfl)
      rw [FrameParser.frames_singleton, if_neg hmore]
  | served byte hread hcomplete reply response app hserve heq =>
      have hsame := sameLink_answer reply response { f.take byte with
        app := app
        linkTimer := f.linkTimer.start CommMgr.kDefaultTimeoutMs
        linkLost := false }
      rw [heq]
      refine .served rfl [byte] (f.parser.feed byte).1.frame ⟨hsame.consumed, hsame.parser⟩ ?_
        reply response ?_
      · rw [FrameParser.frames_singleton, if_pos hcomplete]
      · rw [answer_app]
        exact hserve

theorem moves {f f' : Firmware Q} {a : Action} (h : f.exec M cfg a = some f') :
    Moves cfg f a f' := by
  cases a with
  | cycle pins =>
      rw [exec, Option.ite_none_left_eq_some] at h
      exact .cycled pins rfl (Option.some.inj h.2).symm
  | pollByte => exact moves_pollByte h
  | pollEnd =>
      have hsince := (sameLink_pollEnd f).since
      obtain ⟨linkTimer, linkLost, hend⟩ := f.pollEnd_eq
      rw [← Option.some.inj h]
      exact .idle rfl [] hsince rfl (Or.inr (by rw [hend]))
  | sample raw =>
      rw [← Option.some.inj h]
      exact .sampled rfl raw ⟨(List.append_nil _).symm, rfl⟩ rfl
  | drain tick =>
      have hsince := (sameLink_drain M f tick).since
      obtain ⟨queue, offered, hdrain⟩ := drain_eq (M := M) f tick
      rw [← Option.some.inj h]
      exact .drained rfl hsince (by rw [hdrain])
  | heartbeat | irq irq =>
      rw [← Option.some.inj h]
      exact .idle rfl [] ⟨(List.append_nil _).symm, rfl⟩ rfl (Or.inl rfl)
  | takeRecord =>
      have hsince := (sameLink_takeRecord M f).since
      obtain ⟨held, queue, htake⟩ := takeRecord_eq (M := M) f
      rw [← Option.some.inj h]
      exact .idle rfl [] hsince rfl (Or.inl (by rw [htake]))
  | writeRecord =>
      have hsince := (sameLink_writeRecord f).since
      rw [← Option.some.inj h]
      exact .idle rfl [] hsince rfl (Or.inl (by rw [f.writeRecord_eq]))

theorem Moves.since {f f' : Firmware Q} {a : Action} (h : Moves cfg f a f') :
    ∃ bytes, Since f f' bytes := by
  cases h with
  | idle _ bytes hsince => exact ⟨bytes, hsince⟩
  | cycled pins _ heq =>
      rw [heq]
      exact ⟨[], (sameLink_cycle cfg pins f).since⟩
  | served _ bytes _ hsince => exact ⟨bytes, hsince⟩
  | sampled _ _ hsince => exact ⟨[], hsince⟩
  | drained _ hsince => exact ⟨[], hsince⟩

/-! ### The switches and the pins -/

/-- Nothing but the heartbeat has moved on the board. -/
structure SameBoard (f f' : Firmware Q) : Prop where
  buttons : f'.buttons = f.buttons
  outputs : f'.outputs = f.outputs
  levels : ∀ port pin, (port, pin) ≠ (Bsp.heartbeatPin.port, Bsp.heartbeatPin.pin) →
    f'.levels port pin = f.levels port pin

theorem sameBoard_of_eq {f f' : Firmware Q} (hbuttons : f'.buttons = f.buttons)
    (houtputs : f'.outputs = f.outputs) (hlevels : f'.levels = f.levels) : SameBoard f f' :=
  ⟨hbuttons, houtputs, fun _ _ _ => by rw [hlevels]⟩

theorem sameBoard_pollByte {f f' : Firmware Q} (h : f.pollByte = some f') : SameBoard f f' := by
  cases polled h with
  | idle _ heq | kept byte _ _ heq =>
      rw [heq]
      exact sameBoard_of_eq rfl rfl rfl
  | served byte _ _ reply response app _ heq =>
      rw [heq, answer]
      split
      · exact sameBoard_of_eq rfl rfl rfl
      · exact sameBoard_of_eq rfl rfl rfl

theorem sameBoard_heartbeat (f : Firmware Q) (asserted : Bool) :
    SameBoard f { f with levels := Bsp.heartbeatPin.write f.levels asserted } := by
  refine ⟨rfl, rfl, fun port pin hpin => ?_⟩
  dsimp only [Bsp.GpioPin.write]
  rw [Function.update_apply]
  split
  case isTrue hport =>
    have hne : pin ≠ Bsp.heartbeatPin.pin := fun heq => hpin (by rw [hport, heq])
    rw [Function.update_of_ne hne, hport]
  case isFalse => rfl

theorem sameBoard_exec {f f' : Firmware Q} {a : Action} (h : f.exec M cfg a = some f')
    (ha : a.isCycle = false) : SameBoard f f' := by
  cases a with
  | cycle pins => exact absurd ha (by simp [Action.isCycle])
  | pollByte => exact sameBoard_pollByte h
  | pollEnd =>
      obtain ⟨linkTimer, linkLost, hend⟩ := f.pollEnd_eq
      rw [← Option.some.inj h, hend]
      exact sameBoard_of_eq rfl rfl rfl
  | sample raw | irq irq =>
      rw [← Option.some.inj h]
      exact sameBoard_of_eq rfl rfl rfl
  | drain tick =>
      obtain ⟨queue, offered, hdrain⟩ := drain_eq (M := M) f tick
      rw [← Option.some.inj h, hdrain]
      exact sameBoard_of_eq rfl rfl rfl
  | heartbeat =>
      rw [← Option.some.inj h]
      exact sameBoard_heartbeat f _
  | takeRecord =>
      obtain ⟨held, queue, htake⟩ := takeRecord_eq (M := M) f
      rw [← Option.some.inj h, htake]
      exact sameBoard_of_eq rfl rfl rfl
  | writeRecord =>
      rw [← Option.some.inj h, f.writeRecord_eq]
      exact sameBoard_of_eq rfl rfl rfl

/-! ### The operations -/

/-- Some operations on the core, with no fault but a named one. -/
def Operates (cfg : Config) (s s' : BcmCore) : Prop :=
  ∃ ops, (∀ op ∈ ops, NamesFaults op) ∧ s' = Runs.run (BcmCore.exec cfg) s ops

theorem Operates.refl (cfg : Config) (s : BcmCore) : Operates cfg s s :=
  ⟨[], fun _ h => absurd h List.not_mem_nil, rfl⟩

theorem Operates.then {s s' : BcmCore} (h : Operates cfg s s') (op : CoreOp)
    (hop : NamesFaults op) : Operates cfg s (s'.exec cfg op) := by
  obtain ⟨ops, hops, rfl⟩ := h
  refine ⟨ops ++ [op], fun op' hop' => ?_, (Runs.run_concat ..).symm⟩
  rcases List.mem_append.mp hop' with hfront | hlast
  · exact hops op' hfront
  · rwa [List.mem_singleton.mp hlast]

theorem Operates.ite {s s' : BcmCore} (h : Operates cfg s s') (op : CoreOp) (hop : NamesFaults op)
    (c : Bool) : Operates cfg s (if c then s'.exec cfg op else s') := by
  cases c with
  | false => exact h
  | true => exact h.then op hop

theorem Operates.within {s s' : BcmCore} (h : Operates cfg s s')
    (hwithin : s.faults.Within Dtc.named) : s'.faults.Within Dtc.named := by
  obtain ⟨ops, hops, rfl⟩ := h
  have hreach : Runs.Reachable (BcmCore.exec cfg) s NamesFaults
      (Runs.run (BcmCore.exec cfg) s ops) := ⟨ops, hops, rfl⟩
  exact hreach.invariant (I := fun s => s.faults.Within Dtc.named) hwithin
    fun _ _ hop h => BcmCore.within_exec cfg h hop

/-- What the core is handed before its step. -/
theorem operates_gatherInputs (cfg : Config) (a : BcmApp) (board : Snapshot) :
    Operates cfg a.core (a.gatherInputs board).core := by
  have hplain : ∀ op, (∀ code, op ≠ .setFault code) → NamesFaults op :=
    fun op hop code heq => absurd heq (hop code)
  have hboard := ((Operates.refl cfg a.core).then (.setInputs board.inputs)
    (hplain _ (by simp))).then (.setCommsLost board.linkLost) (hplain _ (by simp))
  have hhost := hboard.then (.setHostRequest (a.cmdCtx.hostRequest.getD .dark) a.cmdCtx.hostMask)
    (hplain _ (by simp))
  have hlock := hhost.ite .requestDoorLock (hplain _ (by simp)) a.cmdCtx.doorLockRequested
  have hunlock := hlock.ite .requestDoorUnlock (hplain _ (by simp))
    a.cmdCtx.doorUnlockRequested
  refine hunlock.ite (.setFault Dtc.uartOverrun) ?_ board.overrun
  intro code hcode
  rw [← CoreOp.setFault.inj hcode]
  exact Or.inr (by decide)

theorem operates_cycle (cfg : Config) (pins : Bsp.Levels) (f : Firmware Q) :
    Operates cfg f.app.core (f.cycle cfg pins).app.core :=
  (operates_gatherInputs cfg f.app (f.readButtons pins kControlMs).snapshot).then
    (.step kControlMs) nofun

theorem operates_exec {f f' : Firmware Q} {a : Action} (h : f.exec M cfg a = some f') :
    Operates cfg f.app.core f'.app.core := by
  cases moves h with
  | idle _ _ _ _ happ =>
      rcases happ with happ | happ
      · rw [happ]
        exact .refl cfg _
      · rw [happ]
        exact .refl cfg _
  | cycled pins _ heq =>
      rw [heq]
      exact operates_cycle cfg pins f
  | served _ _ request _ _ reply response hserve =>
      rcases BcmApp.serve_faults hserve with hsame | ⟨-, hcleared⟩
      · rw [hsame]
        exact .refl cfg _
      · rw [hcleared]
        exact (Operates.refl cfg f.app.core).then .clearFaults nofun
  | sampled _ raw _ happ =>
      rw [happ]
      exact .refl cfg _
  | drained _ _ happ =>
      rw [happ]
      exact (Operates.refl cfg f.app.core).then .popLog nofun

theorem within_run {g f : Firmware Q} {actions : List Action}
    (h : PartialRuns.run (exec M cfg) g actions = some f)
    (hg : g.app.core.faults.Within Dtc.named) : f.app.core.faults.Within Dtc.named :=
  PartialRuns.run_invariant (I := fun t => t.app.core.faults.Within Dtc.named) hg
    (fun _ _ _ ht hexec => (operates_exec hexec).within ht) h

/-- **Every core in the firmware is one of a run of the core.** -/
theorem core_of_run {actions : List Action} {f : Firmware Q} (h : run M cfg up actions = some f) :
    ∃ ops, (∀ op ∈ ops, NamesFaults op) ∧ f.app.core = BcmCore.run cfg ops := by
  refine history_of_run
    (I := fun _ f => ∃ ops, (∀ op ∈ ops, NamesFaults op) ∧ f.app.core = BcmCore.run cfg ops)
    ?_ ?_ h
  · by_cases hdog : up.wasWatchdog = true
    · refine ⟨[.setFault Dtc.watchdogReset], ?_, ?_⟩
      · simp [NamesFaults, Dtc.named]
      · simp [start, BcmApp.init, hdog, BcmApp.new, BcmCore.run, BcmCore.exec]
    · refine ⟨[], fun _ h => absurd h List.not_mem_nil, ?_⟩
      simp [start, BcmApp.init, hdog, BcmApp.new, BcmCore.run]
  · rintro - a s t - ⟨ops, hops, hs⟩ hexec
    obtain ⟨more, hmore, ht⟩ := operates_exec hexec
    refine ⟨ops ++ more, fun op hop => ?_, ?_⟩
    · exact (List.mem_append.mp hop).elim (hops op) (hmore op)
    · rw [ht, hs, BcmCore.run, BcmCore.run, Runs.run_append]

end Firmware

end Bcm
