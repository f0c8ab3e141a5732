import Bcm.Proof.FaultHistory
import Bcm.Proof.FirmwareCore

/-!
# A loss is reported

A byte that finds no room, and one that arrives damaged, set a flag in the driver. Nothing but a
control cycle takes the flag down, and the cycle that does records the fault. The fault then stays
active until the host asks for the store to be cleared.
-/

namespace Bcm.Firmware

variable {Q : Type} {M : MessageQueue Q LogRecord} {cfg : Config} {up : PowerUp Q}

theorem overrun_pollByte {f f' : Firmware Q} (h : f.pollByte = some f') :
    f'.line.uart.overrun = f.line.uart.overrun := by
  have hread := f.line.uart.read_conserves.2
  cases polled h with
  | idle _ heq =>
      rw [heq]
      exact hread
  | kept byte _ _ heq =>
      rw [heq]
      exact hread
  | served byte _ _ reply response app _ heq =>
      rw [heq, answer]
      split
      · exact (Line.send_overrun _ response).trans hread
      · exact hread

/-- Only a cycle takes the flag down. -/
theorem overrun_exec {f f' : Firmware Q} {a : Action} (h : f.exec M cfg a = some f')
    (ha : a.isCycle = false) (hflag : f.line.uart.overrun = true) :
    f'.line.uart.overrun = true := by
  cases a with
  | cycle pins => exact absurd ha (by simp [Action.isCycle])
  | pollByte => exact (overrun_pollByte h).trans hflag
  | pollEnd =>
      obtain ⟨linkTimer, linkLost, hend⟩ := f.pollEnd_eq
      rw [← Option.some.inj h, hend]
      exact hflag
  | sample raw | heartbeat =>
      rw [← Option.some.inj h]
      exact hflag
  | drain tick =>
      obtain ⟨queue, offered, hdrain⟩ := drain_eq (M := M) f tick
      rw [← Option.some.inj h, hdrain]
      exact hflag
  | takeRecord =>
      obtain ⟨held, queue, htake⟩ := takeRecord_eq (M := M) f
      rw [← Option.some.inj h, htake]
      exact hflag
  | writeRecord =>
      rw [← Option.some.inj h, f.writeRecord_eq]
      cases f.held with
      | none => exact hflag
      | some r => exact (Line.send_overrun _ _).trans hflag
  | irq irq =>
      rw [← Option.some.inj h]
      exact (f.line.uart.onIrq_rx irq).2 (Or.inl hflag)

theorem faults_gatherInputs (a : BcmApp) (board : Snapshot) :
    (a.gatherInputs board).core.faults =
      if board.overrun then a.core.faults.set Dtc.uartOverrun else a.core.faults := by
  simp only [BcmApp.gatherInputs, BcmCore.setInputs, BcmCore.setCommsLost, BcmCore.setHostRequest,
    BcmCore.requestDoorLock, BcmCore.requestDoorUnlock, apply_ite BcmCore.faults, ite_self]

theorem within_of_run {actions : List Action} {f : Firmware Q}
    (h : run M cfg up actions = some f) : f.app.core.faults.Within Dtc.named := by
  obtain ⟨ops, hops, hcore⟩ := core_of_run h
  rw [hcore]
  exact BcmCore.within_run cfg hops

/-- The cycle records what it finds, and keeps what is recorded. -/
theorem isActive_cycle {f : Firmware Q} (h : f.app.core.faults.Within Dtc.named)
    (pins : Bsp.Levels) :
    (f.cycle cfg pins).app.core.faults.isActive Dtc.uartOverrun =
      (f.line.uart.overrun || f.app.core.faults.isActive Dtc.uartOverrun) := by
  have hfaults := faults_gatherInputs f.app (f.readButtons pins kControlMs).snapshot
  have hoverrun : (f.readButtons pins kControlMs).snapshot.overrun = f.line.uart.overrun := rfl
  rw [hoverrun] at hfaults
  have hwithin : (f.app.gatherInputs (f.readButtons pins kControlMs).snapshot).core.faults.Within
      Dtc.named := by
    rw [hfaults]
    split
    · exact h.set BcmCore.named_room (Or.inr (by decide))
    · exact h
  have hactive := BcmCore.isActive_step cfg kControlMs hwithin Dtc.uartOverrun
  rw [if_neg (by decide), if_neg (by decide), BcmCore.refusalFaults] at hactive
  have hkept : (f.cycle cfg pins).app.core.faults.isActive Dtc.uartOverrun =
      (f.app.gatherInputs (f.readButtons pins kControlMs).snapshot).core.faults.isActive
        Dtc.uartOverrun := by
    refine hactive.trans ?_
    split
    · rw [FaultMgr.isActive_set (by decide) (hwithin.fits BcmCore.named_room _)]
      rfl
    · rfl
  rw [hkept, hfaults]
  cases f.line.uart.overrun with
  | false => rfl
  | true =>
      rw [if_pos rfl, FaultMgr.isActive_set (by decide) (h.fits BcmCore.named_room _)]
      rfl

/-- The fault stays where no request to clear the store is served. -/
theorem isActive_exec {f f' : Firmware Q} {a : Action} (h : f.exec M cfg a = some f')
    (hwithin : f.app.core.faults.Within Dtc.named)
    (hactive : f.app.core.faults.isActive Dtc.uartOverrun = true) {bytes : List UInt8}
    (hbytes : Since f f' bytes)
    (hclear : ∀ request ∈ f.parser.frames bytes, request.asks ≠ .clearFaults) :
    f'.app.core.faults.isActive Dtc.uartOverrun = true := by
  cases moves h with
  | idle _ _ _ _ happ =>
      rcases happ with happ | happ
      · rwa [happ]
      · rwa [happ]
  | cycled pins _ heq => rw [heq, isActive_cycle hwithin, hactive, Bool.or_true]
  | served _ bytes' request hsince hframes reply response hserve =>
      obtain rfl : bytes' = bytes :=
        List.append_cancel_left (hsince.consumed.symm.trans hbytes.consumed)
      rw [hframes] at hclear
      rcases BcmApp.serve_faults hserve with hkept | ⟨hasks, -⟩
      · rwa [hkept]
      · exact absurd hasks (hclear request (List.mem_singleton_self _))
  | sampled _ raw _ happ => rwa [happ]
  | drained _ _ happ => rwa [happ]

theorem overrun_run {g f : Firmware Q} {actions : List Action}
    (h : PartialRuns.run (exec M cfg) g actions = some f)
    (hactions : ∀ a ∈ actions, a.isCycle = false) (hflag : g.line.uart.overrun = true) :
    f.line.uart.overrun = true :=
  PartialRuns.run_history (I := fun _ t => t.line.uart.overrun = true) hflag
    (fun _ _ _ _ _ ha ht hexec => overrun_exec hexec ha ht)
    (PartialRuns.along_of_forall hactions g) h

theorem mem_activeCodes {faults : FaultMgr} (h : faults.Within Dtc.named) {code : Dtc}
    (hactive : faults.isActive code = true) :
    code ∈ faults.activeCodes (kMaxPayload.toNat - 2) := by
  have hstored : code ∈ faults.codes := by
    refine (FaultMgr.lookup_isSome_iff faults code).mp ?_
    rw [FaultMgr.isActive_eq] at hactive
    cases hlookup : faults.lookup code with
    | none =>
        rw [hlookup] at hactive
        exact absurd hactive Bool.false_ne_true
    | some e => rfl
  have hshort : (faults.codes.filter faults.isActive).length ≤ kMaxPayload.toNat - 2 := by
    have hfilter := List.length_filter_le faults.isActive faults.codes
    have hbounded := faults.bounded
    rw [FaultMgr.codes, List.length_map] at hfilter
    exact (hfilter.trans hbounded).trans (by decide)
  rw [FaultMgr.activeCodes_eq h.nodup, List.take_of_length_le hshort]
  exact List.mem_filter.mpr ⟨hstored, hactive⟩

/-- A fault that is active stays so through any actions that do not clear the store. -/
theorem isActive_run {g f : Firmware Q} {actions : List Action}
    (h : PartialRuns.run (exec M cfg) g actions = some f)
    (hwithin : g.app.core.faults.Within Dtc.named)
    (hactive : g.app.core.faults.isActive Dtc.uartOverrun = true) :
    ∃ bytes, Since g f bytes ∧
      ((∀ request ∈ g.parser.frames bytes, request.asks ≠ .clearFaults) →
        f.app.core.faults.isActive Dtc.uartOverrun = true) := by
  refine PartialRuns.run_history (I := fun _ t => ∃ bytes,
    Since g t bytes ∧ ((∀ request ∈ g.parser.frames bytes, request.asks ≠ .clearFaults) →
      t.app.core.faults.isActive Dtc.uartOverrun = true)) ?_ ?_ (PartialRuns.along_true g _) h
  · exact ⟨[], ⟨(List.append_nil _).symm, rfl⟩, fun _ => hactive⟩
  · rintro ops a s t hs - ⟨front, hfront, hbefore⟩ hexec
    obtain ⟨back, hback⟩ := (moves hexec).since
    refine ⟨front ++ back, hfront.trans hback, fun hclear => ?_⟩
    rw [FrameParser.frames_append, ← hfront.parser] at hclear
    exact isActive_exec hexec (within_run hs hwithin)
      (hbefore fun r hr => hclear r (List.mem_append_left _ hr)) hback
      fun r hr => hclear r (List.mem_append_right _ hr)

/-- **No loss goes unreported.** When a byte has come in without room for it, or damaged, the next
control cycle records an overrun, however much comes in between. From then on the fault is active,
and one of those a GET_DTC is answered with, for as long as no frame read asks for it to be
cleared. -/
theorem overrun_reported {before between after : List Action} {irq : Uart.Irq}
    {pins : Bsp.Levels} {s g f : Firmware Q} (hs : run M cfg up before = some s)
    (hloses : s.line.uart.Loses irq) (hbetween : ∀ a ∈ between, a.isCycle = false)
    (hg : PartialRuns.run (exec M cfg) s (.irq irq :: between ++ [.cycle pins]) = some g)
    (hf : PartialRuns.run (exec M cfg) g after = some f)
    (hclear : ∀ request ∈ g.parser.frames (f.consumed.drop g.consumed.length),
      request.asks ≠ .clearFaults) :
    f.app.core.faults.isActive Dtc.uartOverrun = true ∧
      Dtc.uartOverrun ∈ f.app.core.faults.activeCodes (kMaxPayload.toNat - 2) := by
  rw [List.cons_append, PartialRuns.run_cons, Option.bind_eq_some_iff] at hg
  obtain ⟨lost, hlost, hrest⟩ := hg
  rw [PartialRuns.run_concat, Option.bind_eq_some_iff] at hrest
  obtain ⟨t, ht, hcycle⟩ := hrest
  rw [exec, Option.ite_none_left_eq_some] at hcycle
  obtain ⟨-, hcycle⟩ := hcycle
  have hlostFlag : lost.line.uart.overrun = true := by
    rw [← Option.some.inj hlost]
    exact (s.line.uart.onIrq_rx irq).2 (Or.inr hloses)
  have hlostWithin := (operates_exec hlost).within (within_of_run hs)
  have htWithin := within_run ht hlostWithin
  have hgActive : g.app.core.faults.isActive Dtc.uartOverrun = true := by
    rw [← Option.some.inj hcycle, isActive_cycle htWithin, overrun_run ht hbetween hlostFlag,
      Bool.true_or]
  have hgWithin : g.app.core.faults.Within Dtc.named := by
    rw [← Option.some.inj hcycle]
    exact (operates_cycle cfg pins t).within htWithin
  obtain ⟨bytes, hbytes, hkept⟩ := isActive_run hf hgWithin hgActive
  rw [hbytes.consumed, List.drop_left] at hclear
  exact ⟨hkept hclear, mem_activeCodes (within_run hf hgWithin) (hkept hclear)⟩

/-- A damaged byte before the first of two cycles. -/
theorem overrun_reported_noise :
    let M := MessageQueue.plain LogRecord kLogQueueLength
    let s := start M .shipped .quiet
    let noisy := { s with line := s.line.exec (.irq ⟨none, false, true⟩) }
    Dtc.uartOverrun ∈ ((noisy.cycle .shipped PowerUp.quiet.pins).cycle .shipped
      PowerUp.quiet.pins).app.core.faults.activeCodes (kMaxPayload.toNat - 2) := by
  intro M s noisy
  have hs : run M .shipped .quiet [] = some s := rfl
  have hg : PartialRuns.run (exec M .shipped) s
      (.irq ⟨none, false, true⟩ :: [] ++ [.cycle PowerUp.quiet.pins]) =
        some (noisy.cycle .shipped PowerUp.quiet.pins) := rfl
  have hf : PartialRuns.run (exec M .shipped) (noisy.cycle .shipped PowerUp.quiet.pins)
      [.cycle PowerUp.quiet.pins] =
        some ((noisy.cycle .shipped PowerUp.quiet.pins).cycle .shipped PowerUp.quiet.pins) := rfl
  refine (overrun_reported hs (Or.inl rfl) ?_ hg hf ?_).2
  · exact fun a ha => absurd ha List.not_mem_nil
  · exact fun request hrequest => absurd hrequest List.not_mem_nil

end Bcm.Firmware
