import Bcm.Proof.HostDesk

/-!
# Why a door unlocks

A locked door leaves that state for one of two reasons, a press of its switch or a DOOR_UNLOCK that
has been read since the cycle before. The first cycle takes no request, and one read by then waits
for the second.
-/

namespace Bcm

theorem BcmCore.unlock_cause {cfg : Config} {dtMs : Nat} {s : BcmCore}
    (hlocked : s.door.state = .locked) (hunlocks : (s.step cfg dtMs).door.state ≠ .locked) :
    s.firstCycle = false ∧ (s.doorSwitch = true ∨ s.hostUnlock = true) := by
  have hstays : (s.applyEdges cfg dtMs).door.state ≠ .locked := by
    intro hedges
    have hwelcome : (s.applyEdges cfg dtMs).door.state ≠ .welcome := by
      rw [hedges]
      decide
    have hupdate := DoorMgr.update_state_of_not_welcome cfg dtMs hwelcome
    rw [hedges, or_self] at hupdate
    rw [step_door] at hunlocks
    exact hunlocks hupdate
  rw [applyEdges_door] at hstays
  cases hfirst : s.firstCycle with
  | true =>
      rw [hfirst, if_pos rfl] at hstays
      exact absurd hlocked hstays
  | false =>
      refine ⟨rfl, ?_⟩
      by_contra hnone
      rw [not_or, Bool.not_eq_true, Bool.not_eq_true] at hnone
      obtain ⟨hswitch, hunlock⟩ := hnone
      rw [hfirst, if_neg Bool.false_ne_true, requestedDoor, hswitch, hunlock] at hstays
      refine hstays ?_
      have hopened : (s.door.setDoorOpen s.inputs.doorOpen).state = .locked := hlocked
      cases hlock : s.hostLock with
      | false => exact hopened
      | true =>
          have hrequested := (s.door.setDoorOpen s.inputs.doorOpen).requestLock_state
          rw [hopened, ite_self] at hrequested
          exact hrequested

namespace Firmware

variable {Q : Type} {M : MessageQueue Q LogRecord} {cfg : Config} {up : PowerUp Q}

/-- A DOOR_UNLOCK has been read, with at most so many cycles since. -/
def UnlockRead (M : MessageQueue Q LogRecord) (cfg : Config) (up : PowerUp Q) (cycles : Nat)
    (actions : List Action) (s : Firmware Q) : Prop :=
  ∃ front back t bytes, actions = front ++ back ∧ back.countP Action.isCycle ≤ cycles ∧
    run M cfg up front = some t ∧ Since t s bytes ∧
    ∃ request ∈ t.parser.frames bytes, request.asks = .unlock

theorem UnlockRead.exec {cycles : Nat} {actions : List Action} {s s' : Firmware Q} {a : Action}
    (h : UnlockRead M cfg up cycles actions s) (hexec : s.exec M cfg a = some s') :
    UnlockRead M cfg up (cycles + if a.isCycle then 1 else 0) (actions ++ [a]) s' := by
  obtain ⟨front, back, t, bytes, rfl, hcycles, ht, hsince, request, hmem, hasks⟩ := h
  obtain ⟨more, hmore⟩ := (moves hexec).since
  refine ⟨front, back ++ [a], t, bytes ++ more, List.append_assoc .., ?_, ht, hsince.trans hmore,
    request, ?_, hasks⟩
  · rw [List.countP_append, List.countP_singleton]
    exact Nat.add_le_add_right hcycles _
  · rw [FrameParser.frames_append]
    exact List.mem_append_left _ hmem

/-- Where a request to unlock comes from, and what the core compares the switch with. -/
structure Requests (M : MessageQueue Q LogRecord) (cfg : Config) (up : PowerUp Q)
    (actions : List Action) (s : Firmware Q) : Prop where
  first : s.app.core.firstCycle = true → actions.countP Action.isCycle = 0
  previous : s.app.core.firstCycle = false →
    s.app.core.previous.doorLock = (s.buttons .doorLock).state
  asked : s.app.cmdCtx.doorUnlockRequested = true → UnlockRead M cfg up 0 actions s
  held : s.app.core.hostUnlock = true →
    actions.countP Action.isCycle = 1 ∧ UnlockRead M cfg up 1 actions s

theorem requests_start : Requests M cfg up [] (start M cfg up) := by
  have hcore : (start M cfg up).app.core.hostUnlock = false ∧
      (start M cfg up).app.core.firstCycle = true := by
    simp only [start, BcmApp.init, BcmApp.new, apply_ite BcmCore.hostUnlock,
      apply_ite BcmCore.firstCycle, BcmCore.new, ite_self, and_self]
  refine ⟨fun _ => rfl, fun h => ?_, fun h => ?_, fun h => ?_⟩
  · rw [hcore.2] at h
    exact absurd h (by simp)
  · exact absurd h (by simp [start, BcmApp.init, BcmApp.new, CommandContext.new])
  · rw [hcore.1] at h
    exact absurd h (by simp)

theorem Requests.of_same {actions : List Action} {s s' : Firmware Q} {a : Action}
    (h : Requests M cfg up actions s) (hexec : s.exec M cfg a = some s')
    (ha : a.isCycle = false)
    (hcore : s'.app.core.firstCycle = s.app.core.firstCycle ∧
      s'.app.core.previous = s.app.core.previous ∧
      s'.app.core.hostUnlock = s.app.core.hostUnlock)
    (hasked : s'.app.cmdCtx.doorUnlockRequested = true →
      s.app.cmdCtx.doorUnlockRequested = true ∨ UnlockRead M cfg up 0 (actions ++ [a]) s') :
    Requests M cfg up (actions ++ [a]) s' := by
  obtain ⟨hfirst, hprevious, hheld⟩ := hcore
  have hcount : (actions ++ [a]).countP Action.isCycle = actions.countP Action.isCycle := by
    rw [List.countP_append, List.countP_singleton, ha]
    rfl
  have hlater : ∀ {cycles}, UnlockRead M cfg up cycles actions s →
      UnlockRead M cfg up cycles (actions ++ [a]) s' := by
    intro cycles hread
    have hstep := hread.exec hexec
    rwa [ha] at hstep
  refine ⟨fun hnew => ?_, fun hold => ?_, fun hnew => ?_, fun hnew => ?_⟩
  · rw [hcount]
    exact h.first (hfirst ▸ hnew)
  · rw [hprevious, (sameBoard_exec hexec ha).buttons]
    exact h.previous (hfirst ▸ hold)
  · rcases hasked hnew with hbefore | hread
    · exact hlater (h.asked hbefore)
    · exact hread
  · obtain ⟨hone, hread⟩ := h.held (hheld ▸ hnew)
    exact ⟨hcount.trans hone, hlater hread⟩

theorem unlockRequested_apply {c : CommandContext} {act : HostAct}
    (h : (act.apply c).doorUnlockRequested = true) :
    c.doorUnlockRequested = true ∨ act = .unlock := by
  cases act with
  | lamp id on =>
      unfold HostAct.apply at h
      dsimp only at h
      split at h
      · exact Or.inl h
      · exact Or.inl h
  | unlock => exact Or.inr rfl
  | nothing | lock | clearFaults | reset => exact Or.inl h

theorem Requests.cycle {actions : List Action} {s f : Firmware Q} {pins : Bsp.Levels}
    (h : Requests M cfg up actions s) (hexec : s.exec M cfg (.cycle pins) = some f)
    (hf : f = s.cycle cfg pins) : Requests M cfg up (actions ++ [.cycle pins]) f := by
  obtain ⟨-, hinputs, -, hfirst, -, hunlock⟩ :=
    s.app.gatherInputs_core (s.readButtons pins kControlMs).snapshot
  obtain ⟨-, hprevious, hnotFirst, -⟩ :=
    (s.app.gatherInputs (s.readButtons pins kControlMs).snapshot).core.step_frame cfg kControlMs
  have hheld : f.app.core.hostUnlock = (s.app.core.firstCycle &&
      (s.app.core.hostUnlock || s.app.cmdCtx.doorUnlockRequested)) := by
    rw [hf, ← hunlock, ← hfirst]
    exact (BcmCore.step_host cfg kControlMs _).2
  have hflag : f.app.cmdCtx.doorUnlockRequested = false := by
    rw [hf]
    rfl
  refine ⟨fun hnew => ?_, fun _ => ?_, fun hnew => ?_, fun hnew => ?_⟩
  · rw [hf] at hnew
    exact absurd (hnew.symm.trans hnotFirst) (by simp)
  · rw [hf]
    refine (congrArg Inputs.doorLock (hprevious.trans hinputs)).trans ?_
    rfl
  · rw [hflag] at hnew
    exact absurd hnew (by simp)
  · rw [hheld, Bool.and_eq_true, Bool.or_eq_true] at hnew
    obtain ⟨hfirstCycle, hasked⟩ := hnew
    have hnone := h.first hfirstCycle
    refine ⟨?_, ?_⟩
    · rw [List.countP_append, hnone]
      rfl
    · rcases hasked with hheldBefore | hpending
      · have hone := (h.held hheldBefore).1
        rw [hnone] at hone
        exact absurd hone (by decide)
      · exact (h.asked hpending).exec hexec

theorem Requests.exec {actions : List Action} {s f : Firmware Q} {a : Action}
    (h : Requests M cfg up actions s) (hs : run M cfg up actions = some s)
    (hexec : s.exec M cfg a = some f) : Requests M cfg up (actions ++ [a]) f := by
  cases moves hexec with
  | idle ha _ _ _ happ =>
      refine h.of_same hexec ha ?_ fun hnew => Or.inl ?_
      · rcases happ with happ | happ
        · rw [happ]
          exact ⟨rfl, rfl, rfl⟩
        · rw [happ]
          exact ⟨rfl, rfl, rfl⟩
      · rcases happ with happ | happ
        · rwa [happ] at hnew
        · rwa [happ] at hnew
  | cycled pins ha heq =>
      rw [ha] at hexec ⊢
      exact h.cycle hexec heq
  | served ha bytes request hsince hframes reply response hserve =>
      obtain ⟨hctx, -⟩ := BcmApp.serve_asks hserve
      refine h.of_same hexec ha ?_ fun hnew => ?_
      · rcases BcmApp.serve_faults hserve with hsame | ⟨-, hcleared⟩
        · rw [hsame]
          exact ⟨rfl, rfl, rfl⟩
        · rw [hcleared]
          exact ⟨rfl, rfl, rfl⟩
      · rw [hctx] at hnew
        rcases unlockRequested_apply hnew with hbefore | hasks
        · exact Or.inl hbefore
        · refine Or.inr ⟨actions, [a], s, bytes, rfl, ?_, hs, hsince, request, ?_, hasks⟩
          · rw [List.countP_singleton, ha]
            exact Nat.le_refl 0
          · rw [hframes]
            exact List.mem_singleton_self request
  | sampled ha raw _ happ =>
      refine h.of_same hexec ha ?_ fun hnew => Or.inl ?_
      · rw [happ]
        exact ⟨rfl, rfl, rfl⟩
      · rwa [happ] at hnew
  | drained ha _ happ =>
      refine h.of_same hexec ha ?_ fun hnew => Or.inl ?_
      · rw [happ]
        exact ⟨rfl, rfl, rfl⟩
      · rwa [happ] at hnew

theorem requests_of_run {actions : List Action} {s : Firmware Q}
    (h : run M cfg up actions = some s) : Requests M cfg up actions s :=
  history_of_run requests_start (fun _ _ _ _ hs hreq hexec => hreq.exec hs hexec) h

/-- **Nothing else unlocks a door.** Where a cycle finds the door locked and leaves it so no longer,
its switch has been pressed since the cycle before, or a DOOR_UNLOCK has been read since then, or it
is the second cycle, and a DOOR_UNLOCK has been read before it. -/
theorem unlock_has_cause {actions : List Action} {s f : Firmware Q} {pins : Bsp.Levels}
    (hs : run M cfg up actions = some s) (hf : s.exec M cfg (.cycle pins) = some f)
    (hlocked : s.app.core.door.state = .locked) (hunlocked : f.app.core.door.state ≠ .locked) :
    (s.buttons .doorLock).state = false ∧ (f.buttons .doorLock).state = true ∨
      UnlockRead M cfg up 0 actions s ∨
      actions.countP Action.isCycle = 1 ∧ UnlockRead M cfg up 1 actions s := by
  have hrequests := requests_of_run hs
  rw [exec, Option.ite_none_left_eq_some] at hf
  obtain ⟨-, hcycle⟩ := hf
  obtain ⟨hdoor, hinputs, hprevious, hfirst, -, hunlock⟩ :=
    s.app.gatherInputs_core (s.readButtons pins kControlMs).snapshot
  rw [← Option.some.inj hcycle] at hunlocked ⊢
  rw [← hdoor] at hlocked
  obtain ⟨hnotFirst, hcause⟩ := BcmCore.unlock_cause hlocked hunlocked
  rw [hfirst] at hnotFirst
  rcases hcause with hswitch | hhost
  · left
    rw [BcmCore.doorSwitch, hinputs, hprevious, hrequests.previous hnotFirst, Bool.and_eq_true,
      Bool.not_eq_true'] at hswitch
    exact ⟨hswitch.2, hswitch.1⟩
  · right
    rw [hunlock, Bool.or_eq_true] at hhost
    rcases hhost with hheld | hasked
    · exact Or.inr (hrequests.held hheld)
    · exact Or.inl (hrequests.asked hasked)

/-- A DOOR_UNLOCK after the first cycle. -/
def unlockActions : List Action :=
  .cycle PowerUp.quiet.pins :: arrivals [0xAA, 0x07, 0x00, 0x6B, 0x55]

theorem unlock_has_cause_host :
    let M := MessageQueue.plain LogRecord kLogQueueLength
    ∃ s f, run M .shipped .quiet unlockActions = some s ∧
      s.exec M .shipped (.cycle PowerUp.quiet.pins) = some f ∧
      ((s.buttons .doorLock).state = false ∧ (f.buttons .doorLock).state = true ∨
        UnlockRead M .shipped .quiet 0 unlockActions s ∨
        unlockActions.countP Action.isCycle = 1 ∧
          UnlockRead M .shipped .quiet 1 unlockActions s) := by
  intro M
  have hfacts : (run M .shipped .quiet unlockActions).any (fun s =>
      !s.app.cmdCtx.resetRequested && (decide (s.app.core.door.state = .locked) &&
        decide ((s.cycle .shipped PowerUp.quiet.pins).app.core.door.state ≠ .locked))) = true := by
    decide +kernel
  obtain ⟨s, hs, hfacts⟩ := (Option.any_eq_true _ _).mp hfacts
  simp only [Bool.and_eq_true, decide_eq_true_eq, Bool.not_eq_true'] at hfacts
  obtain ⟨hstays, hlocked, hunlocked⟩ := hfacts
  have hf : s.exec M .shipped (.cycle PowerUp.quiet.pins) =
      some (s.cycle .shipped PowerUp.quiet.pins) := by
    rw [exec, hstays]
    rfl
  exact ⟨s, _, hs, hf, unlock_has_cause hs hf hlocked hunlocked⟩

end Firmware

end Bcm
