import Bcm.Proof.BoardSafety

/-!
# The loss of the link

The control task polls every 5 ms, and the manager gives the link up 2 s after the last frame. So in
the firmware, whatever the tasks and the interrupt do in between, the link is lost when 400 polls
have ended since a frame was read, and at no other time. The poll that has read the frame is the
first of them, since it counts its own 5 ms. The next cycle puts the high beam out.
-/

namespace Bcm.Firmware

variable {Q : Type} {M : MessageQueue Q LogRecord} {cfg : Config} {up : PowerUp Q}

theorem framesRead_exec {s f : Firmware Q} {a : Action} (h : s.exec M cfg a = some f) :
    s.framesRead <+: f.framesRead := by
  obtain ⟨bytes, hsince⟩ := (moves h).since
  rw [framesRead, framesRead, hsince.consumed, FrameParser.frames_append]
  exact List.prefix_append _ _

theorem framesRead_grows {s f : Firmware Q} {actions : List Action}
    (h : PartialRuns.run (exec M cfg) s actions = some f) : s.framesRead <+: f.framesRead :=
  PartialRuns.run_invariant (I := fun t => s.framesRead <+: t.framesRead)
    List.prefix_rfl (fun _ _ _ ht hexec => ht.trans (framesRead_exec hexec)) h

/-! ### Silence -/

def Action.isPollEnd : Action → Bool
  | .pollEnd => true
  | _ => false

variable (M cfg up) in
/-- So many polls have ended since a frame was read, with the one that has read it. -/
def Silent (actions : List Action) (f : Firmware Q) (polls : Nat) : Prop :=
  PartialRuns.Earlier (exec M cfg) (start M cfg up) actions fun s back =>
    framesSince s f = [] ∧ polls ≤ back.countP Action.isPollEnd

theorem Silent.le {actions : List Action} {f : Firmware Q} {m n : Nat}
    (h : Silent M cfg up actions f n) (hle : m ≤ n) : Silent M cfg up actions f m :=
  PartialRuns.Earlier.imp h fun _ _ _ _ _ hback => ⟨hback.1, hle.trans hback.2⟩

theorem silent_zero {actions : List Action} {f : Firmware Q} (h : run M cfg up actions = some f) :
    Silent M cfg up actions f 0 :=
  PartialRuns.earlier_now h ⟨framesSince_self f, Nat.zero_le _⟩

section Step

variable {actions : List Action} {a : Action} {f f' : Firmware Q} {more : List Frame}
  (h : run M cfg up actions = some f) (hexec : f.exec M cfg a = some f')
  (hmore : f'.framesRead = f.framesRead ++ more)

include h hexec hmore

theorem silent_concat (n : Nat) :
    Silent M cfg up (actions ++ [a]) f' n ↔
      n = 0 ∨ more = [] ∧ Silent M cfg up actions f (n - [a].countP Action.isPollEnd) := by
  have hrun : PartialRuns.run (exec M cfg) (start M cfg up) (actions ++ [a]) = some f' := by
    rw [PartialRuns.run_concat, Option.bind_eq_some_iff]
    exact ⟨f, h, hexec⟩
  have hsince : ∀ {front back s}, actions = front ++ back → run M cfg up front = some s →
      framesSince s f' = framesSince s f ++ more := by
    intro front back s hsplit hs
    rw [run, hsplit] at h
    exact framesSince_append (framesRead_grows (PartialRuns.run_rest h hs)) hmore
  rw [Silent, PartialRuns.earlier_concat hrun, framesSince_self, List.countP_nil, Nat.le_zero]
  refine or_congr (and_iff_right rfl) ⟨fun hback => ?_, fun ⟨hnone, hback⟩ => ?_⟩
  · obtain ⟨front, back, s, hsplit, hs, hquiet, hn⟩ := hback
    rw [hsince hsplit hs, List.append_eq_nil_iff] at hquiet
    rw [List.countP_append] at hn
    exact ⟨hquiet.2, front, back, s, hsplit, hs, hquiet.1, Nat.sub_le_iff_le_add.mpr hn⟩
  · refine PartialRuns.Earlier.imp hback fun front back s hsplit hs hquiet => ?_
    rw [hsince hsplit hs, List.append_eq_nil_iff, List.countP_append]
    exact ⟨⟨hquiet.1, hnone⟩, Nat.sub_le_iff_le_add.mp hquiet.2⟩

end Step

/-! ### The timer -/

/-- The polls that make up the timeout. -/
def kSilentPolls : Nat := CommMgr.kDefaultTimeoutMs / kControlMs

/-- The timer counts the polls since it was started, unless it has run out. -/
structure Counts (polls : Nat → Prop) (f : Firmware Q) : Prop where
  lost : f.linkLost = true → polls kSilentPolls
  up : f.linkLost = false → f.linkTimer.running = true ∧ f.linkTimer.periodic = false ∧
    0 < f.linkTimer.remaining ∧
    ∀ n, polls n ↔ kControlMs * n + f.linkTimer.remaining ≤ CommMgr.kDefaultTimeoutMs

variable {polls : Nat → Prop} {f f' : Firmware Q}

theorem Counts.linkLost_iff (h : Counts polls f) : f.linkLost = true ↔ polls kSilentPolls := by
  refine ⟨h.lost, fun hpolls => ?_⟩
  by_contra hup
  obtain ⟨-, -, hleft, hcounts⟩ := h.up (Bool.not_eq_true _ ▸ hup)
  have hle := (hcounts kSilentPolls).mp hpolls
  have htimeout : kControlMs * kSilentPolls = CommMgr.kDefaultTimeoutMs := rfl
  omega

theorem Counts.same (h : Counts polls f) (htimer : f'.linkTimer = f.linkTimer)
    (hlost : f'.linkLost = f.linkLost) : Counts polls f' := by
  constructor
  · rw [hlost]
    exact h.lost
  · rw [hlost, htimer]
    exact h.up

/-- A frame starts the count afresh. -/
theorem counts_started (hpolls : ∀ n, polls n ↔ n = 0)
    (htimer : f.linkTimer = SoftTimer.new.start CommMgr.kDefaultTimeoutMs)
    (hlost : f.linkLost = false) : Counts polls f := by
  refine ⟨fun h => absurd (hlost.symm.trans h) (by decide), fun _ => ?_⟩
  rw [htimer]
  refine ⟨rfl, rfl, by decide, fun n => ?_⟩
  rw [hpolls, SoftTimer.start_remaining, kControlMs]
  omega

/-- The end of a poll counts one more. -/
theorem Counts.pollEnd (h : Counts polls f) (hle : ∀ {m n}, polls n → m ≤ n → polls m)
    (hzero : polls 0) : Counts (fun n => n = 0 ∨ polls (n - 1)) f.pollEnd := by
  have hsupervise : f.pollEnd.linkTimer = (f.comm.superviseLink kControlMs).linkTimer ∧
      f.pollEnd.linkLost = (f.comm.superviseLink kControlMs).linkLost := ⟨rfl, rfl⟩
  obtain ⟨htimer, hlost⟩ := hsupervise
  cases hlink : f.linkLost with
  | true =>
      have hsame : f.comm.superviseLink kControlMs = f.comm := if_pos hlink
      rw [hsame] at htimer hlost
      refine ⟨fun _ => Or.inr (hle (h.lost hlink) (Nat.sub_le _ _)), fun hup => ?_⟩
      exact absurd ((hlost.trans hlink).symm.trans hup) (by decide)
  | false =>
      obtain ⟨hrunning, hshot, hleft, hcounts⟩ := h.up hlink
      have hstep : f.comm.superviseLink kControlMs =
          { f.comm with
            linkTimer := f.linkTimer.advance kControlMs
            linkLost := f.linkTimer.expires kControlMs } := if_neg (by simp [comm, hlink])
      rw [hstep] at htimer hlost
      dsimp only at htimer hlost
      have hfull := (hcounts 0).mp hzero
      constructor
      · intro hexpired
        rw [hlost, SoftTimer.expires_eq_true_iff] at hexpired
        refine Or.inr ((hcounts _).mpr ?_)
        have htimeout : kControlMs * (kSilentPolls - 1) + kControlMs =
          CommMgr.kDefaultTimeoutMs := rfl
        omega
      · intro hup
        rw [hlost] at hup
        rw [htimer, SoftTimer.advance_of_not_expires hrunning hup]
        have hmore : ¬f.linkTimer.remaining ≤ kControlMs := fun hdue =>
          absurd (hup.symm.trans (SoftTimer.expires_eq_true_iff.mpr ⟨hrunning, hdue⟩)) (by decide)
        refine ⟨hrunning, hshot, Nat.sub_pos_of_lt (Nat.not_le.mp hmore), fun n => ?_⟩
        rw [hcounts]
        unfold kControlMs at hmore hfull ⊢
        dsimp only
        omega

/-! ### Over a run -/

theorem sameTimer_answer (reply : Bool) (response : Frame) (f : Firmware Q) :
    (f.answer reply response).linkTimer = f.linkTimer ∧
      (f.answer reply response).linkLost = f.linkLost := by
  unfold answer
  split
  · exact ⟨rfl, rfl⟩
  · exact ⟨rfl, rfl⟩

/-- What an action does to the timer, and the frame it reads. -/
inductive Watches (f : Firmware Q) (a : Action) (f' : Firmware Q) : Prop
  | same (ha : a.isPollEnd = false) (hread : f'.framesRead = f.framesRead ++ [])
      (htimer : f'.linkTimer = f.linkTimer) (hlost : f'.linkLost = f.linkLost)
  | heard (request : Frame) (hread : f'.framesRead = f.framesRead ++ [request])
      (htimer : f'.linkTimer = SoftTimer.new.start CommMgr.kDefaultTimeoutMs)
      (hlost : f'.linkLost = false)
  | ended (ha : a = .pollEnd) (hread : f'.framesRead = f.framesRead ++ []) (heq : f' = f.pollEnd)

theorem watches_pollByte (hparser : f.parser = FrameParser.new.after f.consumed)
    (h : f.pollByte = some f') : Watches f .pollByte f' := by
  cases polled h with
  | idle _ heq =>
      rw [heq]
      exact .same rfl (List.append_nil _).symm rfl rfl
  | kept byte _ hmore heq =>
      rw [heq]
      refine .same rfl ?_ rfl rfl
      have hsince : Since f { f.take byte with app := f.lends } [byte] := ⟨rfl, rfl⟩
      rw [hsince.framesRead hparser, FrameParser.frames_singleton, if_neg hmore]
  | served byte _ hcomplete reply response app _ heq =>
      obtain ⟨htimer, hlost⟩ := sameTimer_answer reply response { f.take byte with
        app := app
        linkTimer := f.linkTimer.start CommMgr.kDefaultTimeoutMs
        linkLost := false }
      have hsame := sameLink_answer reply response { f.take byte with
        app := app
        linkTimer := f.linkTimer.start CommMgr.kDefaultTimeoutMs
        linkLost := false }
      rw [heq]
      refine .heard (f.parser.feed byte).1.frame ?_ htimer hlost
      have hsince : Since f _ [byte] := ⟨hsame.consumed, hsame.parser⟩
      rw [hsince.framesRead hparser, FrameParser.frames_singleton, if_pos hcomplete]

theorem watches {a : Action} (hparser : f.parser = FrameParser.new.after f.consumed)
    (h : f.exec M cfg a = some f') : Watches f a f' := by
  have hquiet : SameLink f f' → f'.framesRead = f.framesRead ++ [] := by
    intro hsame
    rw [framesRead, framesRead, hsame.consumed, List.append_nil]
  cases a with
  | cycle pins =>
      rw [exec, Option.ite_none_left_eq_some] at h
      rw [← Option.some.inj h.2] at hquiet ⊢
      exact .same rfl (hquiet (sameLink_cycle cfg pins f)) rfl rfl
  | pollByte => exact watches_pollByte hparser h
  | pollEnd =>
      rw [← Option.some.inj h] at hquiet ⊢
      exact .ended rfl (hquiet (sameLink_pollEnd f)) rfl
  | sample raw | heartbeat | irq irq =>
      rw [← Option.some.inj h]
      exact .same rfl (List.append_nil _).symm rfl rfl
  | drain tick =>
      obtain ⟨queue, offered, hdrain⟩ := drain_eq (M := M) f tick
      rw [← Option.some.inj h] at hquiet ⊢
      refine .same rfl (hquiet (sameLink_drain M f tick)) ?_ ?_
      · rw [hdrain]
      · rw [hdrain]
  | takeRecord =>
      obtain ⟨held, queue, htake⟩ := takeRecord_eq (M := M) f
      rw [← Option.some.inj h] at hquiet ⊢
      refine .same rfl (hquiet (sameLink_takeRecord M f)) ?_ ?_
      · rw [htake]
      · rw [htake]
  | writeRecord =>
      rw [← Option.some.inj h] at hquiet ⊢
      refine .same rfl (hquiet (sameLink_writeRecord f)) ?_ ?_
      · rw [f.writeRecord_eq]
      · rw [f.writeRecord_eq]

theorem counts_of_run {actions : List Action} {f : Firmware Q}
    (h : run M cfg up actions = some f) : Counts (Silent M cfg up actions f) f := by
  refine history_of_run (I := fun actions f => Counts (Silent M cfg up actions f) f) ?_ ?_ h
  · refine counts_started (fun n => ?_) rfl rfl
    refine ⟨fun hsilent => ?_, fun hn => ?_⟩
    · obtain ⟨front, back, s, hsplit, -, -, hback⟩ := hsilent
      rw [(List.append_eq_nil_iff.mp hsplit.symm).2] at hback
      exact Nat.le_zero.mp hback
    · rw [hn]
      exact silent_zero rfl
  · intro actions a s t hs hcounts hexec
    cases watches (reads_of_run hs).parser hexec with
    | same ha hread htimer hlost =>
        have hpolls : Silent M cfg up (actions ++ [a]) t = Silent M cfg up actions s := by
          funext n
          rw [silent_concat hs hexec hread, List.countP_singleton, ha]
          simp only [Bool.false_eq_true, if_false, Nat.sub_zero, true_and]
          refine propext ⟨?_, Or.inr⟩
          rintro (rfl | hsilent)
          · exact silent_zero hs
          · exact hsilent
        rw [hpolls]
        exact hcounts.same htimer hlost
    | heard request hread htimer hlost =>
        refine counts_started (fun n => ?_) htimer hlost
        rw [silent_concat hs hexec hread]
        simp
    | ended ha hread heq =>
        have hpolls : Silent M cfg up (actions ++ [a]) t =
            fun n => n = 0 ∨ Silent M cfg up actions s (n - 1) := by
          funext n
          rw [silent_concat hs hexec hread, ha]
          simp [Action.isPollEnd]
        rw [hpolls, heq]
        exact hcounts.pollEnd Silent.le (silent_zero hs)

/-- The link is lost when a whole timeout of polls has ended since a frame was read. -/
theorem linkLost_iff_silent {actions : List Action} {f : Firmware Q}
    (h : run M cfg up actions = some f) :
    f.linkLost = true ↔ Silent M cfg up actions f kSilentPolls :=
  (counts_of_run h).linkLost_iff

theorem commsLost_gatherInputs (a : BcmApp) (board : Snapshot) :
    (a.gatherInputs board).core.commsLost = board.linkLost := by
  simp only [BcmApp.gatherInputs, BcmCore.setInputs, BcmCore.setCommsLost, BcmCore.setHostRequest,
    BcmCore.requestDoorLock, BcmCore.requestDoorUnlock, apply_ite BcmCore.commsLost, ite_self]

theorem commsLost_cycle (pins : Bsp.Levels) (f : Firmware Q) :
    (f.cycle cfg pins).app.core.commsLost = f.linkLost := by
  calc (f.cycle cfg pins).app.core.commsLost
      = (f.app.gatherInputs (f.readButtons pins kControlMs).snapshot).core.commsLost :=
        BcmCore.step_commsLost cfg kControlMs _
    _ = (f.readButtons pins kControlMs).snapshot.linkLost := commsLost_gatherInputs _ _
    _ = f.linkLost := rfl

/-- Between two cycles the core keeps what the first has told it of the link. -/
theorem commsLost_run {s f : Firmware Q} {actions : List Action}
    (h : PartialRuns.run (exec M cfg) s actions = some f)
    (hactions : ∀ a ∈ actions, a.isCycle = false) :
    f.app.core.commsLost = s.app.core.commsLost := by
  refine PartialRuns.run_history (I := fun _ t => t.app.core.commsLost = s.app.core.commsLost)
    rfl (fun _ a t t' _ ha ht hexec => ?_) (PartialRuns.along_of_forall hactions s) h
  obtain ⟨faults, log, hcore⟩ := core_frame hexec ha
  rw [hcore]
  exact ht

/-- **Silence puts the high beam out.** From a cycle to the next one the core takes the link for lost
if and only if 400 polls, 2 s, had ended since the last frame was read when the cycle began: that of
the frame itself and 399 without one, or 400 since power up. The pin of the high beam is then low for
all of that time, whatever the host has asked for. -/
theorem silence_drops_high_beam {before after : List Action} {pins : Bsp.Levels}
    {s f : Firmware Q} (hs : run M cfg up before = some s)
    (hf : PartialRuns.run (exec M cfg) s (.cycle pins :: after) = some f)
    (hafter : ∀ a ∈ after, a.isCycle = false) :
    (f.app.core.commsLost = true ↔ Silent M cfg up before s kSilentPolls) ∧
      (Silent M cfg up before s kSilentPolls → (Bsp.lampPin .highBeam).read f.levels = false) := by
  have hrun : run M cfg up (before ++ .cycle pins :: after) = some f := by
    rw [run, PartialRuns.run_append, Option.bind_eq_some_iff]
    exact ⟨s, hs, hf⟩
  rw [PartialRuns.run_cons, Option.bind_eq_some_iff] at hf
  obtain ⟨t, ht, hrest⟩ := hf
  rw [exec, Option.ite_none_left_eq_some] at ht
  have hlost : f.app.core.commsLost = s.linkLost := by
    rw [commsLost_run hrest hafter, ← Option.some.inj ht.2, commsLost_cycle]
  have hsilent := linkLost_iff_silent hs
  rw [← hlost] at hsilent
  obtain ⟨henvelope, -, -, hoff, -⟩ := shows_of_run hrun
  exact ⟨hsilent, fun h => hoff _ (henvelope.commsLost (hsilent.mpr h))⟩

/-- The host asks for the high beam, and nothing comes in for 400 polls. -/
theorem silence_drops_high_beam_mute :
    let M := MessageQueue.plain LogRecord kLogQueueLength
    ∃ s f, run M .shipped .quiet
        (arrivals [0xAA, 0x04, 0x02, 0x03, 0x01, 0xB6, 0x55] ++ List.replicate 400 .pollEnd) =
          some s ∧
      PartialRuns.run (exec M .shipped) s [.cycle PowerUp.quiet.pins] = some f ∧
      f.app.core.hostRequest.get .highBeam = .on ∧ f.app.core.commsLost = true ∧
      (Bsp.lampPin .highBeam).read f.levels = false := by
  intro M
  have hruns : (run M .shipped .quiet
      (arrivals [0xAA, 0x04, 0x02, 0x03, 0x01, 0xB6, 0x55])).any (fun t =>
        (PartialRuns.run (exec M .shipped) t (List.replicate 400 .pollEnd)).any (fun s =>
          decide (framesSince t s = []) &&
            (PartialRuns.run (exec M .shipped) s [.cycle PowerUp.quiet.pins]).any (fun f =>
              decide (f.app.core.hostRequest.get .highBeam = .on)))) = true := by decide +kernel
  simp only [Option.any_eq_true, Bool.and_eq_true, decide_eq_true_eq] at hruns
  obtain ⟨t, ht, s, hs, hnone, f, hf, hasked⟩ := hruns
  have hrun : run M .shipped .quiet
      (arrivals [0xAA, 0x04, 0x02, 0x03, 0x01, 0xB6, 0x55] ++ List.replicate 400 .pollEnd) =
        some s := by
    rw [run, PartialRuns.run_append, Option.bind_eq_some_iff]
    exact ⟨t, ht, hs⟩
  have hsilent : Silent M .shipped .quiet
      (arrivals [0xAA, 0x04, 0x02, 0x03, 0x01, 0xB6, 0x55] ++ List.replicate 400 .pollEnd) s
        kSilentPolls := by
    refine ⟨_, _, t, rfl, ht, hnone, ?_⟩
    rw [List.countP_replicate]
    decide
  have hafter : ∀ a ∈ ([] : List Action), a.isCycle = false :=
    fun a ha => absurd ha List.not_mem_nil
  obtain ⟨hlost, hdark⟩ := silence_drops_high_beam hrun hf hafter
  exact ⟨s, f, hrun, hf, hasked, hlost.mpr hsilent, hdark hsilent⟩

end Bcm.Firmware
