import Bcm.Proof.ReplyPath

/-!
# From the log to the desktop tool

A record goes from the core to its log, from there to the log queue, to the logger task, to the
transmit queue of the driver, out on the wire, and the desktop tool raises an event for it. Each of
the four stores may drop a record for want of room. None puts one before another, or makes two of
one.
-/

namespace Bcm

theorem Logger.put_of_ne {l : Logger} {r : LogRecord} (h : r.event ≠ .none) :
    (l.put r).contents = (l.contents ++ [r]).drop (l.count + 1 - 32) :=
  l.contents_log h r.timestampMs r.arg

/-- The log drops its oldest records, and none while there is room. -/
theorem Logger.puts_passed (l : Logger) (records : List LogRecord)
    (h : ∀ r ∈ records, r.event ≠ .none) :
    Passed (l.count + records.length ≤ 32) (records.foldl Logger.put l).contents
      (l.contents ++ records) := by
  induction records generalizing l with
  | nil => exact Passed.of_eq (List.append_nil _).symm
  | cons r records ih =>
      have hput := put_of_ne (l := l) (h r List.mem_cons_self)
      have hone : Passed (l.count + 1 ≤ 32) (l.put r).contents (l.contents ++ [r]) := by
        rw [hput]
        refine ⟨List.drop_sublist _ _, fun hroom => ?_⟩
        rw [Nat.sub_eq_zero_of_le hroom, List.drop_zero]
      have hcount : (l.put r).count ≤ l.count + 1 := by
        have hlength := hone.sublist.length_le
        rwa [length_contents, List.length_append, length_contents] at hlength
      have hrest := ih (l.put r) fun r' hr' => h r' (List.mem_cons_of_mem r hr')
      rw [List.foldl_cons, List.append_cons]
      refine (hrest.imp fun hroom => ?_).trans ((hone.imp fun hroom => ?_).append_right records)
      · rw [List.length_cons] at hroom
        omega
      · rw [List.length_cons] at hroom
        omega

theorem BcmCore.event_of_mem_records {cfg : Config} {dtMs : Nat} {s : BcmCore} {r : LogRecord}
    (hr : r ∈ s.records cfg dtMs) : r.event ≠ .none := by
  let read : LogEvent → Option Unit := fun e => if e = .none then some () else none
  have hquiet : (s.records cfg dtMs).filterMap (fun r => read r.event) = [] := by
    rw [records_eq, List.filterMap_append,
      read_writtenBy_nil (cycleBlocks_write cfg dtMs) (by decide), List.append_nil]
    split
    · rfl
    · exact read_writtenBy_nil (edgeBlocks_write cfg dtMs) (by decide) s
  intro hnone
  have hread := List.filterMap_eq_nil_iff.mp hquiet r hr
  dsimp only [read] at hread
  rw [if_pos hnone] at hread
  exact absurd hread (by simp)

namespace Firmware

open Desktop (eventArgs eventOf)

variable {Q : Type} {M : MessageQueue Q LogRecord} {cfg : Config} {up : PowerUp Q}

/-- What a record says, but for its time. -/
def heading (r : LogRecord) : LogEvent × Nat := (r.event, r.arg)

/-- What the core logs in a cycle. -/
def cycleRecords (cfg : Config) (pins : Bsp.Levels) (f : Firmware Q) : List LogRecord :=
  (f.app.gatherInputs (f.readButtons pins kControlMs).snapshot).core.records cfg kControlMs

variable (M cfg) in
/-- Each store has room for what the action puts into it. -/
def StoresFit (f : Firmware Q) : Action → Prop
  | .cycle pins => f.app.core.log.count + (f.cycleRecords cfg pins).length ≤ 32
  | .drain _ => f.app.core.log.contents = [] ∨ (M.contents f.queue).length < kLogQueueLength
  | .writeRecord => f.held = none ∨ f.line.uart.tx.count + 11 ≤ kTxCapacity
  | _ => True

variable (M) in
/-- From the core to the queue, and from the queue to the wire. -/
structure Tells (hw : SelfTest.Hardware) (lossless : Prop) (f : Firmware Q) : Prop where
  ready : f.line.Ready
  queued : Passed lossless ((f.offered ++ f.app.core.log.contents).map heading)
    ((startupRecords hw ++ f.logged).map heading)
  told : Passed lossless
    (f.line.frames.filterMap eventOf ++ (f.held.toList ++ M.contents f.queue).map eventArgs)
    (f.offered.map eventArgs)

variable {hw : SelfTest.Hardware} {lossless : Prop} {f f' : Firmware Q}

theorem Tells.imp {lossless' : Prop} (h : f.Tells M hw lossless) (himp : lossless' → lossless) :
    f.Tells M hw lossless' :=
  ⟨h.ready, h.queued.imp himp, h.told.imp himp⟩

theorem tells_start (hM : M.Lawful kLogQueueLength) (hempty : M.contents up.queue = []) :
    (start M cfg up).Tells M up.hw True := by
  refine ⟨Line.ready_start up.uart, ?_, ?_⟩
  · have hlog : (start M cfg up).app.core.log.contents = [] := by
      unfold start BcmApp.init
      cases up.wasWatchdog with
      | false => rfl
      | true => rfl
    rw [hlog]
    exact Passed.refl True _
  · obtain ⟨verdict, startup, hrecords⟩ : ∃ r r', startupRecords up.hw = [r, r'] := ⟨_, _, rfl⟩
    have hqueue : M.contents ((startupRecords up.hw).foldl M.send up.queue) =
        startupRecords up.hw := by
      rw [hrecords]
      have hfirst := hM.send_of_room up.queue verdict (by rw [hempty]; decide)
      rw [hempty] at hfirst
      have hroom : (M.contents (M.send up.queue verdict)).length < kLogQueueLength := by
        rw [hfirst]
        change 1 < 16
        decide
      have hsecond := hM.send_of_room (M.send up.queue verdict) startup hroom
      rw [hfirst] at hsecond
      exact hsecond
    refine Passed.of_eq ?_
    change ((M.contents ((startupRecords up.hw).foldl M.send up.queue)).map eventArgs) = _
    rw [hqueue]
    rfl

/-- The action is none of the way of a record. -/
structure SameRecords (f f' : Firmware Q) : Prop where
  log : f'.app.core.log = f.app.core.log
  logged : f'.logged = f.logged
  offered : f'.offered = f.offered
  held : f'.held = f.held
  queue : f'.queue = f.queue

theorem Tells.same (h : f.Tells M hw lossless) (hsame : SameRecords f f') (hready : f'.line.Ready)
    (hframes : f'.line.frames.filterMap eventOf = f.line.frames.filterMap eventOf) :
    f'.Tells M hw lossless := by
  refine ⟨hready, ?_, ?_⟩
  · rw [hsame.log, hsame.logged, hsame.offered]
    exact h.queued
  · rw [hframes, hsame.held, hsame.queue, hsame.offered]
    exact h.told

/-! ### The log and the queue -/

theorem log_gatherInputs (a : BcmApp) (board : Snapshot) :
    (a.gatherInputs board).core.log = a.core.log := by
  simp only [BcmApp.gatherInputs, BcmCore.setInputs, BcmCore.setCommsLost, BcmCore.setHostRequest,
    BcmCore.requestDoorLock, BcmCore.requestDoorUnlock, apply_ite BcmCore.log, ite_self]

theorem log_cycle (cfg : Config) (pins : Bsp.Levels) (f : Firmware Q) :
    (f.cycle cfg pins).app.core.log = (f.cycleRecords cfg pins).foldl Logger.put f.app.core.log := by
  rw [← log_gatherInputs f.app (f.readButtons pins kControlMs).snapshot]
  exact BcmCore.step_log cfg kControlMs _

theorem Tells.cycle (h : f.Tells M hw lossless) (pins : Bsp.Levels) :
    (f.cycle cfg pins).Tells M hw (lossless ∧ StoresFit M cfg f (.cycle pins)) := by
  obtain ⟨hready, hframes⟩ := h.ready.other .takeOverrun rfl
  refine ⟨hready, ?_, ?_⟩
  · have hputs := f.app.core.log.puts_passed (f.cycleRecords cfg pins)
      fun r hr => BcmCore.event_of_mem_records hr
    rw [← log_cycle] at hputs
    have hqueued := h.queued.append_right ((f.cycleRecords cfg pins).map heading)
    rw [← List.map_append, ← List.map_append, List.append_assoc, List.append_assoc] at hqueued
    exact (((hputs.append_left f.offered).map heading).imp And.right).trans (hqueued.imp And.left)
  · change Passed _ ((f.line.exec .takeOverrun).frames.filterMap eventOf ++ _) _
    rw [hframes]
    exact h.told.imp And.left

theorem Tells.drain (h : f.Tells M hw lossless) (hM : M.Lawful kLogQueueLength) (tick : UInt32) :
    (f.drain M tick).Tells M hw (lossless ∧ StoresFit M cfg f (.drain tick)) := by
  obtain ⟨hhead, htail⟩ := f.app.core.log.pop_contents
  unfold Firmware.drain
  cases hpop : f.app.core.log.pop.1 with
  | none =>
      rw [hpop] at hhead
      have hempty : f.app.core.log.contents = [] := List.head?_eq_none_iff.mp hhead.symm
      refine ⟨h.ready, ?_, h.told.imp And.left⟩
      change Passed _ ((f.offered ++ f.app.core.log.pop.2.contents).map heading) _
      rw [htail, hempty, List.tail_nil, ← hempty]
      exact h.queued.imp And.left
  | some r =>
      rw [hpop] at hhead
      have hsplit : f.app.core.log.contents = r :: f.app.core.log.pop.2.contents := by
        rw [htail]
        exact List.eq_cons_of_mem_head? hhead.symm
      refine ⟨h.ready, ?_, ?_⟩
      · have hqueued := h.queued
        rw [hsplit] at hqueued
        change Passed _ ((f.offered ++ [queuedRecord tick r.event r.arg] ++
          f.app.core.log.pop.2.contents).map heading) _
        rw [List.append_assoc, List.map_append]
        rw [List.map_append] at hqueued
        exact hqueued.imp And.left
      · have htold := h.told.append_right ([queuedRecord tick r.event r.arg].map eventArgs)
        rw [← List.map_append, List.append_assoc, ← List.map_append, List.append_assoc] at htold
        refine Passed.trans ?_ (htold.imp And.left)
        refine Passed.append_left (Passed.map (Passed.append_left ?_ _) _) _
        refine Passed.append_singleton (hM.send_cases _ _).symm ?_
        rintro ⟨-, hempty | hroom⟩
        · rw [hempty] at hsplit
          exact absurd hsplit (by simp)
        · exact hM.send_of_room _ _ hroom

/-! ### The logger task -/

theorem Tells.takeRecord (h : f.Tells M hw lossless) (hM : M.Lawful kLogQueueLength) :
    (f.takeRecord M).Tells M hw lossless := by
  unfold Firmware.takeRecord
  cases hheld : f.held with
  | some r => exact h
  | none =>
      refine ⟨h.ready, h.queued, ?_⟩
      have htold := h.told
      rw [hheld, Option.toList_none, List.nil_append, ← hM.receive_conserves] at htold
      exact htold

theorem Tells.writeRecord (h : f.Tells M hw lossless) :
    f.writeRecord.Tells M hw (lossless ∧ StoresFit M cfg f .writeRecord) := by
  rw [f.writeRecord_eq]
  cases hheld : f.held with
  | none =>
      have htold := h.told
      rw [hheld] at htold
      exact ⟨h.ready, h.queued.imp And.left, htold.imp And.left⟩
  | some r =>
      have hfits : (logFrame r).len ≤ kMaxPayload := by
        change (6 : UInt8) ≤ kMaxPayload
        decide
      have htold := h.told
      rw [hheld, Option.toList_some, List.singleton_append, List.map_cons,
        List.append_cons] at htold
      refine ⟨h.ready.send hfits, h.queued.imp And.left, ?_⟩
      refine Passed.trans ?_ (htold.imp And.left)
      refine Passed.append_right ?_ _
      change Passed _ ((f.line.send (logFrame r)).frames.filterMap eventOf) _
      rw [Line.frames_send hfits, List.filterMap_append]
      refine Passed.append_singleton ?_ ?_
      · split
        · right
          rw [List.filterMap_cons_some (Desktop.eventOf_logFrame r), List.filterMap_nil]
        · exact Or.inl (List.append_nil _)
      · rintro ⟨-, hnone | hroom⟩
        · rw [hheld] at hnone
          exact absurd hnone (by simp)
        · rw [if_pos (Line.takes_of_room hfits h.ready.initialised hroom),
            List.filterMap_cons_some (Desktop.eventOf_logFrame r), List.filterMap_nil]

/-! ### The other actions -/

theorem Tells.pollByte (h : f.Tells M hw lossless)
    (hparser : f.parser = FrameParser.new.after f.consumed) (hpoll : f.pollByte = some f') :
    f'.Tells M hw lossless := by
  obtain ⟨hready, hframes⟩ := h.ready.other .read rfl
  have hsame := congrArg (List.filterMap eventOf) hframes
  cases polled hpoll with
  | idle hread heq =>
      rw [heq]
      exact h.same ⟨rfl, rfl, rfl, rfl, rfl⟩ hready hsame
  | kept byte hread hmore heq =>
      rw [heq]
      exact h.same ⟨rfl, rfl, rfl, rfl, rfl⟩ hready hsame
  | served byte hread hcomplete reply response app hserve heq =>
      have hlog : app.core.log = f.app.core.log := by
        rcases BcmApp.serve_faults hserve with hcore | ⟨-, hcore⟩
        · rw [hcore]
        · rw [hcore]
      rw [heq, answer]
      cases reply with
      | false => exact h.same ⟨hlog, rfl, rfl, rfl, rfl⟩ hready hsame
      | true =>
          obtain ⟨-, -, hlen, hno⟩ := serve_reply (len_of_complete hparser hcomplete) hserve
          refine h.same ⟨hlog, rfl, rfl, rfl, rfl⟩ (hready.send hlen) ?_
          change ((f.line.exec .read).send response).frames.filterMap eventOf = _
          rw [Line.frames_send hlen, List.filterMap_append, hsame]
          split
          · rw [List.filterMap_cons_none hno, List.filterMap_nil, List.append_nil]
          · exact List.append_nil _

theorem Tells.exec (h : f.Tells M hw lossless) (hM : M.Lawful kLogQueueLength)
    (hparser : f.parser = FrameParser.new.after f.consumed) {a : Action}
    (hexec : f.exec M cfg a = some f') : f'.Tells M hw (lossless ∧ StoresFit M cfg f a) := by
  cases a with
  | cycle pins =>
      rw [Firmware.exec, Option.ite_none_left_eq_some] at hexec
      rw [← Option.some.inj hexec.2]
      exact h.cycle pins
  | pollByte => exact (h.pollByte hparser hexec).imp And.left
  | pollEnd =>
      obtain ⟨linkTimer, linkLost, hend⟩ := f.pollEnd_eq
      rw [← Option.some.inj hexec, hend]
      refine Tells.imp ?_ And.left
      exact h.same ⟨rfl, rfl, rfl, rfl, rfl⟩ h.ready rfl
  | sample raw | heartbeat =>
      rw [← Option.some.inj hexec]
      refine Tells.imp ?_ And.left
      exact h.same ⟨rfl, rfl, rfl, rfl, rfl⟩ h.ready rfl
  | drain tick =>
      rw [← Option.some.inj hexec]
      exact h.drain hM tick
  | takeRecord =>
      rw [← Option.some.inj hexec]
      exact (h.takeRecord hM).imp And.left
  | writeRecord =>
      rw [← Option.some.inj hexec]
      exact h.writeRecord
  | irq irq =>
      obtain ⟨hready, hframes⟩ := h.ready.other (.irq irq) rfl
      rw [← Option.some.inj hexec]
      refine Tells.imp ?_ And.left
      exact h.same ⟨rfl, rfl, rfl, rfl, rfl⟩ hready (congrArg (List.filterMap eventOf) hframes)

theorem tells_of_run (hM : M.Lawful kLogQueueLength) (hempty : M.contents up.queue = [])
    {actions : List Action} (h : run M cfg up actions = some f) :
    f.Tells M up.hw
      (PartialRuns.Along (Firmware.exec M cfg) (StoresFit M cfg) (start M cfg up) actions) :=
  PartialRuns.run_while (I := fun lossless s => s.Tells M up.hw lossless)
    (fun _ _ _ himp htells => htells.imp himp) (tells_start hM hempty)
    (fun _ _ _ _ _ hs htells hexec => htells.exec hM (reads_of_run hs).parser hexec) h

/-! ### The times -/

/-- The ticks at which the monitor drains the log. -/
def ticks (actions : List Action) : List UInt32 :=
  actions.filterMap fun
    | .drain tick => some tick
    | _ => none

/-- A record has the tick at which it was drained, and those of the start have none before. -/
theorem times_of_run {actions : List Action} (h : run M cfg up actions = some f) :
    (f.offered.map LogRecord.timestampMs).Sublist (0 :: 0 :: (ticks actions).map UInt32.toNat) := by
  refine history_of_run (I := fun actions s => (s.offered.map LogRecord.timestampMs).Sublist
    (0 :: 0 :: (ticks actions).map UInt32.toNat)) (List.Sublist.refl _) ?_ h
  intro actions a s t hs htimes hexec
  have hmore : ticks (actions ++ [a]) = ticks actions ++ ticks [a] := List.filterMap_append
  rw [hmore, List.map_append]
  by_cases hdrain : ∃ tick, a = .drain tick
  · obtain ⟨tick, rfl⟩ := hdrain
    rw [← Option.some.inj hexec, drain]
    split
    · exact htimes.trans (List.sublist_append_left _ [tick.toNat])
    · change ((s.offered ++ [queuedRecord tick _ _]).map LogRecord.timestampMs).Sublist _
      rw [List.map_append]
      exact htimes.append_right [tick.toNat]
  · have hsame : t.offered = s.offered := by
      cases a with
      | drain tick => exact absurd ⟨tick, rfl⟩ hdrain
      | cycle pins =>
          rw [Firmware.exec, Option.ite_none_left_eq_some] at hexec
          rw [← Option.some.inj hexec.2]
          rfl
      | pollByte =>
          cases polled hexec with
          | idle _ heq | kept _ _ _ heq => exact (congrArg Firmware.offered heq).trans rfl
          | served _ _ _ reply response _ _ heq =>
              rw [heq, answer]
              cases reply with
              | false => rfl
              | true => rfl
      | pollEnd | sample raw | heartbeat | irq irq =>
          exact (congrArg Firmware.offered (Option.some.inj hexec)).symm
      | takeRecord =>
          obtain ⟨held, queue, htake⟩ := takeRecord_eq (M := M) s
          rw [← Option.some.inj hexec, htake]
      | writeRecord =>
          rw [← Option.some.inj hexec, s.writeRecord_eq]
    rw [hsame]
    exact htimes.trans (List.sublist_append_left _ _)

variable (M) in
/-- No record is on its way. -/
def Delivered (f : Firmware Q) : Prop :=
  f.app.core.log.contents = [] ∧ M.contents f.queue = [] ∧ f.held = none ∧
    f.line.uart.tx.contents = []

/-- The logger task sends the verdict of the self test, and the line is idle for long enough. -/
def verdictActions : List Action :=
  [.takeRecord, .writeRecord] ++ List.replicate 11 (.irq ⟨none, true, false⟩)

end Firmware

end Bcm
