import Bcm.Proof.LinkBytes

/-!
# From the wire to the dispatcher

Between the interrupt and the poll there are 128 bytes. While the poll is not that far behind,
nothing that comes in is lost, and else what is lost is newer than what is queued. Every frame that
the bytes read complete goes to the dispatcher, once and in order.
-/

namespace Bcm

theorem Dispatcher.dispatch_counts {C : Type} {table : List (CommandEntry C)} {d d' : Dispatcher}
    {request response answer : Frame} {context context' : C} {reply : Bool}
    (h : d.dispatch table request response context = some (reply, answer, d', context')) :
    d'.handled + d'.rejected = d.handled + d.rejected + 1 := by
  have hreject : d.reject.handled + d.reject.rejected = d.handled + d.rejected + 1 :=
    (UInt32.add_assoc _ _ _).symm
  unfold dispatch at h
  split at h
  · obtain ⟨-, -, rfl, -⟩ := Option.some.inj h
    exact hreject
  · split at h
    · obtain ⟨-, -, rfl, -⟩ := Option.some.inj h
      exact hreject
    · split at h
      · obtain ⟨-, -, rfl, -⟩ := Option.some.inj h
        exact hreject
      · split at h
        · obtain ⟨-, -, rfl, -⟩ := Option.some.inj h
          exact hreject
        · rw [Option.bind_eq_bind, Option.bind_eq_some_iff] at h
          obtain ⟨_, -, h⟩ := h
          obtain ⟨-, -, rfl, -⟩ := Option.some.inj h
          change d.handled + 1 + d.rejected = _
          rw [UInt32.add_assoc, UInt32.add_comm 1, UInt32.add_assoc]

theorem BcmApp.serve_counts {a a' : BcmApp} {request response : Frame} {reply : Bool}
    (h : a.serve request = some (reply, response, a')) :
    a'.dispatcher.handled + a'.dispatcher.rejected =
      a.dispatcher.handled + a.dispatcher.rejected + 1 := by
  rw [serve, Option.bind_eq_bind, Option.bind_eq_some_iff] at h
  obtain ⟨⟨reply, response, dispatcher, ctx⟩, hdispatch, hresult⟩ := h
  obtain ⟨-, -, rfl⟩ := Option.some.inj hresult
  exact Dispatcher.dispatch_counts hdispatch

theorem FrameParser.frames_singleton (p : FrameParser) (byte : UInt8) :
    p.frames [byte] = if (p.feed byte).2 = .complete then [(p.feed byte).1.frame] else [] := rfl

theorem FrameParser.frames_concat (p : FrameParser) (bytes : List UInt8) (byte : UInt8) :
    p.frames (bytes ++ [byte]) = p.frames bytes ++
      if ((p.after bytes).feed byte).2 = .complete then [((p.after bytes).feed byte).1.frame]
      else [] := by
  rw [frames_append, frames_singleton]

theorem FrameParser.after_concat (p : FrameParser) (bytes : List UInt8) (byte : UInt8) :
    p.after (bytes ++ [byte]) = ((p.after bytes).feed byte).1 := by
  rw [after, Transducer.final_append]
  rfl

namespace Firmware

variable {Q : Type} {M : MessageQueue Q LogRecord} {cfg : Config} {up : PowerUp Q}

/-- Fewer than 128 of the bytes received are still unread when another one comes in. -/
def KeepsUp (f : Firmware Q) : Action → Prop
  | .irq irq => irq.received.isSome → f.received.length < f.consumed.length + kRxCapacity
  | _ => True

structure Reads (lossless : Prop) (f : Firmware Q) : Prop where
  parser : f.parser = FrameParser.new.after f.consumed
  bytes : Passed lossless (f.consumed ++ f.line.uart.rx.contents) f.received
  served : f.app.dispatcher.handled + f.app.dispatcher.rejected =
    UInt32.ofNat (FrameParser.new.frames f.consumed).length

theorem reads_start : (start M cfg up).Reads True :=
  ⟨rfl, Passed.refl True [], rfl⟩

theorem Reads.imp {lossless lossless' : Prop} {f : Firmware Q} (h : f.Reads lossless)
    (himp : lossless' → lossless) : f.Reads lossless' :=
  ⟨h.parser, h.bytes.imp himp, h.served⟩

/-- The action is none of the receiving end. -/
structure SameLink (f f' : Firmware Q) : Prop where
  dispatcher : f'.app.dispatcher = f.app.dispatcher
  parser : f'.parser = f.parser
  rx : f'.line.uart.rx = f.line.uart.rx
  consumed : f'.consumed = f.consumed
  received : f'.received = f.received

theorem Reads.sameLink {lossless : Prop} {f f' : Firmware Q} (h : f.Reads lossless)
    (hsame : SameLink f f') : f'.Reads lossless := by
  constructor
  · rw [hsame.parser, hsame.consumed]
    exact h.parser
  · rw [hsame.rx, hsame.consumed, hsame.received]
    exact h.bytes
  · rw [hsame.dispatcher, hsame.consumed]
    exact h.served

theorem sameLink_cycle (cfg : Config) (pins : Bsp.Levels) (f : Firmware Q) :
    SameLink f (f.cycle cfg pins) := ⟨rfl, rfl, rfl, rfl, rfl⟩

theorem sameLink_pollEnd (f : Firmware Q) : SameLink f f.pollEnd := by
  obtain ⟨linkTimer, linkLost, hend⟩ := f.pollEnd_eq
  rw [hend]
  exact ⟨rfl, rfl, rfl, rfl, rfl⟩

theorem sameLink_drain (M : MessageQueue Q LogRecord) (f : Firmware Q) (tick : UInt32) :
    SameLink f (f.drain M tick) := by
  obtain ⟨queue, offered, hdrain⟩ := drain_eq (M := M) f tick
  rw [hdrain]
  exact ⟨rfl, rfl, rfl, rfl, rfl⟩

theorem sameLink_takeRecord (M : MessageQueue Q LogRecord) (f : Firmware Q) :
    SameLink f (f.takeRecord M) := by
  obtain ⟨held, queue, htake⟩ := takeRecord_eq (M := M) f
  rw [htake]
  exact ⟨rfl, rfl, rfl, rfl, rfl⟩

theorem sameLink_writeRecord (f : Firmware Q) : SameLink f f.writeRecord := by
  rw [f.writeRecord_eq]
  refine ⟨rfl, rfl, ?_, rfl, rfl⟩
  cases f.held with
  | none => rfl
  | some r => exact f.line.send_rx _

theorem sameLink_answer (reply : Bool) (response : Frame) (f : Firmware Q) :
    SameLink f (f.answer reply response) := by
  unfold answer
  split
  · exact ⟨rfl, rfl, f.line.send_rx response, rfl, rfl⟩
  · exact ⟨rfl, rfl, rfl, rfl, rfl⟩

/-- The actions of the receiving end are the interrupt and the pass of the loop of `poll`. -/
theorem exec_link {f f' : Firmware Q} {a : Action} (h : f.exec M cfg a = some f') :
    SameLink f f' ∨ (a = .pollByte ∧ f.pollByte = some f') ∨
      ∃ irq : Uart.Irq, a = .irq irq ∧
        f' = { f with
          line := f.line.exec (.irq irq)
          received := f.received ++ irq.received.toList } := by
  cases a with
  | cycle pins =>
      rw [exec, Option.ite_none_left_eq_some] at h
      obtain ⟨-, hcycle⟩ := h
      rw [← Option.some.inj hcycle]
      exact Or.inl (sameLink_cycle cfg pins f)
  | pollByte => exact Or.inr (Or.inl ⟨rfl, h⟩)
  | pollEnd =>
      rw [← Option.some.inj h]
      exact Or.inl (sameLink_pollEnd f)
  | sample raw | heartbeat =>
      rw [← Option.some.inj h]
      exact Or.inl ⟨rfl, rfl, rfl, rfl, rfl⟩
  | drain tick =>
      rw [← Option.some.inj h]
      exact Or.inl (sameLink_drain M f tick)
  | takeRecord =>
      rw [← Option.some.inj h]
      exact Or.inl (sameLink_takeRecord M f)
  | writeRecord =>
      rw [← Option.some.inj h]
      exact Or.inl (sameLink_writeRecord f)
  | irq irq => exact Or.inr (Or.inr ⟨irq, rfl, (Option.some.inj h).symm⟩)

/-! ### The two ends of the queue -/

theorem Reads.read {lossless : Prop} {f : Firmware Q} (h : f.Reads lossless) {byte : UInt8}
    (hread : f.line.uart.read.1 = some byte) :
    Passed lossless ((f.take byte).consumed ++ (f.take byte).line.uart.rx.contents) f.received := by
  have hconserves := f.line.uart.read_conserves.1
  rw [hread] at hconserves
  have hsame : (f.take byte).consumed ++ (f.take byte).line.uart.rx.contents =
      f.consumed ++ f.line.uart.rx.contents := by
    rw [← hconserves]
    exact List.append_assoc f.consumed [byte] _
  rw [hsame]
  exact h.bytes

theorem Reads.pollByte {lossless : Prop} {f f' : Firmware Q} (h : f.Reads lossless)
    (hpoll : f.pollByte = some f') : f'.Reads lossless := by
  cases polled hpoll with
  | idle hread heq =>
      have hconserves := f.line.uart.read_conserves.1
      rw [hread] at hconserves
      have hrest : f.line.uart.read.2.rx.contents = f.line.uart.rx.contents := hconserves
      rw [heq]
      refine ⟨h.parser, ?_, h.served⟩
      change Passed lossless (f.consumed ++ f.line.uart.read.2.rx.contents) f.received
      rw [hrest]
      exact h.bytes
  | kept byte hread hmore heq =>
      have hafter := FrameParser.after_concat .new f.consumed byte
      have hframes := FrameParser.frames_concat .new f.consumed byte
      rw [← h.parser] at hafter hframes
      rw [if_neg hmore, List.append_nil] at hframes
      rw [heq]
      refine ⟨hafter.symm, h.read hread, ?_⟩
      change f.app.dispatcher.handled + f.app.dispatcher.rejected =
        UInt32.ofNat (FrameParser.new.frames (f.consumed ++ [byte])).length
      rw [hframes]
      exact h.served
  | served byte hread hcomplete reply response app hserve heq =>
      have hafter := FrameParser.after_concat .new f.consumed byte
      have hframes := FrameParser.frames_concat .new f.consumed byte
      rw [← h.parser] at hafter hframes
      rw [if_pos hcomplete] at hframes
      have hcounts : app.dispatcher.handled + app.dispatcher.rejected =
          UInt32.ofNat (FrameParser.new.frames (f.consumed ++ [byte])).length := by
        rw [hframes, List.length_append, BcmApp.serve_counts hserve, h.served]
        exact (UInt32.ofNat_add _ 1).symm
      have hserved : Reads lossless { f.take byte with
          app := app
          linkTimer := f.linkTimer.start CommMgr.kDefaultTimeoutMs
          linkLost := false } := ⟨hafter.symm, h.read hread, hcounts⟩
      rw [heq]
      exact hserved.sameLink (sameLink_answer reply response _)

theorem Reads.irq {lossless : Prop} {f : Firmware Q} (h : f.Reads lossless) (irq : Uart.Irq) :
    Passed (lossless ∧ f.KeepsUp (.irq irq))
      (f.consumed ++ (f.line.uart.onIrq irq).2.rx.contents)
      (f.received ++ irq.received.toList) := by
  obtain ⟨hqueue, -⟩ := f.line.uart.onIrq_rx irq
  have hfront : Passed (lossless ∧ f.KeepsUp (.irq irq))
      (f.consumed ++ f.line.uart.rx.contents ++ irq.received.toList)
      (f.received ++ irq.received.toList) :=
    (h.bytes.imp And.left).append_right _
  refine Passed.trans ?_ hfront
  rw [List.append_assoc]
  refine Passed.append_left (hqueue.imp ?_) f.consumed
  rintro ⟨hall, hkeeps⟩ hreceived
  -- what is in the queue is what has been received and not read
  have hlength := congrArg List.length (h.bytes.all hall)
  have hbehind := hkeeps hreceived
  rw [List.length_append, RingBuffer.length_contents] at hlength
  omega

theorem Reads.exec {lossless : Prop} {f f' : Firmware Q} (h : f.Reads lossless) {a : Action}
    (hexec : f.exec M cfg a = some f') : f'.Reads (lossless ∧ f.KeepsUp a) := by
  rcases exec_link hexec with hsame | ⟨rfl, hpoll⟩ | ⟨irq, rfl, rfl⟩
  · exact (h.sameLink hsame).imp And.left
  · exact (h.pollByte hpoll).imp And.left
  · exact ⟨h.parser, h.irq irq, h.served⟩

theorem reads_of_run {actions : List Action} {f : Firmware Q}
    (h : run M cfg up actions = some f) :
    f.Reads (PartialRuns.Along (exec M cfg) KeepsUp (start M cfg up) actions) :=
  PartialRuns.run_while (I := fun lossless s => s.Reads lossless)
    (fun _ _ _ himp hreads => hreads.imp himp) reads_start
    (fun _ _ _ _ _ _ hreads hexec => hreads.exec hexec) h

/-- **What comes in is served once and in order.** At any point of any interleaving the bytes read
and those queued are bytes received, in order, and all of them if the tasks have kept up. The parser
stands where the bytes read take it, and each of the frames these complete has gone to the
dispatcher, which has counted it once. -/
theorem received_in_order {actions : List Action} {f : Firmware Q}
    (h : run M cfg up actions = some f) :
    f.parser = FrameParser.new.after f.consumed ∧
      Passed (PartialRuns.Along (exec M cfg) KeepsUp (start M cfg up) actions)
        (f.consumed ++ f.line.uart.rx.contents) f.received ∧
      f.app.dispatcher.handled + f.app.dispatcher.rejected =
        UInt32.ofNat (FrameParser.new.frames f.consumed).length := by
  have hreads := reads_of_run h
  exact ⟨hreads.parser, hreads.bytes, hreads.served⟩

/-- Bytes that come in and are read one by one. -/
def arrivals (bytes : List UInt8) : List Action :=
  bytes.flatMap fun byte => [.irq ⟨some byte, false, false⟩, .pollByte]

/-- A PING, and a byte that stays in the queue. -/
theorem received_in_order_ping :
    ∃ f, run (MessageQueue.plain LogRecord kLogQueueLength) .shipped .quiet
        (arrivals [0xAA, 0x01, 0x00, 0x15, 0x55] ++ [.irq ⟨some 0xAA, false, false⟩]) = some f ∧
      f.app.dispatcher.handled + f.app.dispatcher.rejected =
        UInt32.ofNat (FrameParser.new.frames f.consumed).length := by
  have hruns : (run (MessageQueue.plain LogRecord kLogQueueLength) .shipped .quiet
      (arrivals [0xAA, 0x01, 0x00, 0x15, 0x55] ++
        [.irq ⟨some 0xAA, false, false⟩])).isSome := by decide +kernel
  obtain ⟨f, hf⟩ := Option.isSome_iff_exists.mp hruns
  exact ⟨f, hf, (received_in_order hf).2.2⟩

/-! ### What has been read since -/

/-- These bytes have been read since. -/
structure Since (g f : Firmware Q) (bytes : List UInt8) : Prop where
  consumed : f.consumed = g.consumed ++ bytes
  parser : f.parser = g.parser.after bytes

theorem Since.trans {e g f : Firmware Q} {xs ys : List UInt8} (hg : Since e g xs)
    (hf : Since g f ys) : Since e f (xs ++ ys) := by
  constructor
  · rw [hf.consumed, hg.consumed, List.append_assoc]
  · rw [hf.parser, hg.parser]
    exact (Transducer.final_append ..).symm

theorem SameLink.since {f f' : Firmware Q} (h : SameLink f f') : Since f f' [] :=
  ⟨by rw [h.consumed, List.append_nil], h.parser⟩

def framesRead (f : Firmware Q) : List Frame := FrameParser.new.frames f.consumed

/-- The frames read from one state to a later one. -/
def framesSince (s f : Firmware Q) : List Frame := f.framesRead.drop s.framesRead.length

theorem framesSince_self (f : Firmware Q) : framesSince f f = [] := List.drop_length

theorem Since.framesRead {f f' : Firmware Q} {bytes : List UInt8} (h : Since f f' bytes)
    (hparser : f.parser = FrameParser.new.after f.consumed) :
    f'.framesRead = f.framesRead ++ f.parser.frames bytes := by
  rw [Firmware.framesRead, h.consumed, FrameParser.frames_append, ← hparser]
  rfl

theorem framesSince_append {s f f' : Firmware Q} {more : List Frame}
    (hs : s.framesRead <+: f.framesRead) (hf : f'.framesRead = f.framesRead ++ more) :
    framesSince s f' = framesSince s f ++ more := by
  rw [framesSince, hf, List.drop_append_of_le_length hs.length_le]
  rfl

end Firmware

end Bcm
