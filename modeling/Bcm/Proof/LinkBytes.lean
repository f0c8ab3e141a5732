import Bcm.Firmware
import Bcm.Lib.LossyPipe
import Bcm.Proof.ByteQueue
import Bcm.Proof.Loopback
import Bcm.Proof.UartTx

/-!
# One byte of the link

What the firmware does with a byte: it keeps it, or the request it completes goes to the
application and the reply to the line. The parser has then taken just what was read from the queue,
and the queue has lost nothing but what it had no room for.
-/

namespace Bcm

/-! ### The receive queue -/

namespace Uart

theorem write_rx (u : Uart) (data : Option (List UInt8)) :
    (u.write data).2.rx = u.rx ∧ (u.write data).2.overrun = u.overrun := by
  rcases u.writesWhole data with hno | ⟨bytes, tx, enabled, -, hyes, -⟩
  · rw [hno]
    exact ⟨rfl, rfl⟩
  · rw [hyes]
    exact ⟨rfl, rfl⟩

/-- What a read takes and what it leaves are what was there. -/
theorem read_conserves (u : Uart) :
    u.read.1.toList ++ u.read.2.rx.contents = u.rx.contents ∧ u.read.2.overrun = u.overrun := by
  unfold read
  split
  · exact ⟨rfl, rfl⟩
  · obtain ⟨hitem, hrest⟩ := u.rx.pop_contents
    refine ⟨?_, rfl⟩
    dsimp only
    rw [hitem, hrest]
    cases u.rx.contents with
    | nil => rfl
    | cons byte rest => rfl

theorem transmitByte_rx (u : Uart) (txEmpty : Bool) :
    (u.transmitByte txEmpty).2.rx = u.rx ∧ (u.transmitByte txEmpty).2.overrun = u.overrun := by
  unfold transmitByte
  split
  · split
    · exact ⟨rfl, rfl⟩
    · exact ⟨rfl, rfl⟩
  · exact ⟨rfl, rfl⟩

/-- The byte goes behind the others, or there is no room and the driver says so. -/
theorem receiveByte_cases (u : Uart) (byte : UInt8) :
    u.rx.count < kRxCapacity ∧
        (u.receiveByte (some byte)).rx.contents = u.rx.contents ++ [byte] ∧
        (u.receiveByte (some byte)).overrun = u.overrun ∨
      kRxCapacity ≤ u.rx.count ∧ (u.receiveByte (some byte)).rx.contents = u.rx.contents ∧
        (u.receiveByte (some byte)).overrun = true := by
  unfold receiveByte
  rcases Nat.lt_or_ge u.rx.count kRxCapacity with hroom | hfull
  · obtain ⟨htaken, hpushed⟩ := RingBuffer.push_of_room hroom byte
    refine Or.inl ⟨hroom, ?_⟩
    simp only [htaken, Bool.not_true, Bool.false_eq_true, if_false]
    exact ⟨hpushed, trivial⟩
  · refine Or.inr ⟨hfull, ?_⟩
    simp only [RingBuffer.push_of_full hfull, Bool.not_false, if_true]
    exact ⟨trivial, trivial⟩

/-- A byte arrives without room for it, or damaged. -/
def Loses (u : Uart) (irq : Irq) : Prop :=
  irq.lineError = true ∨ irq.received.isSome ∧ kRxCapacity ≤ u.rx.count

/-- Sending does not touch the receiver. -/
theorem onIrq_receiver (u : Uart) (irq : Irq) :
    (u.onIrq irq).2.rx = (u.receiveByte irq.received).rx ∧
      (u.onIrq irq).2.overrun = (irq.lineError || (u.receiveByte irq.received).overrun) := by
  obtain ⟨hrx, hoverrun⟩ := (u.receiveByte irq.received).transmitByte_rx irq.txEmpty
  rw [← hrx, ← hoverrun]
  unfold onIrq
  dsimp only
  cases irq.lineError with
  | false => exact ⟨rfl, rfl⟩
  | true => exact ⟨rfl, rfl⟩

theorem onIrq_rx (u : Uart) (irq : Irq) :
    Passed (irq.received.isSome → u.rx.count < kRxCapacity)
        (u.onIrq irq).2.rx.contents (u.rx.contents ++ irq.received.toList) ∧
      (u.overrun = true ∨ u.Loses irq → (u.onIrq irq).2.overrun = true) := by
  obtain ⟨hrxIrq, hoverrunIrq⟩ := u.onIrq_receiver irq
  rw [hrxIrq, hoverrunIrq, Bool.or_eq_true, Loses]
  cases hreceived : irq.received with
  | none =>
      refine ⟨Passed.of_eq (List.append_nil _).symm, ?_⟩
      rintro (hearlier | herror | ⟨hsome, -⟩)
      · exact Or.inr hearlier
      · exact Or.inl herror
      · exact absurd hsome (by simp)
  | some byte =>
      rcases u.receiveByte_cases byte with ⟨hroom, hstored, hsame⟩ | ⟨hfull, hlost, hflag⟩
      · refine ⟨Passed.of_eq hstored, ?_⟩
        rw [hsame]
        rintro (hearlier | herror | ⟨-, hfull⟩)
        · exact Or.inr hearlier
        · exact Or.inl herror
        · exact absurd hroom (Nat.not_lt.mpr hfull)
      · refine ⟨Passed.append_singleton (Or.inl hlost) fun hroom => ?_, fun _ => Or.inr hflag⟩
        exact absurd (hroom rfl) (Nat.not_lt.mpr hfull)

end Uart

namespace Line

/-- A frame goes to the line, which may have no room for it. -/
def send (frame : Frame) (line : Line) : Line :=
  line.exec (.write (frame.encode true kMaxFrameSize))

def takes (frame : Frame) (line : Line) : Bool :=
  (line.uart.write (frame.encode true kMaxFrameSize)).1

@[simp]
theorem send_rx (line : Line) (frame : Frame) : (line.send frame).uart.rx = line.uart.rx :=
  (line.uart.write_rx _).1

@[simp]
theorem send_overrun (line : Line) (frame : Frame) :
    (line.send frame).uart.overrun = line.uart.overrun :=
  (line.uart.write_rx _).2

theorem send_accepted (line : Line) (frame : Frame) :
    (line.send frame).accepted =
      if line.takes frame then line.accepted ++ (frame.encode true kMaxFrameSize).toList
      else line.accepted := rfl

theorem initialised_exec {line : Line} (h : line.uart.initialised = true) (op : UartOp) :
    (line.exec op).uart.initialised = true := by
  cases op with
  | write data =>
      rcases line.uart.writesWhole data with hno | ⟨bytes, tx, enabled, -, hyes, -⟩
      · rwa [exec_write hno]
      · rwa [exec_write hyes]
  | irq irq =>
      have hreceive : (line.uart.receiveByte irq.received).initialised = true := by
        unfold Uart.receiveByte
        split
        · exact h
        · dsimp only
          split
          · exact h
          · exact h
      have htransmit :
          ((line.uart.receiveByte irq.received).transmitByte irq.txEmpty).2.initialised = true := by
        unfold Uart.transmitByte
        split
        · split
          · exact hreceive
          · exact hreceive
        · exact hreceive
      change (line.uart.onIrq irq).2.initialised = true
      unfold Uart.onIrq
      dsimp only
      split
      · exact htransmit
      · exact htransmit
  | read =>
      change line.uart.read.2.initialised = true
      unfold Uart.read
      split
      · exact h
      · exact h
  | takeOverrun => exact h

end Line

namespace Firmware

variable {Q : Type}

theorem send_comm (m : CommMgr (Option CommandContext) Line) (frame : Frame) :
    m.send writeLine frame =
      (m.transport.takes frame,
        { m with
          transport := m.transport.send frame
          txFailures :=
            if m.transport.takes frame then m.txFailures else m.txFailures + 1 }) := by
  unfold CommMgr.send Line.send Line.takes
  cases frame.encode true kMaxFrameSize with
  | none => rfl
  | some bytes =>
      dsimp only [writeLine]
      cases (m.transport.uart.write (some bytes)).1 with
      | false => rfl
      | true => rfl

/-- The application as the manager leaves it where it dispatches nothing. -/
def lends (f : Firmware Q) : BcmApp := { f.app with cmdCtx := f.lentContext }

/-- A byte of the queue has been read, and fed to the parser. -/
def take (byte : UInt8) (f : Firmware Q) : Firmware Q :=
  { f with
    line := f.line.exec .read
    consumed := f.consumed ++ [byte]
    parser := (f.parser.feed byte).1 }

/-- A reply is sent, or the failure to send it is counted. -/
def answer (reply : Bool) (response : Frame) (f : Firmware Q) : Firmware Q :=
  if reply then
    { f with
      line := f.line.send response
      txFailures := if f.line.takes response then f.txFailures else f.txFailures + 1 }
  else f

/-- The ways a pass of the loop of `poll` ends. -/
inductive Polled (f f' : Firmware Q) : Prop
  | idle (hread : f.line.uart.read.1 = none) (heq : f' = { f with line := f.line.exec .read })
  | kept (byte : UInt8) (hread : f.line.uart.read.1 = some byte)
      (hmore : (f.parser.feed byte).2 ≠ .complete)
      (heq : f' = { f.take byte with app := f.lends })
  | served (byte : UInt8) (hread : f.line.uart.read.1 = some byte)
      (hcomplete : (f.parser.feed byte).2 = .complete) (reply : Bool) (response : Frame)
      (app : BcmApp)
      (hserve : f.app.serve (f.parser.feed byte).1.frame = some (reply, response, app))
      (heq : f' = answer reply response { f.take byte with
        app := app
        linkTimer := f.linkTimer.start CommMgr.kDefaultTimeoutMs
        linkLost := false })

/-- What the supervision of the link changes. -/
theorem withComm_link (f : Firmware Q) (linkTimer : SoftTimer) (linkLost : Bool) :
    f.withComm { f.comm with linkTimer := linkTimer, linkLost := linkLost } =
      { f with app := f.lends, linkTimer := linkTimer, linkLost := linkLost } := by
  unfold withComm comm lends lentContext
  cases f.app.cmdCtx.faults with
  | none => rfl
  | some faults => rfl

theorem withComm_comm (f : Firmware Q) : f.withComm f.comm = { f with app := f.lends } :=
  f.withComm_link f.linkTimer f.linkLost

/-- A complete request is the application's to serve. -/
theorem serve_comm {g : Firmware Q} {m : CommMgr (Option CommandContext) Line}
    (h : g.comm.serve writeLine Commands.commandTable = some m) :
    ∃ reply response app, g.app.serve g.parser.frame = some (reply, response, app) ∧
      g.withComm m = answer reply response { g with
        app := app
        linkTimer := g.linkTimer.start CommMgr.kDefaultTimeoutMs
        linkLost := false } := by
  unfold CommMgr.serve at h
  dsimp only at h
  rw [Option.bind_eq_bind, Option.bind_eq_some_iff] at h
  obtain ⟨⟨reply, response, dispatcher, context⟩, hdispatch, hm⟩ := h
  have hserve : g.app.serve g.parser.frame = some (reply, response,
      { core := { g.app.core with
          faults := (context.getD g.lentContext).faults.getD g.app.core.faults }
        dispatcher := dispatcher
        cmdCtx := context.getD g.lentContext }) :=
    Option.bind_eq_some_iff.mpr ⟨_, hdispatch, rfl⟩
  refine ⟨_, _, _, hserve, ?_⟩
  rw [← Option.some.inj hm]
  cases reply with
  | false => rfl
  | true =>
      rw [if_pos rfl, send_comm]
      rfl

theorem receive_comm (g : Firmware Q) (byte : UInt8) :
    CommMgr.receive writeLine Commands.commandTable (0, g.comm) byte =
      if (g.parser.feed byte).2 ≠ .complete then
        some (0, comm { g with parser := (g.parser.feed byte).1 })
      else
        ((comm { g with parser := (g.parser.feed byte).1 }).serve writeLine
          Commands.commandTable).bind fun m => some (0 + 1, m) := rfl

/-- **One pass of the loop of poll.** -/
theorem polled {f f' : Firmware Q} (h : f.pollByte = some f') : Polled f f' := by
  unfold pollByte at h
  cases hread : f.line.uart.read.1 with
  | none =>
      rw [hread] at h
      exact .idle hread (Option.some.inj h).symm
  | some byte =>
      rw [hread] at h
      dsimp only at h
      rw [Option.bind_eq_bind, receive_comm, Option.bind_eq_some_iff] at h
      obtain ⟨⟨handled, m⟩, hreceive, hf'⟩ := h
      dsimp only at hreceive
      split at hreceive
      case isTrue hmore =>
        obtain ⟨-, rfl⟩ := Prod.mk.inj (Option.some.inj hreceive)
        refine .kept byte hread hmore ?_
        exact (Option.some.inj hf').symm.trans (withComm_comm (f.take byte))
      case isFalse hcomplete =>
        rw [Option.bind_eq_some_iff] at hreceive
        obtain ⟨served, hserved, hm⟩ := hreceive
        obtain ⟨-, rfl⟩ := Prod.mk.inj (Option.some.inj hm)
        obtain ⟨reply, response, app, hserve, hwith⟩ := serve_comm (g := f.take byte) hserved
        refine .served byte hread (not_not.mp hcomplete) reply response app hserve ?_
        exact (Option.some.inj hf').symm.trans hwith

/-! ### What the other actions do -/

theorem pollEnd_eq (f : Firmware Q) : ∃ linkTimer linkLost, f.pollEnd =
    { f with app := f.lends, linkTimer := linkTimer, linkLost := linkLost } := by
  unfold pollEnd CommMgr.superviseLink
  split
  · exact ⟨_, _, f.withComm_comm⟩
  · exact ⟨_, _, f.withComm_link _ _⟩

variable {M : MessageQueue Q LogRecord}

theorem writeRecord_eq (f : Firmware Q) : f.writeRecord =
    { f with
      held := none
      line := match f.held with
        | none => f.line
        | some r => f.line.send (logFrame r) } := by
  unfold writeRecord Line.send
  cases hheld : f.held with
  | none =>
      dsimp only
      rw [← hheld]
  | some r =>
      dsimp only
      cases (logFrame r).encode true kMaxFrameSize with
      | none => rfl
      | some bytes => rfl

theorem takeRecord_eq (f : Firmware Q) : ∃ held queue,
    f.takeRecord M = { f with held := held, queue := queue } := by
  unfold takeRecord
  split
  · exact ⟨_, _, rfl⟩
  · exact ⟨_, _, rfl⟩

theorem drain_eq (f : Firmware Q) (tick : UInt32) : ∃ queue offered,
    f.drain M tick =
      { f with app := f.app.takeLogEvent, queue := queue, offered := offered } := by
  unfold drain
  split
  · exact ⟨_, _, rfl⟩
  · exact ⟨_, _, rfl⟩

/-! ### The line -/

theorem line_answer (reply : Bool) (response : Frame) (f : Firmware Q) :
    ∃ ops, (f.answer reply response).line = Runs.run Line.exec f.line ops := by
  unfold answer
  split
  · exact ⟨[.write (response.encode true kMaxFrameSize)], rfl⟩
  · exact ⟨[], rfl⟩

/-- Whatever a task does to the line, it does by the calls of the driver. -/
theorem line_exec {cfg : Config} {f f' : Firmware Q} {a : Action}
    (h : f.exec M cfg a = some f') : ∃ ops, f'.line = Runs.run Line.exec f.line ops := by
  cases a with
  | cycle pins =>
      rw [exec, Option.ite_none_left_eq_some] at h
      rw [← Option.some.inj h.2]
      exact ⟨[.takeOverrun], rfl⟩
  | pollByte =>
      cases polled h with
      | idle _ heq | kept _ _ _ heq =>
          rw [heq]
          exact ⟨[.read], rfl⟩
      | served byte _ _ reply response app _ heq =>
          obtain ⟨ops, hops⟩ := line_answer reply response { f.take byte with
            app := app
            linkTimer := f.linkTimer.start CommMgr.kDefaultTimeoutMs
            linkLost := false }
          rw [heq, hops]
          exact ⟨.read :: ops, rfl⟩
  | pollEnd =>
      obtain ⟨linkTimer, linkLost, hend⟩ := f.pollEnd_eq
      rw [← Option.some.inj h, hend]
      exact ⟨[], rfl⟩
  | sample raw | heartbeat =>
      rw [← Option.some.inj h]
      exact ⟨[], rfl⟩
  | drain tick =>
      obtain ⟨queue, offered, hdrain⟩ := drain_eq (M := M) f tick
      rw [← Option.some.inj h, hdrain]
      exact ⟨[], rfl⟩
  | takeRecord =>
      obtain ⟨held, queue, htake⟩ := takeRecord_eq (M := M) f
      rw [← Option.some.inj h, htake]
      exact ⟨[], rfl⟩
  | writeRecord =>
      rw [← Option.some.inj h, f.writeRecord_eq]
      cases f.held with
      | none => exact ⟨[], rfl⟩
      | some r => exact ⟨[.write ((logFrame r).encode true kMaxFrameSize)], rfl⟩
  | irq irq =>
      rw [← Option.some.inj h]
      exact ⟨[.irq irq], rfl⟩

theorem initialised_exec {cfg : Config} {f f' : Firmware Q} {a : Action}
    (hinit : f.line.uart.initialised = true) (h : f.exec M cfg a = some f') :
    f'.line.uart.initialised = true := by
  obtain ⟨ops, hops⟩ := line_exec h
  have hreach : Runs.Reachable Line.exec f.line (fun _ => True) f'.line :=
    ⟨ops, fun _ _ => trivial, hops.symm⟩
  exact hreach.invariant (I := fun line => line.uart.initialised = true) hinit
    fun _ op _ h => Line.initialised_exec h op

end Firmware

end Bcm
