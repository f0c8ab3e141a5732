import Bcm.Commands
import Bcm.Proof.FrameDelivery
import Bcm.Proof.LinkSupervision

/-!
# How the bytes are chunked

Beside the link timer and the count of failed sends, a manager is a machine that takes one byte after
another. The budget, the time between the polls and what the transport has ready decide only when it
takes them.
-/

namespace Bcm

/-- What goes by while a manager takes bytes: the frames given to the dispatcher and the blocks given
to the transport, with the parts that decide them. -/
structure Exchange (C : Type) where
  parser : FrameParser
  dispatcher : Dispatcher
  context : C
  dispatched : List Frame
  written : List (List UInt8)

namespace Exchange

variable {C : Type} (table : List (CommandEntry C))

def serve (e : Exchange C) : Option (Exchange C) := do
  let (reply, response, dispatcher, context) ←
    e.dispatcher.dispatch table e.parser.frame .new e.context
  let block := if reply then (response.encode true kMaxFrameSize).toList else []
  return {
    e with
    dispatcher := dispatcher
    context := context
    dispatched := e.dispatched ++ [e.parser.frame]
    written := e.written ++ block }

/-- One byte. There is no budget here, no time and no transport. -/
def receive (e : Exchange C) (byte : UInt8) : Option (Exchange C) :=
  let (parser, result) := e.parser.feed byte
  let e := { e with parser := parser }
  if result ≠ .complete then some e else e.serve table

end Exchange

namespace CommMgr

variable {C T : Type}

/-- A transport that also notes each block it is given, and whether it took it. -/
def recorded (write : List UInt8 → T → Bool × T) (bytes : List UInt8) :
    T × List (List UInt8 × Bool) → Bool × T × List (List UInt8 × Bool)
  | (transport, log) =>
      let (accepted, transport) := write bytes transport
      (accepted, transport, log ++ [(bytes, accepted)])

def recording (m : CommMgr C T) : CommMgr C (T × List (List UInt8 × Bool)) :=
  { m with transport := (m.transport, []) }

/-- What one poll gives to the dispatcher: the frames that its bytes complete. -/
def dispatches (m : CommMgr C T) (p : Poll) : List Frame := m.parser.frames p.bytes

/-- A poll, with the frames dispatched so far. -/
def pollSeen (write : List UInt8 → T → Bool × T) (table : List (CommandEntry C)) :
    List Frame × CommMgr C T → Poll → Option (List Frame × CommMgr C T)
  | (seen, m), p => do
      let (_, m') ← m.poll write table p.dtMs p.budget p.pending
      return (seen ++ m.dispatches p, m')

/-- What can be seen of some polls. -/
structure Observed where
  dispatched : List Frame
  written : List (List UInt8)
  framesOk : UInt32
  framesBad : UInt32
  deriving DecidableEq

def observe (write : List UInt8 → T → Bool × T) (table : List (CommandEntry C))
    (m : CommMgr C T) (ps : List Poll) : Option Observed := do
  let (seen, m) ← ps.foldlM (pollSeen (recorded write) table) ([], m.recording)
  return ⟨seen, m.transport.2.map (·.1), m.parser.framesOk, m.parser.framesBad⟩

/-! ### The manager is the machine, with a clock -/

variable (write : List UInt8 → T → Bool × T) (table : List (CommandEntry C))

/-- The exchange so far of a manager whose transport records. -/
def exchange (seen : List Frame) (m : CommMgr C (T × List (List UInt8 × Bool))) : Exchange C :=
  ⟨m.parser, m.dispatcher, m.context, seen, m.transport.2.map (·.1)⟩

theorem send_exchange (m : CommMgr C (T × List (List UInt8 × Bool))) (frame : Frame)
    (seen : List Frame) :
    exchange seen (m.send (recorded write) frame).2 =
      { exchange seen m with
        written := (exchange seen m).written ++ (frame.encode true kMaxFrameSize).toList } := by
  unfold send
  cases frame.encode true kMaxFrameSize with
  | none =>
      unfold exchange
      dsimp only
      rw [Option.toList_none, List.append_nil]
  | some bytes =>
      unfold recorded exchange
      dsimp only
      split
      · simp
      · simp

theorem serve_exchange (m : CommMgr C (T × List (List UInt8 × Bool))) (seen : List Frame) :
    (m.serve (recorded write) table).map (exchange (seen ++ [m.parser.frame])) =
      (exchange seen m).serve table := by
  unfold serve Exchange.serve
  cases hdispatch : m.dispatcher.dispatch table m.parser.frame .new m.context with
  | none => simp [exchange, hdispatch]
  | some outcome =>
      obtain ⟨reply, response, dispatcher, context⟩ := outcome
      cases reply with
      | false => simp [exchange, hdispatch]
      | true =>
          simp only [exchange, hdispatch, Option.bind_eq_bind, Option.bind_some, Option.pure_def,
            Option.map_some, if_true]
          exact congrArg some (send_exchange write _ response _)

theorem receive_exchange (handled : UInt8) (m : CommMgr C (T × List (List UInt8 × Bool)))
    (byte : UInt8) (seen : List Frame) :
    (receive (recorded write) table (handled, m) byte).map
        (fun r => exchange (seen ++ m.parser.frames [byte]) r.2) =
      (exchange seen m).receive table byte := by
  by_cases hcomplete : (m.parser.feed byte).2 = .complete
  · have hframes : m.parser.frames [byte] = [(m.parser.feed byte).1.frame] := by
      simp only [FrameParser.frames, hcomplete, if_true]
    have hserve := serve_exchange write table
      { m with parser := (m.parser.feed byte).1 } seen
    have hleft : receive (recorded write) table (handled, m) byte =
        ({ m with parser := (m.parser.feed byte).1 }.serve (recorded write) table).bind
          fun m' => some (handled + 1, m') := if_neg (not_not.mpr hcomplete)
    have hright : (exchange seen m).receive table byte =
        (exchange seen { m with parser := (m.parser.feed byte).1 }).serve table :=
      if_neg (not_not.mpr hcomplete)
    rw [hframes, hleft, hright, ← hserve, Option.map_bind]
    exact Option.map_eq_bind.symm
  · have hframes : m.parser.frames [byte] = [] := by
      simp only [FrameParser.frames, if_neg hcomplete]
    rw [hframes, List.append_nil]
    simp only [receive, Exchange.receive, exchange, ne_eq, hcomplete, not_false_eq_true, if_true]
    rfl

theorem foldlM_exchange (handled : UInt8) (m : CommMgr C (T × List (List UInt8 × Bool)))
    (bytes : List UInt8) (seen : List Frame) :
    (bytes.foldlM (receive (recorded write) table) (handled, m)).map
        (fun r => exchange (seen ++ m.parser.frames bytes) r.2) =
      bytes.foldlM (Exchange.receive table) (exchange seen m) := by
  induction bytes generalizing handled m seen with
  | nil => simp [FrameParser.frames]
  | cons byte bytes ih =>
      have hbyte := receive_exchange write table handled m byte seen
      rw [List.foldlM_cons, List.foldlM_cons, ← hbyte, FrameParser.frames_cons, ← List.append_assoc]
      cases hreceive : receive (recorded write) table (handled, m) byte with
      | none => rfl
      | some r =>
          obtain ⟨handled₁, m₁⟩ := r
          rw [← (receive_link hreceive).1]
          exact ih handled₁ m₁ _

theorem poll_exchange (m : CommMgr C (T × List (List UInt8 × Bool))) (p : Poll)
    (seen : List Frame) :
    (pollSeen (recorded write) table (seen, m) p).map (fun r => exchange r.1 r.2) =
      p.bytes.foldlM (Exchange.receive table) (exchange seen m) := by
  have hclock : ∀ (dtMs : Nat) (seen : List Frame) (m : CommMgr C (T × List (List UInt8 × Bool))),
      exchange seen (m.superviseLink dtMs) = exchange seen m := by
    intro dtMs seen m
    unfold superviseLink
    split
    · rfl
    · rfl
  rw [← foldlM_exchange write table 0 m p.bytes seen]
  unfold pollSeen poll dispatches
  change Option.map _ (((p.bytes.foldlM (receive (recorded write) table) (0, m)).bind _).bind _) = _
  cases p.bytes.foldlM (receive (recorded write) table) (0, m) with
  | none => rfl
  | some r => exact congrArg some (hclock p.dtMs _ r.2)

/-- **Chunks do not show.** -/
theorem polls_exchange (m : CommMgr C (T × List (List UInt8 × Bool))) (ps : List Poll)
    (seen : List Frame) :
    (ps.foldlM (pollSeen (recorded write) table) (seen, m)).map (fun r => exchange r.1 r.2) =
      (ps.flatMap Poll.bytes).foldlM (Exchange.receive table) (exchange seen m) := by
  induction ps generalizing m seen with
  | nil => rfl
  | cons p ps ih =>
      have hpoll := poll_exchange write table m p seen
      rw [List.foldlM_cons, List.flatMap_cons, List.foldlM_append, ← hpoll]
      cases pollSeen (recorded write) table (seen, m) p with
      | none => rfl
      | some r => exact ih r.2 r.1

/-- What can be seen is decided by the bytes alone. -/
theorem observe_eq (m : CommMgr C T) (ps : List Poll) :
    m.observe write table ps =
      ((ps.flatMap Poll.bytes).foldlM (Exchange.receive table)
        ⟨m.parser, m.dispatcher, m.context, [], []⟩).map fun e =>
          ⟨e.dispatched, e.written, e.parser.framesOk, e.parser.framesBad⟩ := by
  have hpolls := polls_exchange write table m.recording ps []
  change m.observe write table ps =
    ((ps.flatMap Poll.bytes).foldlM (Exchange.receive table) (exchange [] m.recording)).map _
  rw [← hpolls, Option.map_map]
  unfold observe
  cases ps.foldlM (pollSeen (recorded write) table) ([], m.recording) with
  | none => rfl
  | some r => rfl

/-- **How the bytes are chunked does not matter.** Two managers that agree on what decides a reply
and take the same bytes, each in its own polls and with a transport of its own, dispatch the same
frames, write the same blocks and count the same. -/
theorem observe_eq_of_bytes_eq {T' : Type} (write : List UInt8 → T → Bool × T)
    (write' : List UInt8 → T' → Bool × T') (table : List (CommandEntry C)) (m : CommMgr C T)
    (m' : CommMgr C T') (hparser : m.parser = m'.parser) (hdispatcher : m.dispatcher = m'.dispatcher)
    (hcontext : m.context = m'.context) (ps qs : List Poll)
    (hbytes : ps.flatMap Poll.bytes = qs.flatMap Poll.bytes) :
    m.observe write table ps = m'.observe write' table qs := by
  rw [observe_eq, observe_eq, hparser, hdispatcher, hcontext, hbytes]

/-- A heartbeat in one poll, and in three with one of them empty, over a link that takes nothing. -/
theorem observe_eq_heartbeat :
    let bytes := ({ Frame.new with cmd := Cmd.heartbeat.toUInt8 } : Frame).wire
    (CommMgr.new () .new none).observe (fun _ t => (true, t)) Commands.commandTable
        [⟨20, 64, bytes⟩] =
      (CommMgr.new () .new none).observe (fun _ t => (false, t)) Commands.commandTable
        [⟨5, 2, bytes⟩, ⟨5, 8, []⟩, ⟨9, 3, bytes.drop 2⟩] :=
  observe_eq_of_bytes_eq _ _ _ _ _ rfl rfl rfl _ _ (by decide +kernel)

end CommMgr

end Bcm
