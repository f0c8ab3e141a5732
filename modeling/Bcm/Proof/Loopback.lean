import Bcm.Proof.Chunking
import Bcm.Proof.Requests

/-!
# A line that comes back

Everything a manager sends has the response flag in its command, and a manager that takes in such a
frame does nothing about it. So what goes out may come back in, here or at another unit on the same
line, and nobody answers.
-/

namespace Bcm

/-- Bit 7 of the command is set. -/
def Frame.IsResponse (f : Frame) : Prop := f.cmd &&& kResponseFlag ≠ 0

theorem Frame.isResponse_of_reply {request reply : Frame}
    (h : reply.cmd = request.cmd ||| kResponseFlag) : reply.IsResponse := by
  intro hzero
  rw [h] at hzero
  have hbit := congrArg (fun word : UInt8 => word.toBitVec.getLsbD 7) hzero
  simp [kResponseFlag] at hbit

namespace CommMgr

/-! ### The receiving end -/

section Receiver

variable {C T : Type}

/-- From a frame that is a response nothing follows, whatever the handlers would do. -/
theorem serve_of_response {m : CommMgr C T} (h : m.parser.frame.IsResponse) :
    ∃ m', (∀ write table, m.serve write table = some m') ∧
      m'.transport = m.transport ∧ m'.context = m.context := by
  refine ⟨{ m with
    linkTimer := m.linkTimer.start m.timeoutMs
    linkLost := false
    dispatcher := m.dispatcher.reject }, ?_, rfl, rfl⟩
  intro write table
  have hdropped : m.dispatcher.dispatch table m.parser.frame .new m.context =
      some (false, .new, m.dispatcher.reject, m.context) := if_pos h
  simp only [serve, hdropped, Option.bind_eq_bind, Option.bind_some, Option.pure_def]
  rfl

theorem receive_of_response {m : CommMgr C T} {byte : UInt8}
    (h : ∀ f ∈ m.parser.frames [byte], f.IsResponse) (handled : UInt8) :
    ∃ r : UInt8 × CommMgr C T, (∀ write table, receive write table (handled, m) byte = some r) ∧
      r.2.transport = m.transport ∧ r.2.context = m.context := by
  by_cases hcomplete : (m.parser.feed byte).2 = .complete
  · have hframe : (m.parser.feed byte).1.frame.IsResponse := by
      apply h
      simp only [FrameParser.frames, hcomplete, if_true]
      exact List.mem_singleton_self _
    obtain ⟨m', hserve, htransport, hcontext⟩ :=
      serve_of_response (m := { m with parser := (m.parser.feed byte).1 }) hframe
    refine ⟨(handled + 1, m'), ?_, htransport, hcontext⟩
    intro write table
    unfold receive
    dsimp only
    rw [if_neg (not_not.mpr hcomplete), hserve write table]
    rfl
  · refine ⟨(handled, { m with parser := (m.parser.feed byte).1 }), ?_, rfl, rfl⟩
    intro write table
    exact if_pos hcomplete

theorem foldlM_of_responses {m : CommMgr C T} {bytes : List UInt8}
    (h : ∀ f ∈ m.parser.frames bytes, f.IsResponse) (handled : UInt8) :
    ∃ r : UInt8 × CommMgr C T,
      (∀ write table, bytes.foldlM (receive write table) (handled, m) = some r) ∧
      r.2.transport = m.transport ∧ r.2.context = m.context := by
  induction bytes generalizing m handled with
  | nil => exact ⟨(handled, m), fun _ _ => rfl, rfl, rfl⟩
  | cons byte bytes ih =>
      rw [FrameParser.frames_cons] at h
      obtain ⟨⟨handled₁, m₁⟩, hbyte, htransport, hcontext⟩ :=
        receive_of_response (fun f hf => h f (List.mem_append_left _ hf)) handled
      have hparser : m₁.parser = (m.parser.feed byte).1 :=
        (receive_link (hbyte (fun _ t => (true, t)) [])).1
      rw [← hparser] at h
      obtain ⟨r, hrest, htransport', hcontext'⟩ :=
        ih (fun f hf => h f (List.mem_append_right _ hf)) handled₁
      refine ⟨r, ?_, htransport'.trans htransport, hcontext'.trans hcontext⟩
      intro write table
      rw [List.foldlM_cons, hbyte write table]
      exact hrest write table

theorem superviseLink_other (m : CommMgr C T) (dtMs : Nat) :
    (m.superviseLink dtMs).transport = m.transport ∧
      (m.superviseLink dtMs).context = m.context ∧
      (m.superviseLink dtMs).parser = m.parser := by
  unfold superviseLink
  split
  · exact ⟨rfl, rfl, rfl⟩
  · exact ⟨rfl, rfl, rfl⟩

theorem poll_of_responses {m : CommMgr C T} {p : Poll}
    (h : ∀ f ∈ m.parser.frames p.bytes, f.IsResponse) :
    ∃ m' : CommMgr C T,
      (∀ write table, (·.2) <$> m.poll write table p.dtMs p.budget p.pending = some m') ∧
      m'.transport = m.transport ∧ m'.context = m.context ∧
      m'.parser = m.parser.after p.bytes := by
  obtain ⟨⟨handled, m₁⟩, hbytes, htransport, hcontext⟩ := foldlM_of_responses h 0
  obtain ⟨htransport', hcontext', hparser⟩ := m₁.superviseLink_other p.dtMs
  have htaken := (foldlM_receive (hbytes (fun _ t => (true, t)) [])).1
  refine ⟨m₁.superviseLink p.dtMs, ?_, htransport'.trans htransport, hcontext'.trans hcontext,
    hparser.trans htaken⟩
  intro write table
  have htake : (p.pending.take p.budget).foldlM (receive write table) (0, m) =
      some (handled, m₁) := hbytes write table
  rw [poll, htake]
  rfl

/-- **Responses are overheard.** Polls whose bytes complete only responses come to the same for any
table and any transport, and leave the transport and the handlers' context as they are. -/
theorem polls_of_responses {m : CommMgr C T} {ps : List Poll}
    (h : ∀ f ∈ m.parser.frames (ps.flatMap Poll.bytes), f.IsResponse) :
    ∃ m' : CommMgr C T, (∀ write table, m.polls write table ps = some m') ∧
      m'.transport = m.transport ∧ m'.context = m.context := by
  induction ps generalizing m with
  | nil => exact ⟨m, fun _ _ => rfl, rfl, rfl⟩
  | cons p ps ih =>
      rw [List.flatMap_cons, FrameParser.frames_append] at h
      obtain ⟨m₁, hpoll, htransport, hcontext, hparser⟩ :=
        poll_of_responses (fun f hf => h f (List.mem_append_left _ hf))
      rw [← hparser] at h
      obtain ⟨m', hrest, htransport', hcontext'⟩ :=
        ih (fun f hf => h f (List.mem_append_right _ hf))
      refine ⟨m', ?_, htransport'.trans htransport, hcontext'.trans hcontext⟩
      intro write table
      rw [polls, List.foldlM_cons, hpoll write table]
      exact hrest write table

/-- A table whose handlers all fail: what goes through with it calls none of them. -/
def trapped (table : List (CommandEntry C)) : List (CommandEntry C) :=
  table.map fun entry => { entry with handler := entry.handler.map fun _ _ _ _ => none }

end Receiver

/-! ### The sending end -/

/-- A call from outside: a poll, or the sending of a frame that no request asked for. -/
inductive LinkOp where
  | poll (p : Poll)
  | send (frame : Frame)

def LinkOp.bytes : LinkOp → List UInt8
  | .poll p => p.bytes
  | .send _ => []

section Sender

variable {C T : Type}

def execLink (write : List UInt8 → T → Bool × T) (table : List (CommandEntry C))
    (m : CommMgr C T) : LinkOp → Option (CommMgr C T)
  | .poll p => (·.2) <$> m.poll write table p.dtMs p.budget p.pending
  | .send frame => some (m.send write frame).2

/-- All that has gone out: a block goes out whole or not at all. -/
def tape (m : CommMgr C (T × List (List UInt8 × Bool))) : List UInt8 :=
  (m.transport.2.filter (·.2)).flatMap (·.1)

/-- Every block given to the transport is a response. -/
def OnlyResponses (m : CommMgr C (T × List (List UInt8 × Bool))) : Prop :=
  ∀ block ∈ m.transport.2, ∃ f : Frame, f.IsResponse ∧ f.len ≤ kMaxPayload ∧ block.1 = f.wire

theorem exists_responses {log : List (List UInt8 × Bool)}
    (h : ∀ block ∈ log, ∃ f : Frame, f.IsResponse ∧ f.len ≤ kMaxPayload ∧ block.1 = f.wire) :
    ∃ sent : List Frame, (∀ f ∈ sent, f.IsResponse ∧ f.len ≤ kMaxPayload) ∧
      (log.filter (·.2)).flatMap (·.1) = sent.flatMap Frame.wire := by
  induction log with
  | nil => exact ⟨[], by simp, rfl⟩
  | cons block log ih =>
      obtain ⟨sent, hsent, htape⟩ := ih fun b hb => h b (by simp [hb])
      obtain ⟨f, hresponse, hlen, hblock⟩ := h block (by simp)
      by_cases htaken : block.2 = true
      · refine ⟨f :: sent, ?_, ?_⟩
        · intro g hg
          rcases List.mem_cons.mp hg with rfl | hrest
          · exact ⟨hresponse, hlen⟩
          · exact hsent g hrest
        · rw [List.filter_cons_of_pos htaken, List.flatMap_cons, List.flatMap_cons, htape, hblock]
      · refine ⟨sent, hsent, ?_⟩
        rw [List.filter_cons_of_neg htaken, htape]

theorem send_onlyResponses {m : CommMgr C (T × List (List UInt8 × Bool))} (h : m.OnlyResponses)
    {f : Frame} (hf : f.IsResponse) (write : List UInt8 → T → Bool × T) :
    (m.send (recorded write) f).2.OnlyResponses := by
  unfold send
  cases hencode : f.encode true kMaxFrameSize with
  | none => exact h
  | some bytes =>
      have hlen : f.len ≤ kMaxPayload :=
        ((f.encode_isSome_iff true kMaxFrameSize).mp (by rw [hencode]; rfl)).2.1
      have hwire : bytes = f.wire := by rw [Frame.wire, hencode, Option.getD_some]
      have hlog : ∀ block ∈ m.transport.2 ++ [(bytes, (write bytes m.transport.1).1)],
          ∃ f : Frame, f.IsResponse ∧ f.len ≤ kMaxPayload ∧ block.1 = f.wire := by
        intro block hblock
        rcases List.mem_append.mp hblock with hearlier | hnew
        · exact h block hearlier
        · rw [List.mem_singleton.mp hnew]
          exact ⟨f, hf, hlen, hwire⟩
      unfold recorded
      dsimp only
      split
      · exact hlog
      · exact hlog

end Sender

section Shipped

open Commands

variable {T : Type}

/-- A request that the shipped handlers answer within the payload array. -/
def Answerable (f : Frame) : Prop :=
  f.len ≤ kMaxPayload ∧ ¬(f.cmd = Cmd.ping.toUInt8 ∧ f.len = kMaxPayload)

abbrev Taped (T : Type) : Type :=
  CommMgr (Option CommandContext) (T × List (List UInt8 × Bool))

theorem serve_answerable {m : Taped T} (h : m.OnlyResponses) (hframe : Answerable m.parser.frame)
    (write : List UInt8 → T → Bool × T) :
    ∃ m', m.serve (recorded write) commandTable = some m' ∧ m'.OnlyResponses := by
  by_cases hresponse : m.parser.frame.IsResponse
  · obtain ⟨m', hserve, htransport, -⟩ := serve_of_response hresponse
    refine ⟨m', hserve _ _, ?_⟩
    unfold OnlyResponses
    rw [htransport]
    exact h
  · obtain ⟨response, d, context, hdispatch, hcmd, -⟩ :=
      sends_of_not_full (not_not.mp hresponse) hframe.1 hframe.2 m.dispatcher .new m.context
    have hsent := send_onlyResponses
      (m := { m with
        linkTimer := m.linkTimer.start m.timeoutMs
        linkLost := false
        dispatcher := d
        context := context })
      h (Frame.isResponse_of_reply hcmd) write
    refine ⟨_, ?_, hsent⟩
    unfold serve
    dsimp only
    rw [hdispatch]
    rfl

theorem receive_answerable {m : Taped T} (h : m.OnlyResponses) {byte : UInt8}
    (hframes : ∀ f ∈ m.parser.frames [byte], Answerable f) (handled : UInt8)
    (write : List UInt8 → T → Bool × T) :
    ∃ r : UInt8 × Taped T, receive (recorded write) commandTable (handled, m) byte = some r ∧
      r.2.OnlyResponses := by
  by_cases hcomplete : (m.parser.feed byte).2 = .complete
  · have hframe : Answerable (m.parser.feed byte).1.frame := by
      apply hframes
      simp only [FrameParser.frames, hcomplete, if_true]
      exact List.mem_singleton_self _
    obtain ⟨m', hserve, hm'⟩ :=
      serve_answerable (m := { m with parser := (m.parser.feed byte).1 }) h hframe write
    refine ⟨(handled + 1, m'), ?_, hm'⟩
    unfold receive
    dsimp only
    rw [if_neg (not_not.mpr hcomplete), hserve]
    rfl
  · exact ⟨(handled, { m with parser := (m.parser.feed byte).1 }), if_pos hcomplete, h⟩

theorem foldlM_answerable {m : Taped T} (h : m.OnlyResponses) {bytes : List UInt8}
    (hframes : ∀ f ∈ m.parser.frames bytes, Answerable f) (handled : UInt8)
    (write : List UInt8 → T → Bool × T) :
    ∃ r : UInt8 × Taped T,
      bytes.foldlM (receive (recorded write) commandTable) (handled, m) = some r ∧
      r.2.OnlyResponses := by
  induction bytes generalizing m handled with
  | nil => exact ⟨(handled, m), rfl, h⟩
  | cons byte bytes ih =>
      rw [FrameParser.frames_cons] at hframes
      obtain ⟨⟨handled₁, m₁⟩, hbyte, hm₁⟩ :=
        receive_answerable h (fun f hf => hframes f (List.mem_append_left _ hf)) handled write
      rw [← (receive_link hbyte).1] at hframes
      obtain ⟨r, hrest, hr⟩ :=
        ih hm₁ (fun f hf => hframes f (List.mem_append_right _ hf)) handled₁
      refine ⟨r, ?_, hr⟩
      rw [List.foldlM_cons, hbyte]
      exact hrest

/-- One call: nothing but responses goes out, and the parser has taken the bytes. -/
theorem execLink_answerable {m : Taped T} (h : m.OnlyResponses) {op : LinkOp}
    (hframes : ∀ f ∈ m.parser.frames op.bytes, Answerable f)
    (hsent : ∀ f, op = .send f → f.IsResponse) (write : List UInt8 → T → Bool × T) :
    ∃ m' : Taped T, m.execLink (recorded write) commandTable op = some m' ∧ m'.OnlyResponses ∧
      m'.parser = m.parser.after op.bytes := by
  cases op with
  | poll p =>
      obtain ⟨⟨handled, m₁⟩, hbytes, hm₁⟩ := foldlM_answerable h hframes 0 write
      obtain ⟨htransport, -, hparser⟩ := m₁.superviseLink_other p.dtMs
      have htake : (p.pending.take p.budget).foldlM (receive (recorded write) commandTable) (0, m) =
          some (handled, m₁) := hbytes
      refine ⟨m₁.superviseLink p.dtMs, ?_, ?_, hparser.trans (foldlM_receive hbytes).1⟩
      · rw [execLink, poll, htake]
        rfl
      · unfold OnlyResponses
        rw [htransport]
        exact hm₁
  | send f =>
      exact ⟨_, rfl, send_onlyResponses h (hsent f rfl) write, (send_link m f).1⟩

theorem run_answerable {m : Taped T} (h : m.OnlyResponses) {ops : List LinkOp}
    (hframes : ∀ f ∈ m.parser.frames (ops.flatMap LinkOp.bytes), Answerable f)
    (hsent : ∀ f, .send f ∈ ops → f.IsResponse) (write : List UInt8 → T → Bool × T) :
    ∃ m' : Taped T, ops.foldlM (execLink (recorded write) commandTable) m = some m' ∧
      m'.OnlyResponses := by
  induction ops generalizing m with
  | nil => exact ⟨m, rfl, h⟩
  | cons op ops ih =>
      rw [List.flatMap_cons, FrameParser.frames_append] at hframes
      obtain ⟨m₁, hop, hm₁, hparser⟩ :=
        execLink_answerable h (fun f hf => hframes f (List.mem_append_left _ hf))
          (fun f hf => hsent f (by simp [hf])) write
      rw [← hparser] at hframes
      obtain ⟨m', hrest, hm'⟩ :=
        ih hm₁ (fun f hf => hframes f (List.mem_append_right _ hf))
          fun f hf => hsent f (List.mem_cons_of_mem op hf)
      refine ⟨m', ?_, hm'⟩
      rw [List.foldlM_cons, hop]
      exact hrest

/-- Any hunting manager with the shipped table takes the bytes and writes nothing, and it does the
same with handlers that all fail. -/
def Unanswered (bytes : List UInt8) : Prop :=
  ∀ (T : Type) (write : List UInt8 → T → Bool × T) (m : CommMgr (Option CommandContext) T)
    (ps : List Poll), m.parser.state = .header → ps.flatMap Poll.bytes = bytes →
    ∃ m' : Taped T, m.recording.polls (recorded write) commandTable ps = some m' ∧
      m'.transport = (m.transport, []) ∧
      m.recording.polls (recorded write) (trapped commandTable) ps = some m'

theorem unanswered_responses {sent : List Frame}
    (hsent : ∀ f ∈ sent, f.IsResponse ∧ f.len ≤ kMaxPayload) :
    Unanswered (sent.flatMap Frame.wire) := by
  intro T write m ps hm hbytes
  have hheard : ∀ f ∈ m.recording.parser.frames (ps.flatMap Poll.bytes), f.IsResponse := by
    intro f hf
    rw [hbytes] at hf
    have hcontent := List.mem_map_of_mem (f := Frame.content) hf
    have hdelivered := FrameParser.frames_wires (p := m.recording.parser) hm
      fun f hf => (hsent f hf).2
    rw [hdelivered] at hcontent
    obtain ⟨g, hg, hsame⟩ := List.mem_map.mp hcontent
    have hcmd : g.cmd = f.cmd := congrArg (·.1) hsame
    unfold Frame.IsResponse
    rw [← hcmd]
    exact (hsent g hg).1
  obtain ⟨m', hpolls, htransport, -⟩ := polls_of_responses hheard
  exact ⟨m', hpolls _ _, htransport, hpolls _ _⟩

/-- **No reply storms.** Whatever a hunting manager with the shipped table receives, short of a PING
with a full payload, and whenever it is asked to send its log, nobody answers what it has written. -/
theorem no_reply_storm (write : List UInt8 → T → Bool × T) (m : CommMgr (Option CommandContext) T)
    (hm : m.parser.state = .header) (ops : List LinkOp)
    (hlog : ∀ f, .send f ∈ ops → f.cmd = Cmd.logEvent.toUInt8 ||| kResponseFlag)
    (hping : ∀ f ∈ m.parser.frames (ops.flatMap LinkOp.bytes),
      ¬(f.cmd = Cmd.ping.toUInt8 ∧ f.len = kMaxPayload)) :
    ∃ m' : Taped T,
      ops.foldlM (execLink (recorded write) commandTable) m.recording = some m' ∧
      Unanswered m'.tape := by
  have hframes : ∀ f ∈ m.recording.parser.frames (ops.flatMap LinkOp.bytes), Answerable f :=
    fun f hf => ⟨FrameParser.len_of_mem_frames hm hf, hping f hf⟩
  have hflag : ∀ f, LinkOp.send f ∈ ops → f.IsResponse := by
    intro f hf
    unfold Frame.IsResponse
    rw [hlog f hf]
    decide
  have hstart : m.recording.OnlyResponses := fun block hblock => absurd hblock (by simp [recording])
  obtain ⟨m', hrun, hm'⟩ := run_answerable hstart hframes hflag write
  refine ⟨m', hrun, ?_⟩
  obtain ⟨sent, hsent, htape⟩ := exists_responses hm'
  rw [tape, htape]
  exact unanswered_responses hsent

/-- A PING that carries a whole HEARTBEAT, echoed, and an event of the log. -/
theorem no_reply_storm_echo :
    let event : Frame := ⟨0x8D, 6, Vector.replicate 32 0x55⟩
    let pending := [0xAA, 0x01, 0x05, 0xAA, 0x0C, 0x00, 0xFC, 0x55, 0xD0, 0x55]
    ∃ m' : Taped Unit,
      [.poll ⟨20, 64, pending⟩, .send event].foldlM
          (execLink (recorded fun _ t => (true, t)) commandTable)
          (CommMgr.new () .new none).recording = some m' ∧
        Unanswered m'.tape :=
  no_reply_storm _ _ rfl _ (by simp; rfl) (by decide +kernel)

end Shipped

end CommMgr

end Bcm
