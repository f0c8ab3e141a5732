import Bcm.Proof.RemoteCalls
import Bcm.Proof.Talk

/-!
# The protocol check against the firmware

The check reads on until it has the reply it waits for, and skips the events that the log sends in
between. So what it sees of the firmware is the replies to its requests, one after the other, and
these are what its rows expect.
-/

namespace Bcm

namespace Commands

theorem copyPayload_congr {read read' : Nat → Option UInt8} {start count : Nat}
    (h : ∀ i, i < count → read i = read' i) (response : Frame) :
    copyPayload read start count response = copyPayload read' start count response := by
  induction count with
  | zero => rfl
  | succ count ih =>
      rw [copyPayload_succ, copyPayload_succ, ih fun i hi => h i (by omega), h count (by omega)]

/-- A PING is answered with its own payload behind the status. -/
theorem handlePing_echoes {request : Frame} (hlen : request.len < kMaxPayload) (response : Frame)
    (context : Option CommandContext) :
    ∃ payload : Vector UInt8 32, handlePing request response context =
        some (true, { response with len := 1 + request.len, payload := payload }, context) ∧
      payload.toList.take (1 + request.len).toNat =
        response.payload.toList.take 1 ++ request.data := by
  have hbound : request.len.toNat < 32 := UInt8.lt_iff_toNat_lt.mp hlen
  have hdata : request.data.length = request.len.toNat := Frame.length_data (UInt8.le_of_lt hlen)
  have hadd : (1 + request.len).toNat = 1 + request.len.toNat := by
    rw [UInt8.toNat_add]
    exact Nat.mod_eq_of_lt (by change 1 + request.len.toNat < 256; omega)
  have hread : ∀ i, i < request.len.toNat → request.read i = request.data[i]? := by
    intro i hi
    rw [Frame.read, Frame.data, List.getElem?_take_of_lt hi]
    exact Vector.getElem?_toList.symm
  have hsame : copyPayload request.read 1 request.len.toNat { response with len := 1 + request.len } =
      copyPayload (request.data[·]?) 1 request.data.length
        { response with len := 1 + request.len } := by
    rw [hdata]
    exact copyPayload_congr hread _
  have hroom : 1 + request.data.length ≤ 32 := by omega
  obtain ⟨payload, hcopy, htake⟩ :=
    copyPayload_list request.data hroom { response with len := 1 + request.len }
  refine ⟨payload, ?_, ?_⟩
  · rw [handlePing, hsame, hcopy]
    rfl
  · rw [hadd, ← hdata]
    exact htake

end Commands

namespace Firmware

theorem IsReply.dispatched {request : Frame} {reply : Desktop.Frame} (h : IsReply request reply) :
    ∃ (d d' : Dispatcher) (context context' : Option CommandContext) (response : Frame),
      d.dispatch Commands.commandTable request .new context =
        some (true, response, d', context') ∧ reply = ⟨response.cmd, response.data⟩ := by
  obtain ⟨-, a, response, a', hserve, hreply⟩ := h
  rw [BcmApp.serve, Option.bind_eq_bind, Option.bind_eq_some_iff] at hserve
  obtain ⟨⟨answers, answer, d', context'⟩, hdispatch, hresult⟩ := hserve
  obtain ⟨rfl, rfl, -⟩ := Option.some.inj hresult
  exact ⟨_, _, _, _, _, hdispatch, hreply⟩

/-- What the dispatcher refuses is answered with the status alone. -/
theorem IsReply.payload_of_refused {request : Frame} {reply : Desktop.Frame}
    (h : IsReply request reply) {status : Status}
    (hrefused : ∀ (d : Dispatcher) context,
      d.dispatch Commands.commandTable request .new context =
        some (true, makeStatusResponse request.cmd status, d.reject, context)) :
    reply.payload = [status.toUInt8] := by
  obtain ⟨d, d', context, context', response, hdispatch, rfl⟩ := h.dispatched
  rw [hrefused] at hdispatch
  obtain rfl : makeStatusResponse request.cmd status = response :=
    congrArg (·.2.1) (Option.some.inj hdispatch)
  rfl

theorem IsReply.payload_of_ping {request : Frame} {reply : Desktop.Frame}
    (h : IsReply request reply) (hping : request.cmd = Cmd.ping.toUInt8)
    (hlen : request.len < kMaxPayload) :
    reply.payload = Status.ok.toUInt8 :: request.data := by
  obtain ⟨d, d', context, context', response, hdispatch, rfl⟩ := h.dispatched
  obtain ⟨payload, hhandler, htake⟩ :=
    Commands.handlePing_echoes hlen (makeStatusResponse request.cmd .ok) context
  have hfind : Dispatcher.find Commands.commandTable request.cmd =
      some ⟨Cmd.ping.toUInt8, some Commands.handlePing, 0⟩ := by
    rw [hping]
    rfl
  have hplain : ¬request.cmd &&& kResponseFlag ≠ 0 := by
    rw [hping]
    decide
  have hlong : ¬request.len < 0 := UInt8.not_lt.mpr UInt8.zero_le
  rw [Dispatcher.dispatch, if_neg hplain, hfind] at hdispatch
  dsimp only at hdispatch
  rw [if_neg hlong, hhandler] at hdispatch
  obtain rfl : { makeStatusResponse request.cmd .ok with
      len := 1 + request.len, payload := payload } = response :=
    congrArg (·.2.1) (Option.some.inj hdispatch)
  exact htake

end Firmware

namespace Talk

/-! ### Reading frames -/

theorem follows_hunting {r : Reader} {p : Desktop.FrameParser} (hp : p.state = .header) :
    Follows r p ↔ r.state = .hdr := by
  rw [Follows, hp]

variable {expected : UInt8}

theorem quiet_replicate (expectCmd : Option UInt8) (n : Nat) :
    ∀ answer ∈ List.replicate n ((.needMore, none) : FrameParser.Answer), Quiet expectCmd answer := by
  intro answer hanswer
  obtain ⟨-, rfl⟩ := List.mem_replicate.mp hanswer
  exact ⟨by decide, rfl⟩

/-- A frame that is not waited for is passed over. -/
theorem read_other {r : Reader} (hr : r.state = .hdr) {f : Frame} (hlen : f.len ≤ kMaxPayload)
    (hother : f.cmd ≠ expected) :
    ∃ r' : Reader, r'.state = .hdr ∧
      ∀ rest, r.read (some expected) (f.wire ++ rest) = r'.read (some expected) rest := by
  have hanswers := answers_eq f.wire
  rw [(FrameParser.answers_wire rfl hlen).2] at hanswers
  have hquiet : ∀ answer ∈ Desktop.FrameParser.new.answers f.wire,
      Quiet (some expected) answer := by
    rw [hanswers]
    intro answer hanswer
    rcases List.mem_append.mp hanswer with hmore | hlast
    · exact quiet_replicate (some expected) _ answer hmore
    · rw [List.mem_singleton.mp hlast]
      exact ⟨nofun, if_neg (by simpa using hother)⟩
  have hfollows : Follows r .new := (follows_hunting rfl).mpr hr
  obtain ⟨r', hfollows', hread⟩ := read_append hfollows hquiet
  have hhunting := Desktop.FrameParser.hunting_after_wire (p := .new) rfl hlen
  exact ⟨r', (follows_hunting hhunting).mp hfollows', hread⟩

theorem read_others {r : Reader} (hr : r.state = .hdr) {frames : List Frame}
    (hlens : ∀ f ∈ frames, f.len ≤ kMaxPayload) (hothers : ∀ f ∈ frames, f.cmd ≠ expected) :
    ∃ r' : Reader, r'.state = .hdr ∧ ∀ rest,
      r.read (some expected) (frames.flatMap Frame.wire ++ rest) =
        r'.read (some expected) rest := by
  induction frames generalizing r with
  | nil => exact ⟨r, hr, fun _ => rfl⟩
  | cons f frames ih =>
      obtain ⟨hlen, hlens⟩ := List.forall_mem_cons.mp hlens
      obtain ⟨hother, hothers⟩ := List.forall_mem_cons.mp hothers
      obtain ⟨r', hr', hread⟩ := read_other hr hlen hother
      obtain ⟨r'', hr'', hreads⟩ := ih hr' hlens hothers
      refine ⟨r'', hr'', fun rest => ?_⟩
      rw [List.flatMap_cons, List.append_assoc, hread, hreads]

/-- The frame that is waited for is returned. -/
theorem read_expected {r : Reader} (hr : r.state = .hdr) {f : Frame} (hlen : f.len ≤ kMaxPayload)
    (hexpected : f.cmd = expected) (rest : List UInt8) :
    r.read (some expected) (f.wire ++ rest) = (.ok f.cmd f.len f.data, rest) := by
  obtain ⟨front, b, hsplit⟩ : ∃ front b, f.wire = front ++ [b] := by
    rw [Frame.wire_eq hlen]
    exact ⟨kFrameHeader :: f.cmd :: f.len :: f.data ++ [f.checksum], kFrameFooter, by simp⟩
  have hanswers := (FrameParser.answers_wire (p := .new) rfl hlen).2
  rw [hsplit, FrameParser.answers, Transducer.outputs_append] at hanswers
  obtain ⟨hfront, hlast⟩ := List.append_inj' hanswers rfl
  have hquiet : ∀ answer ∈ Desktop.FrameParser.new.answers front,
      Quiet (some expected) answer := by
    rw [answers_eq, FrameParser.answers, hfront]
    exact quiet_replicate (some expected) _
  have hends : ends (some expected) ((Desktop.FrameParser.new.after front).receive b).2 =
      some (.ok f.cmd f.len f.data) := by
    have hcomplete : ((FrameParser.new.after front).receive b).2 = (.complete, some f.content) :=
      List.singleton_inj.mp hlast
    rw [answer_eq, hcomplete]
    exact if_pos (by simpa using hexpected)
  have hfollows : Follows r .new := (follows_hunting rfl).mpr hr
  rw [hsplit, List.append_assoc]
  exact read_ends hfollows hquiet hends rest

/-! ### The checks -/

/-- The reply that a check waits for, and that it lets pass. -/
structure Accepts (c : Check) (reply : Desktop.Frame) : Prop where
  cmd : reply.cmd = c.cmd ||| 0x80
  valid : c.validate reply.payload = none

theorem invokeCheck_accepts {c : Check} {others : List Frame} {f : Frame}
    (hlens : ∀ g ∈ others, g.len ≤ kMaxPayload) (hlen : f.len ≤ kMaxPayload)
    (hothers : ∀ g ∈ others, g.cmd ≠ c.cmd ||| 0x80) (hf : Accepts c ⟨f.cmd, f.data⟩)
    (rest : List UInt8) :
    invokeCheck c (others.flatMap Frame.wire ++ (f.wire ++ rest)) = (none, rest) := by
  obtain ⟨r, hr, hskip⟩ := read_others (r := .new) rfl hlens hothers
  have hread : readBcmFrame (some (c.cmd ||| 0x80))
      (others.flatMap Frame.wire ++ (f.wire ++ rest)) = (.ok f.cmd f.len f.data, rest) :=
    (hskip _).trans (read_expected hr hlen hf.cmd rest)
  have hcmd : f.cmd = c.cmd ||| 0x80 := hf.cmd
  have hvalid : c.validate f.data = none := hf.valid
  rw [invokeCheck, hread]
  dsimp only
  rw [if_neg (not_not.mpr hcmd), hvalid]

/-- A frame, as the desktop tool has it. -/
def toDesktop (f : Frame) : Desktop.Frame := ⟨f.cmd, f.data⟩

theorem cmd_of_event {f : Desktop.Frame} (h : (Desktop.eventOf f).isSome) :
    f.cmd = Desktop.logEventCmd := by
  by_contra hother
  rw [Desktop.eventOf_of_ne hother] at h
  exact absurd h (by simp)

/-- Events apart, the frames are what the checks wait for. -/
theorem runChecks_accepts {checks : List Check} {frames : List Frame}
    (hchecks : ∀ c ∈ checks, c.cmd ||| 0x80 ≠ Desktop.logEventCmd)
    (hlens : ∀ f ∈ frames, f.len ≤ kMaxPayload)
    (haccepts : List.Forall₂ Accepts checks (Firmware.repliesAmong (frames.map toDesktop)))
    (pass fail : Nat) :
    runChecks pass fail checks (frames.flatMap Frame.wire) = (pass + checks.length, fail) := by
  induction checks generalizing frames pass with
  | nil => rfl
  | cons c checks ih =>
      obtain ⟨hevent, hchecks⟩ := List.forall_mem_cons.mp hchecks
      rw [Firmware.repliesAmong, List.filter_map, List.forall₂_map_right_iff,
        List.forall₂_cons_left_iff] at haccepts
      obtain ⟨f, later, hf, hlater, hsplit⟩ := haccepts
      obtain ⟨others, back, rfl, hothers, -, rfl⟩ := List.filter_eq_cons_iff.mp hsplit
      rw [List.forall_mem_append, List.forall_mem_cons] at hlens
      obtain ⟨hbefore, hlen, hback⟩ := hlens
      have hskipped : ∀ g ∈ others, g.cmd ≠ c.cmd ||| 0x80 := by
        intro g hg
        have hsome : (Desktop.eventOf (toDesktop g)).isSome := by
          simpa [Option.isSome_iff_ne_none] using hothers g hg
        have hcmd : g.cmd = Desktop.logEventCmd := cmd_of_event hsome
        rw [hcmd]
        exact Ne.symm hevent
      have hrest : List.Forall₂ Accepts checks (Firmware.repliesAmong (back.map toDesktop)) := by
        rw [Firmware.repliesAmong, List.filter_map, List.forall₂_map_right_iff]
        exact hlater
      rw [List.flatMap_append, List.flatMap_cons, runChecks,
        invokeCheck_accepts hbefore hlen hskipped hf]
      dsimp only
      rw [ih hchecks hback hrest, List.length_cons, Nat.add_assoc, Nat.add_comm 1]

/-- What the application answers to the check's requests is what the check expects. -/
theorem accepts_of_reply {c : Check} (hc : c ∈ checks) {request : Frame} {reply : Desktop.Frame}
    (hreply : Firmware.IsReply request reply)
    (hrequest : request.content = Desktop.Frame.content ⟨c.cmd, c.payload⟩) : Accepts c reply := by
  have hcmd : request.cmd = c.cmd := congrArg (·.1) hrequest
  have hlen : request.len = UInt8.ofNat c.payload.length := congrArg (·.2.1) hrequest
  have hdata : request.data = c.payload := congrArg (·.2.2) hrequest
  refine ⟨by rw [hreply.cmd, hcmd]; rfl, ?_⟩
  simp only [checks, List.mem_cons, List.not_mem_nil, or_false] at hc
  rcases hc with rfl | rfl | rfl | rfl | rfl | rfl
  · rw [hreply.payload_of_ping hcmd (by rw [hlen]; decide), hdata]
    decide
  · rfl
  · rfl
  · rfl
  · -- no row of the table has the command
    have hrefused : ∀ (d : Dispatcher) context,
        d.dispatch Commands.commandTable request .new context =
          some (true, makeStatusResponse request.cmd .unknownCmd, d.reject, context) := by
      intro d context
      have hplain : ¬request.cmd &&& kResponseFlag ≠ 0 := by
        rw [hcmd]
        decide
      have hfind : Dispatcher.find Commands.commandTable request.cmd = none := by
        rw [hcmd]
        rfl
      rw [Dispatcher.dispatch, if_neg hplain, hfind]
    rw [hreply.payload_of_refused hrefused]
    decide
  · -- a SET_LAMP has two bytes
    have hrefused : ∀ (d : Dispatcher) context,
        d.dispatch Commands.commandTable request .new context =
          some (true, makeStatusResponse request.cmd .badLength, d.reject, context) := by
      intro d context
      have hplain : ¬request.cmd &&& kResponseFlag ≠ 0 := by
        rw [hcmd]
        decide
      have hfind : Dispatcher.find Commands.commandTable request.cmd =
          some ⟨Cmd.setLamp.toUInt8, some Commands.handleSetLamp, 2⟩ := by
        rw [hcmd]
        rfl
      have hshort : request.len < 2 := by
        rw [hlen]
        decide
      rw [Dispatcher.dispatch, if_neg hplain, hfind]
      exact if_pos hshort
    rw [hreply.payload_of_refused hrefused]
    decide

theorem checks_fit : ∀ c ∈ checks, c.payload.length ≤ kMaxPayload.toNat := by
  decide

theorem checks_plain : ∀ c ∈ checks, c.cmd &&& kResponseFlag = 0 := by
  decide

theorem accepts_of_replies {rows : List Check} (hrows : ∀ c ∈ rows, c ∈ checks)
    {requests : List Frame} {replies : List Desktop.Frame}
    (hrequests : requests.map Frame.content =
      rows.map fun c => Desktop.Frame.content ⟨c.cmd, c.payload⟩)
    (hreplies : List.Forall₂ Firmware.IsReply requests replies) :
    List.Forall₂ Accepts rows replies := by
  induction hreplies generalizing rows with
  | nil =>
      rw [List.map_nil, eq_comm, List.map_eq_nil_iff] at hrequests
      rw [hrequests]
      exact .nil
  | cons hreply _ ih =>
      cases rows with
      | nil => exact absurd hrequests (by simp)
      | cons c rows =>
          rw [List.map_cons, List.map_cons, List.cons.injEq] at hrequests
          obtain ⟨hc, hrows⟩ := List.forall_mem_cons.mp hrows
          exact .cons (accepts_of_reply hc hreply hrequests.1) (ih hrows hrequests.2)

end Talk

/-! ### The line since the port was opened -/

namespace Line

theorem Framed.exists_frames {line : Line} (h : line.Framed) :
    ∃ frames : List Frame, line.accepted = frames.map Frame.wire ∧
      ∀ f ∈ frames, f.len ≤ kMaxPayload := by
  unfold Framed at h
  generalize line.accepted = blocks at h
  induction blocks with
  | nil => exact ⟨[], rfl, fun _ hf => absurd hf List.not_mem_nil⟩
  | cons block blocks ih =>
      obtain ⟨hblock, hblocks⟩ := List.forall_mem_cons.mp h
      obtain ⟨f, hlen, rfl⟩ := hblock
      obtain ⟨frames, hframes, hlens⟩ := ih hblocks
      exact ⟨f :: frames, by rw [hframes, List.map_cons], List.forall_mem_cons.mpr ⟨hlen, hlens⟩⟩

theorem accepted_exec (line : Line) (op : UartOp) :
    line.accepted <+: (line.exec op).accepted := by
  cases op with
  | write data =>
      change line.accepted <+: if (line.uart.write data).1 then line.accepted ++ data.toList
        else line.accepted
      split
      · exact List.prefix_append _ _
      · exact List.prefix_rfl
  | irq irq | read | takeOverrun => exact List.prefix_rfl

theorem accepted_run (line : Line) (ops : List UartOp) :
    line.accepted <+: (Runs.run exec line ops).accepted := by
  induction ops generalizing line with
  | nil => exact List.prefix_rfl
  | cons op ops ih => exact (accepted_exec line op).trans (ih _)

/-- What has gone out between two idle states is the frames accepted in between. -/
theorem sent_between {line line' : Line} (hready : line'.Ready) (hsound : line.Sound)
    (hidle : line.uart.tx.contents = []) (hidle' : line'.uart.tx.contents = [])
    (haccepted : line.accepted <+: line'.accepted) :
    ∃ frames : List Frame, (∀ f ∈ frames, f.len ≤ kMaxPayload) ∧
      line'.emitted.drop line.emitted.length = frames.flatMap Frame.wire ∧
      line'.frames = line.frames ++ frames.map Talk.toDesktop := by
  obtain ⟨blocks, hblocks⟩ := haccepted
  have hframed : Framed { line' with accepted := blocks } := by
    intro block hblock
    refine hready.framed block ?_
    rw [← hblocks]
    exact List.mem_append_right _ hblock
  obtain ⟨frames, hframes, hlens⟩ := hframed.exists_frames
  change blocks = frames.map Frame.wire at hframes
  have hbefore := hsound.bytes
  have hafter := hready.sound.bytes
  rw [hidle, List.append_nil] at hbefore
  rw [hidle', List.append_nil, ← hblocks, List.flatten_append, ← hbefore] at hafter
  refine ⟨frames, hlens, ?_, ?_⟩
  · rw [hafter, List.drop_left, hframes]
    rfl
  · rw [Line.frames, ← hblocks, List.flatMap_append, hframes, List.flatMap_map]
    congr 1
    clear hframes
    induction frames with
    | nil => rfl
    | cons f frames ih =>
        obtain ⟨hlen, hlens⟩ := List.forall_mem_cons.mp hlens
        rw [List.flatMap_cons, List.map_cons, Desktop.FrameParser.frames_wire rfl hlen, ih hlens]
        rfl

end Line

namespace Firmware

open Talk (checks runChecks)

variable {Q : Type} {M : MessageQueue Q LogRecord} {cfg : Config} {up : PowerUp Q}

theorem accepted_since {s f : Firmware Q} {after : List Action}
    (h : PartialRuns.run (exec M cfg) s after = some f) : s.line.accepted <+: f.line.accepted := by
  refine PartialRuns.run_invariant (I := fun t => s.line.accepted <+: t.line.accepted)
    List.prefix_rfl (fun t a t' ht hexec => ?_) h
  obtain ⟨ops, hops⟩ := line_exec hexec
  rw [hops]
  exact ht.trans (Line.accepted_run t.line ops)

/-- The requests of the checks, as they are read. -/
theorem requests_of_checks {s f : Firmware Q} (hparser : s.parser = FrameParser.new.after s.consumed)
    (hhunting : s.parser.state = .header)
    (hread : f.consumed = s.consumed ++ checks.flatMap fun c => c.frame.getD []) :
    ∃ requests, f.requests = s.requests ++ requests ∧
      requests.map Frame.content = checks.map fun c => Desktop.Frame.content ⟨c.cmd, c.payload⟩ := by
  have hcalls : ∀ call ∈ checks.map fun c => (⟨c.cmd, c.payload⟩ : Desktop.Frame),
      call.payload.length ≤ kMaxPayload.toNat := by decide
  obtain ⟨sent, hfits, hwires, hcontents⟩ := Desktop.exists_wires hcalls
  have hbytes : (checks.flatMap fun c => c.frame.getD []) = sent.flatMap Frame.wire := by
    rw [hwires, List.flatMap_map]
    refine List.flatMap_congr fun c hc => ?_
    exact congrArg (·.getD []) (Talk.newBcmFrame_eq c.cmd (Talk.checks_fit c hc))
  have hframes := FrameParser.frames_wires hhunting hfits
  rw [hcontents, List.map_map] at hframes
  refine ⟨s.parser.frames (sent.flatMap Frame.wire), ?_, hframes⟩
  rw [requests, hread, hbytes, FrameParser.frames_append, List.filter_append, ← hparser]
  congr 1
  refine List.filter_eq_self.mpr fun r hr => ?_
  have hmem := List.mem_map_of_mem (f := Frame.content) hr
  rw [hframes, List.mem_map] at hmem
  obtain ⟨c, hc, hcontent⟩ := hmem
  have hcmd : c.cmd = r.cmd := congrArg (·.1) hcontent
  rw [← hcmd]
  exact decide_eq_true (Talk.checks_plain c hc)

/-- **The protocol check passes.** The port is opened at a time when nothing is on the line. In any
interleaving of the tasks from then on, with whatever events the log sends in between: if the bytes
that have been read are what the checks write, there has been room for the replies, and everything
has gone out, then all checks pass on what has come in. -/
theorem checks_pass {before after : List Action} {s f : Firmware Q}
    (hs : run M cfg up before = some s)
    (hf : PartialRuns.run (exec M cfg) s after = some f)
    (hidle : s.line.uart.tx.contents = []) (hhunting : s.parser.state = .header)
    (hread : f.consumed = s.consumed ++ checks.flatMap fun c => c.frame.getD [])
    (hroom : PartialRuns.Along (exec M cfg) RepliesFit s after)
    (hsent : f.line.uart.tx.contents = []) :
    runChecks 0 0 checks (f.line.emitted.drop s.line.emitted.length) = (checks.length, 0) := by
  have hexchanged := exchanged_since hs hf
  obtain ⟨frames, hlens, hbytes, hframes⟩ := Line.sent_between (ready_of_run (run_from hs hf))
    (ready_of_run hs).sound hidle hsent (accepted_since hf)
  obtain ⟨asked, hasked, hcontents⟩ :=
    requests_of_checks (reads_of_run hs).parser hhunting hread
  have hrequests : asked = (exchanges M cfg s after).map Exchange.request :=
    List.append_cancel_left (hasked.symm.trans hexchanged.requests)
  have hsince : Firmware.repliesAmong (frames.map Talk.toDesktop) =
      (exchanges M cfg s after).map Exchange.reply := by
    have hreplies := hexchanged.replies
    rw [hframes, repliesAmong, List.filter_append,
      List.filter_eq_self.mpr (sent_of_fits hs hf hroom)] at hreplies
    exact List.append_cancel_left hreplies
  have hanswered : List.Forall₂ IsReply asked ((exchanges M cfg s after).map Exchange.reply) := by
    rw [hrequests, List.forall₂_map_left_iff, List.forall₂_map_right_iff, List.forall₂_same]
    exact hexchanged.isReply
  rw [hbytes]
  have haccepts := Talk.accepts_of_replies (fun _ hc => hc) hcontents hanswered
  rw [← hsince] at haccepts
  rw [Talk.runChecks_accepts (by decide) hlens haccepts, Nat.zero_add]

/-- The bytes of the checks as they come in, the verdict of the self test, and what goes out. -/
def checkedActions : List Action :=
  arrivals (checks.flatMap fun c => c.frame.getD []) ++ [.takeRecord, .writeRecord] ++
    List.replicate 58 (.irq ⟨none, true, false⟩)

theorem checks_pass_started :
    ∃ f, run (MessageQueue.plain LogRecord kLogQueueLength) .shipped .quiet checkedActions =
        some f ∧ runChecks 0 0 checks f.line.emitted = (checks.length, 0) := by
  have hruns : (run (MessageQueue.plain LogRecord kLogQueueLength) .shipped .quiet
      checkedActions).any (fun f =>
        decide (f.consumed = checks.flatMap fun c => c.frame.getD []) &&
          decide (f.line.uart.tx.contents = [])) = true := by decide +kernel
  obtain ⟨f, hf, hdone⟩ := (Option.any_eq_true _ _).mp hruns
  obtain ⟨hread, hsent⟩ := Bool.and_eq_true_iff.mp hdone
  have hroom : PartialRuns.Along
      (exec (MessageQueue.plain LogRecord kLogQueueLength) .shipped) RepliesFit
      (start (MessageQueue.plain LogRecord kLogQueueLength) .shipped .quiet) checkedActions := by
    decide +kernel
  have hstart : run (MessageQueue.plain LogRecord kLogQueueLength) .shipped .quiet [] =
      some (start (MessageQueue.plain LogRecord kLogQueueLength) .shipped .quiet) := rfl
  exact ⟨f, hf, checks_pass hstart hf rfl rfl (of_decide_eq_true hread) hroom
    (of_decide_eq_true hsent)⟩

end Firmware

end Bcm
