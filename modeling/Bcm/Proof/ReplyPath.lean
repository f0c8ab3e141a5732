import Bcm.Proof.EventFrames
import Bcm.Proof.FirmwareCore

/-!
# From the dispatcher to the desktop tool

A request is answered by one frame, which goes to the line or is counted as a failure. Event frames
go out between the replies. The desktop tool tells the two apart, and so gets the replies in the
order of the requests.
-/

namespace Bcm

namespace Commands

/-- What goes unanswered is a response itself. -/
theorem dispatch_silent {request response answer : Frame} {d d' : Dispatcher}
    {context context' : Option CommandContext} (hlen : request.len ≤ kMaxPayload)
    (h : d.dispatch commandTable request response context = some (false, answer, d', context')) :
    request.cmd &&& kResponseFlag ≠ 0 := by
  intro hplain
  have hnot : ¬(request.cmd = Cmd.ping.toUInt8 ∧ request.len = kMaxPayload) := by
    rintro ⟨hping, hfull⟩
    rw [dispatch_full_ping hping hfull] at h
    exact absurd h (by simp)
  obtain ⟨sent, d'', context'', hsent, -⟩ :=
    sends_of_not_full hplain hlen hnot d response context
  rw [h] at hsent
  exact absurd (congrArg (·.1) (Option.some.inj hsent)) (by simp)

end Commands

namespace Firmware

open Desktop (eventOf)

variable {Q : Type} {M : MessageQueue Q LogRecord} {cfg : Config} {up : PowerUp Q}
  {f f' : Firmware Q}

theorem len_of_complete (hparser : f.parser = FrameParser.new.after f.consumed) {byte : UInt8}
    (hcomplete : (f.parser.feed byte).2 = .complete) :
    (f.parser.feed byte).1.frame.len ≤ kMaxPayload := by
  have hframes := FrameParser.frames_concat .new f.consumed byte
  rw [← hparser, if_pos hcomplete] at hframes
  have hmem : (f.parser.feed byte).1.frame ∈ FrameParser.new.frames (f.consumed ++ [byte]) := by
    rw [hframes]
    exact List.mem_append_right _ (List.mem_singleton_self _)
  exact FrameParser.len_of_mem_frames rfl hmem

/-- What the application does with a request that fits. -/
theorem serve_reply {a a' : BcmApp} {request response : Frame} {reply : Bool}
    (hlen : request.len ≤ kMaxPayload) (h : a.serve request = some (reply, response, a')) :
    if reply then
      request.cmd &&& kResponseFlag = 0 ∧ response.cmd = request.cmd ||| kResponseFlag ∧
        response.len ≤ kMaxPayload ∧ eventOf ⟨response.cmd, response.data⟩ = none
    else request.cmd &&& kResponseFlag ≠ 0 := by
  rw [BcmApp.serve, Option.bind_eq_bind, Option.bind_eq_some_iff] at h
  obtain ⟨⟨reply, response', dispatcher, ctx⟩, hdispatch, hresult⟩ := h
  obtain ⟨rfl, rfl, -⟩ := Option.some.inj hresult
  cases reply with
  | false => exact Commands.dispatch_silent hlen hdispatch
  | true => exact Commands.dispatch_reply hlen hdispatch

/-- The requests among the frames read. -/
def requests (f : Firmware Q) : List Frame :=
  (FrameParser.new.frames f.consumed).filter fun r => decide (r.cmd &&& kResponseFlag = 0)

/-- The frames that are no events. -/
def repliesAmong (frames : List Desktop.Frame) : List Desktop.Frame :=
  frames.filter fun g => (eventOf g).isNone

/-- A request, what the application has answered, and whether the line has taken it. -/
structure Exchange where
  request : Frame
  response : Frame
  sent : Bool

/-- The response, as the desktop tool gets it. -/
def Exchange.reply (e : Exchange) : Desktop.Frame := ⟨e.response.cmd, e.response.data⟩

/-- The request that an action answers. -/
def exchange (f : Firmware Q) : Action → List Exchange
  | .pollByte =>
      match f.line.uart.read.1 with
      | none => []
      | some byte =>
          if (f.parser.feed byte).2 ≠ .complete then []
          else
            match f.app.serve (f.parser.feed byte).1.frame with
            | some (true, response, _) =>
                [⟨(f.parser.feed byte).1.frame, response, (f.line.exec .read).takes response⟩]
            | _ => []
  | _ => []

variable (M cfg) in
/-- The requests that a run answers, in order. -/
def exchanges (f : Firmware Q) (actions : List Action) : List Exchange :=
  PartialRuns.outputs (Firmware.exec M cfg) exchange f actions

/-- There is room for the reply. -/
def RepliesFit (f : Firmware Q) (a : Action) : Prop :=
  ∀ e ∈ f.exchange a, f.line.uart.tx.count + e.response.encodedSize ≤ kTxCapacity

instance (f : Firmware Q) : DecidablePred f.RepliesFit := fun a =>
  inferInstanceAs (Decidable (∀ e ∈ f.exchange a, _))

/-- The application has answered the request so. -/
def IsReply (request : Frame) (reply : Desktop.Frame) : Prop :=
  request.len ≤ kMaxPayload ∧ ∃ a response a', BcmApp.serve a request = some (true, response, a') ∧
    reply = ⟨response.cmd, response.data⟩

theorem IsReply.cmd {request : Frame} {reply : Desktop.Frame} (h : IsReply request reply) :
    reply.cmd = request.cmd ||| kResponseFlag := by
  obtain ⟨hlen, a, response, a', hserve, rfl⟩ := h
  exact (serve_reply hlen hserve).2.1

/-- What has been answered from one state to a later one. -/
structure Exchanged (s f : Firmware Q) (es : List Exchange) : Prop where
  requests : f.requests = s.requests ++ es.map Exchange.request
  replies : repliesAmong f.line.frames =
    repliesAmong s.line.frames ++ (es.filter Exchange.sent).map Exchange.reply
  failures : f.txFailures = s.txFailures + UInt32.ofNat (es.countP fun e => !e.sent)
  isReply : ∀ e ∈ es, IsReply e.request e.reply

theorem Exchanged.none (hrequests : f'.requests = f.requests)
    (hreplies : repliesAmong f'.line.frames = repliesAmong f.line.frames)
    (hfailures : f'.txFailures = f.txFailures) : Exchanged f f' [] where
  requests := hrequests.trans (List.append_nil _).symm
  replies := hreplies.trans (List.append_nil _).symm
  failures := hfailures.trans (UInt32.add_zero _).symm
  isReply _ he := absurd he List.not_mem_nil

theorem Exchanged.trans {s : Firmware Q} {es es' : List Exchange} (h : Exchanged s f es)
    (h' : Exchanged f f' es') : Exchanged s f' (es ++ es') where
  requests := by rw [h'.requests, h.requests, List.map_append, List.append_assoc]
  replies := by
    rw [h'.replies, h.replies, List.filter_append, List.map_append, List.append_assoc]
  failures := by
    rw [h'.failures, h.failures, List.countP_append, UInt32.ofNat_add, UInt32.add_assoc]
  isReply := List.forall_mem_append.mpr ⟨h.isReply, h'.isReply⟩

/-- The byte completes a frame, or it does not. -/
theorem requests_concat (hparser : f.parser = FrameParser.new.after f.consumed) (byte : UInt8)
    (hconsumed : f'.consumed = f.consumed ++ [byte]) :
    f'.requests = f.requests ++
      if (f.parser.feed byte).2 = .complete ∧
          (f.parser.feed byte).1.frame.cmd &&& kResponseFlag = 0 then
        [(f.parser.feed byte).1.frame]
      else [] := by
  have hframes := FrameParser.frames_concat .new f.consumed byte
  rw [← hparser] at hframes
  rw [requests, hconsumed, hframes, List.filter_append]
  congr 1
  by_cases hcomplete : (f.parser.feed byte).2 = .complete
  · by_cases hplain : (f.parser.feed byte).1.frame.cmd &&& kResponseFlag = 0
    · rw [if_pos hcomplete, if_pos ⟨hcomplete, hplain⟩, List.filter_cons_of_pos (by simp [hplain])]
      rfl
    · rw [if_pos hcomplete, if_neg fun hboth => hplain hboth.2,
        List.filter_cons_of_neg (by simp [hplain])]
      rfl
  · rw [if_neg hcomplete, if_neg fun hboth => hcomplete hboth.1]
    rfl

theorem exchanged_pollByte (hready : f.line.Ready)
    (hparser : f.parser = FrameParser.new.after f.consumed) (hpoll : f.pollByte = some f') :
    f'.line.Ready ∧ Exchanged f f' (f.exchange .pollByte) := by
  obtain ⟨hread', hsame⟩ := hready.other .read rfl
  have hframes := congrArg repliesAmong hsame
  unfold exchange
  dsimp only
  cases polled hpoll with
  | idle hread heq =>
      rw [hread, heq]
      exact ⟨hread', .none rfl hframes rfl⟩
  | kept byte hread hmore heq =>
      have hconsumed : f'.consumed = f.consumed ++ [byte] := by rw [heq]; rfl
      have hrequests := requests_concat hparser byte hconsumed
      rw [if_neg fun hboth => hmore hboth.1, List.append_nil] at hrequests
      rw [hread]
      dsimp only
      rw [if_pos hmore]
      rw [heq] at hrequests ⊢
      exact ⟨hread', .none hrequests hframes rfl⟩
  | served byte hread hcomplete reply response app hserve heq =>
      have hreply := serve_reply (len_of_complete hparser hcomplete) hserve
      have hconsumed : f'.consumed = f.consumed ++ [byte] := by
        rw [heq]
        exact (sameLink_answer reply response _).consumed
      have hrequests := requests_concat hparser byte hconsumed
      rw [hread]
      dsimp only
      rw [if_neg (not_not.mpr hcomplete), hserve]
      cases reply with
      | false =>
          rw [if_neg fun hboth => hreply hboth.2, List.append_nil] at hrequests
          rw [heq] at hrequests ⊢
          exact ⟨hread', .none hrequests hframes rfl⟩
      | true =>
          obtain ⟨hplain, -, hfits, hno⟩ := hreply
          rw [if_pos ⟨hcomplete, hplain⟩] at hrequests
          have hsent : f'.line = (f.line.exec .read).send response := by rw [heq]; rfl
          dsimp only
          refine ⟨hsent ▸ hread'.send hfits, hrequests, ?_, ?_, ?_⟩
          · rw [hsent, Line.frames_send hfits, ← hframes, repliesAmong, List.filter_append]
            congr 1
            cases (f.line.exec .read).takes response with
            | true =>
                rw [if_pos rfl, List.filter_cons_of_pos (by rw [hno]; rfl)]
                rfl
            | false => rfl
          · have hfailures : f'.txFailures =
                if (f.line.exec .read).takes response then f.txFailures else f.txFailures + 1 := by
              rw [heq]
              rfl
            rw [hfailures]
            cases (f.line.exec .read).takes response with
            | true => exact (UInt32.add_zero _).symm
            | false => rfl
          · intro e he
            rw [List.mem_singleton.mp he]
            exact ⟨len_of_complete hparser hcomplete, _, response, app, hserve, rfl⟩

theorem exchanged_writeRecord (hready : f.line.Ready) :
    f.writeRecord.line.Ready ∧ Exchanged f f.writeRecord [] := by
  rw [f.writeRecord_eq]
  cases f.held with
  | none => exact ⟨hready, .none rfl rfl rfl⟩
  | some r =>
      have hfits : (logFrame r).len ≤ kMaxPayload := by
        change (6 : UInt8) ≤ kMaxPayload
        decide
      refine ⟨hready.send hfits, .none rfl ?_ rfl⟩
      change repliesAmong (f.line.send (logFrame r)).frames = _
      rw [Line.frames_send hfits, repliesAmong, List.filter_append]
      split
      · rw [List.filter_cons_of_neg (by rw [Desktop.eventOf_logFrame]; exact nofun), List.filter_nil,
          List.append_nil]
        rfl
      · exact List.append_nil _

theorem exchanged_exec (hready : f.line.Ready)
    (hparser : f.parser = FrameParser.new.after f.consumed) {a : Action}
    (hexec : f.exec M cfg a = some f') : f'.line.Ready ∧ Exchanged f f' (f.exchange a) := by
  cases a with
  | pollByte => exact exchanged_pollByte hready hparser hexec
  | cycle pins =>
      obtain ⟨hready', hframes⟩ := hready.other .takeOverrun rfl
      rw [Firmware.exec, Option.ite_none_left_eq_some] at hexec
      rw [← Option.some.inj hexec.2]
      exact ⟨hready', .none rfl (congrArg repliesAmong hframes) rfl⟩
  | pollEnd =>
      obtain ⟨linkTimer, linkLost, hend⟩ := f.pollEnd_eq
      rw [← Option.some.inj hexec, hend]
      exact ⟨hready, .none rfl rfl rfl⟩
  | sample raw | heartbeat =>
      rw [← Option.some.inj hexec]
      exact ⟨hready, .none rfl rfl rfl⟩
  | drain tick =>
      obtain ⟨queue, offered, hdrain⟩ := drain_eq (M := M) f tick
      rw [← Option.some.inj hexec, hdrain]
      exact ⟨hready, .none rfl rfl rfl⟩
  | takeRecord =>
      obtain ⟨held, queue, htake⟩ := takeRecord_eq (M := M) f
      rw [← Option.some.inj hexec, htake]
      exact ⟨hready, .none rfl rfl rfl⟩
  | writeRecord =>
      rw [← Option.some.inj hexec]
      exact exchanged_writeRecord hready
  | irq irq =>
      obtain ⟨hready', hframes⟩ := hready.other (.irq irq) rfl
      rw [← Option.some.inj hexec]
      exact ⟨hready', .none rfl (congrArg repliesAmong hframes) rfl⟩

variable {s : Firmware Q}

theorem ready_of_run {actions : List Action} (h : run M cfg up actions = some f) :
    f.line.Ready :=
  PartialRuns.run_history (I := fun _ s => s.line.Ready) (Line.ready_start up.uart)
    (fun _ _ _ _ hs _ hready hexec => (exchanged_exec hready (reads_of_run hs).parser hexec).1)
    (PartialRuns.along_true _ actions) h

theorem run_from {before after : List Action} (hs : run M cfg up before = some s)
    (h : PartialRuns.run (Firmware.exec M cfg) s after = some f) :
    run M cfg up (before ++ after) = some f := by
  rw [run, PartialRuns.run_append]
  exact Option.bind_eq_some_iff.mpr ⟨s, hs, h⟩

theorem exchanged_since {before after : List Action} (hs : run M cfg up before = some s)
    (h : PartialRuns.run (Firmware.exec M cfg) s after = some f) :
    Exchanged s f (exchanges M cfg s after) := by
  refine PartialRuns.run_history (I := fun ops t => Exchanged s t (exchanges M cfg s ops))
    (.none rfl rfl rfl) (fun ops a t t' ht _ hexchanged hexec => ?_)
    (PartialRuns.along_true _ after) h
  have hrun := run_from hs ht
  rw [exchanges, PartialRuns.outputs_concat ht]
  exact hexchanged.trans
    (exchanged_exec (ready_of_run hrun) (reads_of_run hrun).parser hexec).2

/-- Where there has been room for a reply, the line has taken it. -/
theorem sent_of_fits {before after : List Action} (hs : run M cfg up before = some s)
    (h : PartialRuns.run (Firmware.exec M cfg) s after = some f)
    (hroom : PartialRuns.Along (Firmware.exec M cfg) RepliesFit s after) :
    ∀ e ∈ exchanges M cfg s after, e.sent = true := by
  refine PartialRuns.forall_outputs h hroom fun ops a t ht hfits e he => ?_
  have hrun := run_from hs ht
  have hspace := hfits e he
  cases a with
  | pollByte =>
      unfold exchange at he
      dsimp only at he
      split at he
      case h_1 => exact absurd he List.not_mem_nil
      case h_2 byte hread =>
        by_cases hcomplete : (t.parser.feed byte).2 = .complete
        · rw [if_neg (not_not.mpr hcomplete)] at he
          split at he
          case h_1 response app hserve =>
            rw [List.mem_singleton.mp he] at hspace ⊢
            have hlen := len_of_complete (reads_of_run hrun).parser hcomplete
            have hread' := ((ready_of_run hrun).other .read rfl).1
            refine Line.takes_of_room (serve_reply hlen hserve).2.2.1 hread'.initialised ?_
            have hcount : (t.line.exec .read).uart.tx.count = t.line.uart.tx.count :=
              congrArg RingBuffer.count t.line.uart.read_tx.1
            rw [hcount]
            exact hspace
          case h_2 => exact absurd he List.not_mem_nil
        · rw [if_pos hcomplete] at he
          exact absurd he List.not_mem_nil
  | cycle _ | pollEnd | sample _ | drain _ | heartbeat | takeRecord | writeRecord | irq _ =>
      exact absurd he List.not_mem_nil

/-- The tool gets the replies that were accepted, up to the last that is out whole. -/
theorem repliesAmong_delivers {p : Desktop.FrameParser} (hp : p.state = .header) {line : Line}
    (h : line.Ready) :
    Passed (line.uart.tx.contents = []) (repliesAmong (p.frames line.emitted))
      (repliesAmong line.frames) := by
  have hdelivered := Line.delivers hp h
  exact ⟨hdelivered.sublist.filter _, fun hdone => by rw [hdelivered.all hdone]⟩

/-- What the tool gets of the answers of a run. -/
theorem replies_of_run {p : Desktop.FrameParser} (hp : p.state = .header) {actions : List Action}
    (h : run M cfg up actions = some f) :
    Passed
        (PartialRuns.Along (Firmware.exec M cfg) RepliesFit (start M cfg up) actions ∧
          f.line.uart.tx.contents = [])
        (repliesAmong (p.frames f.line.emitted))
        ((exchanges M cfg (start M cfg up) actions).map Exchange.reply) := by
  have hstart : run M cfg up [] = some (start M cfg up) := rfl
  have hline : repliesAmong f.line.frames =
      ((exchanges M cfg (start M cfg up) actions).filter Exchange.sent).map Exchange.reply :=
    (exchanged_since hstart h).replies
  have hdelivered := repliesAmong_delivers hp (ready_of_run h)
  rw [hline] at hdelivered
  refine (hdelivered.imp And.right).trans ⟨(List.filter_sublist).map _, fun hroom => ?_⟩
  rw [List.filter_eq_self.mpr (sent_of_fits hstart h hroom.1)]

end Firmware

end Bcm
