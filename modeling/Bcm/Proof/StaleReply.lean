import Bcm.DesktopClient
import Bcm.Lib.Runs
import Bcm.Proof.Requests

/-!
# Late replies

The client knows a reply by its command id and by nothing else. What it keeps of an earlier request
of the same command, or what is still under way for it, is as good an answer as the right one. While
no request is made in that situation every frame returned is the reply to its own request, and one
request made in it can be answered with the reply to an earlier one.
-/

namespace Bcm.Desktop.Session

/-- The frames the client has yet to look at: those it keeps and those on their way. -/
def replies (s : Session) : List Reply := s.client.responses ++ s.inbound

/-- Every frame returned is the reply to the request it was returned for. -/
def Truthful (s : Session) : Prop := ∀ p ∈ s.client.returned, p.2.answers = some p.1

instance (s : Session) : Decidable s.Truthful :=
  inferInstanceAs (Decidable (∀ p ∈ s.client.returned, p.2.answers = some p.1))

/-! ### What an action can do -/

/-- What the actions that put no request on the link have in common. -/
structure Follows (s s' : Session) : Prop where
  replies : ∀ r ∈ s'.replies, r ∈ s.replies ∨
    (∃ q ∈ s.outbound, ∃ payload, q.reply payload = some r) ∨
    (r.frame.cmd = logEventCmd ∧ r.answers = none)
  received : ∀ r ∈ s'.client.responses, r ∈ s.client.responses ∨ r.frame.cmd ≠ logEventCmd
  outbound : s'.outbound ⊆ s.outbound
  calls : s.client.calls ≤ s'.client.calls
  awaiting : s'.client.awaiting = s.client.awaiting ∨ s'.client.awaiting = none
  returned : s'.client.returned = s.client.returned ∨ ∃ call candidate,
    s.client.awaiting = some (call, candidate.frame.cmd) ∧ candidate ∈ s.client.responses ∧
      s'.client.returned = s.client.returned ++ [(call, candidate)]

/-- An action that leaves the client alone, with nothing new on the link. -/
theorem Follows.of_link {s s' : Session} (hclient : s'.client = s.client)
    (hinbound : s'.inbound ⊆ s.inbound) (houtbound : s'.outbound ⊆ s.outbound) :
    Follows s s' := by
  refine ⟨fun r hr => Or.inl ?_, fun r hr => Or.inl ?_, houtbound, ?_, Or.inl ?_, Or.inl ?_⟩
  · rw [Session.replies, hclient, List.mem_append] at hr
    exact List.mem_append.mpr (hr.imp_right fun h => hinbound h)
  · rwa [hclient] at hr
  · rw [hclient]
  · rw [hclient]
  · rw [hclient]

theorem follows_tryTake (s : Session) : Follows s (s.exec .tryTake) := by
  unfold exec BcmClient.tryTake
  dsimp only
  split
  case h_1 call expected candidate rest hawaiting hresponses =>
    have hsub : rest ⊆ s.client.responses := by
      rw [hresponses]
      exact List.subset_cons_self candidate rest
    have hreplies : ∀ r ∈ rest ++ s.inbound, r ∈ s.replies := fun r hr =>
      List.mem_append.mpr ((List.mem_append.mp hr).imp_left fun h => hsub h)
    have hcandidate : candidate ∈ s.client.responses := by
      rw [hresponses]
      exact List.mem_cons_self
    split
    case isTrue hmatch =>
      exact ⟨fun r hr => Or.inl (hreplies r hr), fun r hr => Or.inl (hsub hr),
        List.Subset.refl _, Nat.le_refl _, Or.inr rfl,
        Or.inr ⟨call, candidate, by rw [hmatch, hawaiting], hcandidate, rfl⟩⟩
    case isFalse =>
      exact ⟨fun r hr => Or.inl (hreplies r hr), fun r hr => Or.inl (hsub hr),
        List.Subset.refl _, Nat.le_refl _, Or.inl rfl, Or.inl rfl⟩
  case h_2 => exact Follows.of_link rfl (List.Subset.refl _) (List.Subset.refl _)

theorem follows_serve (s : Session) (payload : List UInt8) :
    Follows s (s.exec (.serve payload)) := by
  unfold exec
  dsimp only
  split
  case h_1 => exact Follows.of_link rfl (List.Subset.refl _) (List.Subset.refl _)
  case h_2 request rest houtbound =>
    have hrequest : request ∈ s.outbound := by
      rw [houtbound]
      exact List.mem_cons_self
    refine ⟨fun r hr => ?_, fun r hr => Or.inl hr, ?_, Nat.le_refl _, Or.inl rfl, Or.inl rfl⟩
    · rw [Session.replies, List.mem_append, List.mem_append, Option.mem_toList] at hr
      rcases hr with hresponse | hinbound | hanswer
      · exact Or.inl (List.mem_append_left _ hresponse)
      · exact Or.inl (List.mem_append_right _ hinbound)
      · exact Or.inr (Or.inl ⟨request, hrequest, payload, hanswer⟩)
    · rw [houtbound]
      exact List.subset_cons_self request rest

theorem follows_logEvent (s : Session) (payload : List UInt8) :
    Follows s (s.exec (.logEvent payload)) := by
  refine ⟨fun r hr => ?_, fun r hr => Or.inl hr, List.Subset.refl _, Nat.le_refl _, Or.inl rfl,
    Or.inl rfl⟩
  rw [Session.replies, exec, List.mem_append, List.mem_append, List.mem_singleton] at hr
  rcases hr with hresponse | hinbound | rfl
  · exact Or.inl (List.mem_append_left _ hresponse)
  · exact Or.inl (List.mem_append_right _ hinbound)
  · exact Or.inr (Or.inr ⟨rfl, rfl⟩)

theorem follows_deliver (s : Session) : Follows s (s.exec .deliver) := by
  unfold exec BcmClient.readFrame
  dsimp only
  split
  case h_1 => exact Follows.of_link rfl (List.Subset.refl _) (List.Subset.refl _)
  case h_2 reply rest hinbound =>
    split
    case isTrue =>
      refine Follows.of_link rfl ?_ (List.Subset.refl _)
      rw [hinbound]
      exact List.subset_cons_self reply rest
    case isFalse hreply =>
      refine ⟨fun r hr => Or.inl ?_, fun r hr => ?_, List.Subset.refl _, Nat.le_refl _,
        Or.inl rfl, Or.inl rfl⟩
      · rw [Session.replies, hinbound]
        rwa [Session.replies, List.append_assoc, List.singleton_append] at hr
      · rcases List.mem_append.mp hr with hresponse | hlast
        · exact Or.inl hresponse
        · rw [List.mem_singleton.mp hlast]
          exact Or.inr hreply

/-- The command id a call begins to wait for, if the action is one that sends its request. -/
def sends (s : Session) : Action → Option UInt8
  | .requestAsync cmd payload =>
      if s.client.awaiting = none ∧ (encode cmd payload).isSome then some (cmd ||| kResponseFlag)
      else none
  | _ => none

/-- A request is on the link, and the call that made it is the one that waits. -/
structure Sent (s s' : Session) (expected : UInt8) : Prop where
  client : s'.client = { s.client with
    calls := s.client.calls + 1, awaiting := some (s.client.calls, expected) }
  inbound : s'.inbound = s.inbound
  outbound : ∃ frame, s'.outbound = s.outbound ++ [⟨s.client.calls, frame⟩]

theorem sent_of_sends {s : Session} {a : Action} {expected : UInt8}
    (h : s.sends a = some expected) : Sent s (s.exec a) expected := by
  cases a with
  | requestAsync cmd payload =>
      rw [sends, Option.ite_none_right_eq_some, Option.some.injEq] at h
      obtain ⟨⟨hidle, hencodes⟩, rfl⟩ := h
      obtain ⟨bytes, hbytes⟩ := Option.isSome_iff_exists.mp hencodes
      rw [exec, hidle]
      simp only [BcmClient.requestAsync, hbytes, Option.isSome_none, Bool.false_eq_true, if_false]
      exact ⟨rfl, rfl, ⟨cmd, payload⟩, rfl⟩
  | _ => exact absurd h (by simp [sends])

theorem follows_of_not_sends {s : Session} {a : Action} (h : s.sends a = none) :
    Follows s (s.exec a) := by
  cases a with
  | requestAsync cmd payload =>
      unfold exec
      dsimp only
      split
      case isTrue => exact Follows.of_link rfl (List.Subset.refl _) (List.Subset.refl _)
      case isFalse hidle =>
        have hnone : encode cmd payload = none := by
          by_contra hsome
          rw [sends, if_pos ⟨Option.not_isSome_iff_eq_none.mp hidle,
            Option.isSome_iff_ne_none.mpr hsome⟩] at h
          exact absurd h (Option.some_ne_none _)
        simp only [BcmClient.requestAsync, hnone]
        exact ⟨fun r hr => Or.inl hr, fun r hr => Or.inl hr, by simp, Nat.le_succ _, Or.inl rfl,
          Or.inl rfl⟩
  | tryTake => exact follows_tryTake s
  | timeOut =>
      exact ⟨fun r hr => Or.inl hr, fun r hr => Or.inl hr, List.Subset.refl _, Nat.le_refl _,
        Or.inr rfl, Or.inl rfl⟩
  | loseRequest i => exact Follows.of_link rfl (List.Subset.refl _) (List.eraseIdx_subset)
  | serve payload => exact follows_serve s payload
  | logEvent payload => exact follows_logEvent s payload
  | loseFrame i => exact Follows.of_link rfl (List.eraseIdx_subset) (List.Subset.refl _)
  | deliver => exact follows_deliver s

/-! ### What the BCM answers -/

/-- The dispatcher answers a request, whatever it does besides, with one of the replies of the
link. -/
theorem reply_of_dispatch {q : Request} {f : Bcm.Frame} (hframe : f.content = q.frame.content)
    (hlen : f.len ≤ kMaxPayload) {d d' : Dispatcher} {response answer : Bcm.Frame}
    {context context' : Option CommandContext}
    (h : d.dispatch Commands.commandTable f response context = some (true, answer, d', context')) :
    ∃ r, q.reply answer.data = some r ∧ r.frame.content = answer.content := by
  have hcmd : f.cmd = q.frame.cmd := congrArg Prod.fst hframe
  have hplain : f.cmd &&& kResponseFlag = 0 := by
    by_contra hflag
    rw [Dispatcher.dispatch, if_pos hflag] at h
    exact absurd h (by simp)
  have hnot : ¬ (f.cmd = Cmd.ping.toUInt8 ∧ f.len = kMaxPayload) := by
    rintro ⟨hping, hfull⟩
    rw [Commands.dispatch_full_ping hping hfull] at h
    exact absurd h (by simp)
  obtain ⟨answer', _, _, houtcome, hanswer, -, hshort, -⟩ :=
    Commands.sends_of_not_full hplain hlen hnot d response context
  obtain rfl : answer = answer' := by
    rw [h, Option.some.injEq, Prod.mk.injEq, Prod.mk.injEq] at houtcome
    exact houtcome.2.1
  rw [hcmd] at hplain hanswer
  refine ⟨⟨⟨answer.cmd, answer.data⟩, some q.call⟩, ?_, ?_⟩
  · rw [Request.reply, if_neg (not_not.mpr hplain), hanswer]
  · rw [Frame.content, Bcm.Frame.content, answer.length_data hshort, UInt8.ofNat_toNat]

/-! ### Fresh requests -/

/-- The BCM will answer the request with this command id. -/
def Promises (q : Request) (expected : UInt8) : Prop :=
  q.frame.cmd &&& kResponseFlag = 0 ∧ q.frame.cmd ||| kResponseFlag = expected

instance (q : Request) (expected : UInt8) : Decidable (Promises q expected) :=
  inferInstanceAs (Decidable (_ ∧ _))

theorem promises_of_reply {q : Request} {payload : List UInt8} {r : Reply}
    (h : q.reply payload = some r) : Promises q r.frame.cmd ∧ r.answers = some q.call := by
  rw [Request.reply] at h
  split at h
  case isTrue => exact absurd h (by simp)
  case isFalse hplain =>
    rw [← Option.some.inj h]
    exact ⟨⟨not_not.mp hplain, rfl⟩, rfl⟩

/-- What is kept and under way can be told from the reply to a new request. -/
def Fresh (expected : UInt8) (s : Session) : Prop :=
  expected = logEventCmd ∨
    (∀ r ∈ s.replies, r.frame.cmd ≠ expected) ∧ ∀ q ∈ s.outbound, ¬ Promises q expected

instance (expected : UInt8) (s : Session) : Decidable (Fresh expected s) :=
  inferInstanceAs (Decidable (_ ∨ _ ∧ _))

/-- A request that is sent is fresh. -/
def FreshRequest (s : Session) (a : Action) : Prop := ∀ expected ∈ s.sends a, Fresh expected s

instance (s : Session) (a : Action) : Decidable (FreshRequest s a) :=
  inferInstanceAs (Decidable (∀ expected ∈ s.sends a, Fresh expected s))

/-! ### The invariant of fresh runs -/

/-- While a call waits, what could be taken for its reply is its reply. -/
structure Matched (s : Session) : Prop where
  truthful : s.Truthful
  received : ∀ r ∈ s.client.responses, r.frame.cmd ≠ logEventCmd
  replies : ∀ call expected, s.client.awaiting = some (call, expected) → expected ≠ logEventCmd →
    ∀ r ∈ s.replies, r.frame.cmd = expected → r.answers = some call
  requests : ∀ call expected, s.client.awaiting = some (call, expected) →
    expected ≠ logEventCmd → ∀ q ∈ s.outbound, Promises q expected → q.call = call

theorem matched_new : Matched .new := by
  refine ⟨?_, ?_, fun _ _ h => ?_, fun _ _ h => ?_⟩
  · decide
  · decide
  · exact absurd h (by simp [new, BcmClient.new])
  · exact absurd h (by simp [new, BcmClient.new])

theorem Matched.follows {s s' : Session} (h : Matched s) (hstep : Follows s s') : Matched s' := by
  have hwaiting : ∀ {call expected}, s'.client.awaiting = some (call, expected) →
      s.client.awaiting = some (call, expected) := by
    intro call expected hawaiting
    rcases hstep.awaiting with hsame | hnone
    · rw [← hsame, hawaiting]
    · rw [hnone] at hawaiting
      exact absurd hawaiting (by simp)
  refine ⟨?_, fun r hr => ?_, ?_, ?_⟩
  · rcases hstep.returned with hsame | ⟨call, candidate, hawaiting, hcandidate, hreturned⟩
    · unfold Truthful
      rw [hsame]
      exact h.truthful
    · intro p hp
      rw [hreturned, List.mem_append, List.mem_singleton] at hp
      rcases hp with hearlier | rfl
      · exact h.truthful p hearlier
      · exact h.replies call _ hawaiting (h.received candidate hcandidate) candidate
          (List.mem_append_left _ hcandidate) rfl
  · rcases hstep.received r hr with hkept | hplain
    · exact h.received r hkept
    · exact hplain
  · intro call expected hawaiting hplain r hr hcmd
    rcases hstep.replies r hr with hthere | ⟨q, hq, payload, hreply⟩ | ⟨hevent, -⟩
    · exact h.replies call expected (hwaiting hawaiting) hplain r hthere hcmd
    · obtain ⟨hpromises, hanswers⟩ := promises_of_reply hreply
      rw [hcmd] at hpromises
      rw [hanswers, h.requests call expected (hwaiting hawaiting) hplain q hq hpromises]
    · exact absurd (hcmd.symm.trans hevent) hplain
  · intro call expected hawaiting hplain q hq hpromises
    exact h.requests call expected (hwaiting hawaiting) hplain q (hstep.outbound hq) hpromises

theorem Matched.sent {s s' : Session} {expected : UInt8} (h : Matched s)
    (hstep : Sent s s' expected) (hfresh : Fresh expected s) : Matched s' := by
  obtain ⟨hclient, hinbound, frame, houtbound⟩ := hstep
  have hreplies : s'.replies = s.replies := by
    rw [Session.replies, Session.replies, hclient, hinbound]
  have hawaiting : s'.client.awaiting = some (s.client.calls, expected) := by rw [hclient]
  refine ⟨?_, ?_, ?_, ?_⟩
  · unfold Truthful
    rw [hclient]
    exact h.truthful
  · rw [hclient]
    exact h.received
  · intro call expected' hwaiting hplain r hr hcmd
    obtain ⟨rfl, rfl⟩ := Prod.mk.inj (Option.some.inj (hawaiting.symm.trans hwaiting))
    obtain ⟨hnone, -⟩ := hfresh.resolve_left hplain
    rw [hreplies] at hr
    exact absurd hcmd (hnone r hr)
  · intro call expected' hwaiting hplain q hq hpromises
    obtain ⟨rfl, rfl⟩ := Prod.mk.inj (Option.some.inj (hawaiting.symm.trans hwaiting))
    obtain ⟨-, hnone⟩ := hfresh.resolve_left hplain
    rw [houtbound, List.mem_append, List.mem_singleton] at hq
    rcases hq with hearlier | rfl
    · exact absurd hpromises (hnone q hearlier)
    · rfl

/-- **No reply is mistaken for another in a fresh run.** If nothing that is kept or under way could
be taken for the reply to a request when it is sent, every frame ever returned is the reply to its
own request. -/
theorem truthful_of_fresh {actions : List Action}
    (h : Runs.Along exec FreshRequest .new actions) : (Runs.run exec .new actions).Truthful := by
  refine (Runs.run_history (I := fun _ s => Matched s) matched_new ?_ h).truthful
  intro earlier a hfresh hmatched
  cases hsends : (Runs.run exec .new earlier).sends a with
  | none => exact hmatched.follows (follows_of_not_sends hsends)
  | some expected => exact hmatched.sent (sent_of_sends hsends) (hfresh expected hsends)

/-- A PING that is answered after an event. -/
def answeredPing : List Action :=
  [.requestAsync 0x01 [0xDE, 0xAD], .logEvent [0, 0, 0, 0, 1, 0], .serve [0x00, 0xDE, 0xAD],
    .deliver, .deliver, .tryTake]

theorem truthful_of_fresh_ping :
    (Runs.run exec .new answeredPing).client.returned.length = 1 ∧
      (Runs.run exec .new answeredPing).Truthful :=
  ⟨by decide +kernel, truthful_of_fresh (by decide +kernel)⟩

/-- A GET_BATTERY that times out before its reply arrives, and its retry. -/
def retriedBattery : List Action :=
  [.requestAsync 0x08 [], .serve [0x00, 0x03, 0x0C], .timeOut, .deliver, .requestAsync 0x08 [],
    .serve [0x00, 0x02, 0x30], .tryTake]

/-- The retry gets 780 ‰, the reply to the first request, with its own, of 560 ‰, on its way. -/
theorem late_reply_returned :
    Runs.run exec .new retriedBattery = {
        client := ⟨2, none, [], [(1, ⟨⟨0x88, [0x00, 0x03, 0x0C]⟩, some 0⟩)]⟩
        outbound := []
        inbound := [⟨⟨0x88, [0x00, 0x02, 0x30]⟩, some 1⟩] } ∧
      ¬ (Runs.run exec .new retriedBattery).Truthful := by
  decide +kernel

/-! ### A request that is not fresh -/

/-- The numbers on the frames and the requests are those of calls that have been made. -/
structure Numbered (s : Session) : Prop where
  replies : ∀ r ∈ s.replies, ∀ call, r.answers = some call → call < s.client.calls
  requests : ∀ q ∈ s.outbound, q.call < s.client.calls

theorem Numbered.exec {s : Session} (h : Numbered s) (a : Action) : Numbered (s.exec a) := by
  cases hsends : s.sends a with
  | none =>
      have hstep := follows_of_not_sends hsends
      refine ⟨fun r hr call hanswers => ?_, fun q hq => ?_⟩
      · rcases hstep.replies r hr with hthere | ⟨q, hq, payload, hreply⟩ | ⟨-, hnone⟩
        · exact Nat.lt_of_lt_of_le (h.replies r hthere call hanswers) hstep.calls
        · obtain ⟨-, hcall⟩ := promises_of_reply hreply
          obtain rfl := Option.some.inj (hcall.symm.trans hanswers)
          exact Nat.lt_of_lt_of_le (h.requests q hq) hstep.calls
        · rw [hnone] at hanswers
          exact absurd hanswers (by simp)
      · exact Nat.lt_of_lt_of_le (h.requests q (hstep.outbound hq)) hstep.calls
  | some expected =>
      obtain ⟨hclient, hinbound, frame, houtbound⟩ := sent_of_sends hsends
      have hcalls : (s.exec a).client.calls = s.client.calls + 1 := by rw [hclient]
      refine ⟨fun r hr call hanswers => ?_, fun q hq => ?_⟩
      · rw [Session.replies, hclient, hinbound] at hr
        rw [hcalls]
        exact Nat.lt_succ_of_lt (h.replies r hr call hanswers)
      · rw [houtbound, List.mem_append, List.mem_singleton] at hq
        rw [hcalls]
        rcases hq with hearlier | rfl
        · exact Nat.lt_succ_of_lt (h.requests q hearlier)
        · exact Nat.lt_succ_self _

theorem numbered_run (actions : List Action) : Numbered (Runs.run exec .new actions) := by
  have hreach : Runs.Reachable exec .new (fun _ => True) (Runs.run exec .new actions) :=
    ⟨actions, fun _ _ => trivial, rfl⟩
  have hnew : Numbered .new := ⟨by simp [Session.replies, new, BcmClient.new], by simp [new]⟩
  exact hreach.invariant hnew fun _ a _ h => h.exec a

/-- A call waits, and none of the frames there are is its reply. -/
structure Stale (s : Session) (call : Nat) (expected : UInt8) : Prop where
  awaiting : s.client.awaiting = some (call, expected)
  plain : expected ≠ logEventCmd
  replies : ∀ r ∈ s.replies, r.answers ≠ some call

/-- Some continuation returns a frame for a request it is not the reply to. -/
def Misleads (s : Session) : Prop := ∃ actions, ¬ (Runs.run exec s actions).Truthful

theorem Misleads.of_exec {s : Session} {a : Action} (h : (s.exec a).Misleads) : s.Misleads := by
  obtain ⟨actions, hactions⟩ := h
  exact ⟨a :: actions, hactions⟩

/-- The client takes what it keeps, down to the first frame with the command id. -/
theorem misleads_of_response {s : Session} {call : Nat} {expected : UInt8}
    (h : Stale s call expected) {r : Reply} (hr : r ∈ s.client.responses)
    (hcmd : r.frame.cmd = expected) : s.Misleads := by
  generalize hresponses : s.client.responses = responses at hr
  induction responses generalizing s with
  | nil => exact absurd hr (by simp)
  | cons candidate rest ih =>
      have hcandidate : candidate ∈ s.replies := by
        rw [Session.replies, hresponses]
        exact List.mem_append_left _ List.mem_cons_self
      refine Misleads.of_exec (a := .tryTake) ?_
      by_cases hmatch : candidate.frame.cmd = expected
      · have htaken : (s.exec .tryTake).client.returned =
            s.client.returned ++ [(call, candidate)] := by
          simp only [exec, BcmClient.tryTake, h.awaiting, hresponses, if_pos hmatch]
        refine ⟨[], fun htruthful => h.replies candidate hcandidate ?_⟩
        refine htruthful (call, candidate) ?_
        rw [Runs.run_nil, htaken]
        exact List.mem_append_right _ (List.mem_singleton_self _)
      · have htaken : s.exec .tryTake =
            { s with client := { s.client with responses := rest } } := by
          simp only [exec, BcmClient.tryTake, h.awaiting, hresponses, if_neg hmatch]
        have hrest : r ∈ rest := by
          rcases List.mem_cons.mp hr with rfl | hrest
          · exact absurd hcmd hmatch
          · exact hrest
        rw [htaken]
        refine ih ⟨h.awaiting, h.plain, fun r' hr' => h.replies r' ?_⟩ rfl hrest
        rw [Session.replies, hresponses]
        exact List.mem_cons_of_mem candidate hr'

theorem exec_deliver {s : Session} {first : Reply} {rest : List Reply}
    (h : s.inbound = first :: rest) :
    s.exec .deliver = { s with client := s.client.readFrame first, inbound := rest } := by
  simp only [exec, h]

/-- What is on its way arrives. -/
theorem misleads_of_inbound {s : Session} {call : Nat} {expected : UInt8}
    (h : Stale s call expected) {r : Reply} (hr : r ∈ s.inbound)
    (hcmd : r.frame.cmd = expected) : s.Misleads := by
  generalize hinbound : s.inbound = inbound at hr
  induction inbound generalizing s with
  | nil => exact absurd hr (by simp)
  | cons first rest ih =>
      refine Misleads.of_exec (a := .deliver) ?_
      rw [exec_deliver hinbound]
      by_cases hevent : first.frame.cmd = logEventCmd
      · -- it is another frame that arrives, and it goes to the event handler
        have hread : s.client.readFrame first = s.client := if_pos hevent
        have hrest : r ∈ rest := by
          rcases List.mem_cons.mp hr with rfl | hrest
          · exact absurd (hcmd.symm.trans hevent) h.plain
          · exact hrest
        rw [hread]
        refine ih ⟨h.awaiting, h.plain, fun r' hr' => h.replies r' ?_⟩ rfl hrest
        rw [Session.replies, hinbound]
        exact ((List.sublist_cons_self first rest).append_left _).subset hr'
      · have hread : s.client.readFrame first =
            { s.client with responses := s.client.responses ++ [first] } := if_neg hevent
        have hstale : Stale { s with client := s.client.readFrame first, inbound := rest }
            call expected := by
          rw [hread]
          refine ⟨h.awaiting, h.plain, fun r' hr' => h.replies r' ?_⟩
          rw [Session.replies, List.append_assoc, List.singleton_append] at hr'
          rwa [Session.replies, hinbound]
        rcases List.mem_cons.mp hr with rfl | hrest
        · refine misleads_of_response hstale (r := r) ?_ hcmd
          rw [hread]
          exact List.mem_append_right _ (List.mem_singleton_self r)
        · exact ih hstale rfl hrest

/-- The BCM serves what lies before the new request. -/
theorem misleads_of_outbound {s : Session} {call : Nat} {expected : UInt8}
    {front back : List Request} (h : Stale s call expected) (houtbound : s.outbound = front ++ back)
    (hearlier : ∀ q ∈ front, q.call ≠ call) {q : Request} (hq : q ∈ front)
    (hpromises : Promises q expected) : s.Misleads := by
  induction front generalizing s with
  | nil => exact absurd hq (by simp)
  | cons first rest ih =>
      rw [List.cons_append] at houtbound
      have hserve : s.exec (.serve []) = { s with
          outbound := rest ++ back, inbound := s.inbound ++ (first.reply []).toList } := by
        simp only [exec, houtbound]
      have hstale : Stale (s.exec (.serve [])) call expected := by
        rw [hserve]
        refine ⟨h.awaiting, h.plain, fun r hr => ?_⟩
        rw [Session.replies, ← List.append_assoc, List.mem_append, Option.mem_toList] at hr
        rcases hr with hthere | hanswer
        · exact h.replies r hthere
        · rw [(promises_of_reply hanswer).2]
          exact fun heq => hearlier first List.mem_cons_self (Option.some.inj heq)
      refine Misleads.of_exec (a := .serve []) ?_
      rcases List.mem_cons.mp hq with rfl | hrest
      · have hreply : q.reply [] = some ⟨⟨expected, []⟩, some q.call⟩ := by
          rw [Request.reply, if_neg (not_not.mpr hpromises.1), hpromises.2]
        refine misleads_of_inbound hstale (r := ⟨⟨expected, []⟩, some q.call⟩) ?_ rfl
        rw [hserve, hreply]
        exact List.mem_append_right _ (List.mem_singleton_self _)
      · refine ih hstale (by rw [hserve]) (fun q' hq' => ?_) hrest
        exact hearlier q' (List.mem_cons_of_mem first hq')

/-- **Nothing weaker will do.** After a request that is not fresh the run can go on so that a frame
is returned for it that answers an earlier one. -/
theorem misleads_of_not_fresh {actions : List Action} {a : Action}
    (h : ¬ FreshRequest (Runs.run exec .new actions) a) :
    (Runs.run exec .new (actions ++ [a])).Misleads := by
  rw [Runs.run_concat]
  generalize hs : Runs.run exec .new actions = s at h ⊢
  have hnumbered : Numbered s := hs ▸ numbered_run actions
  rw [FreshRequest] at h
  push Not at h
  obtain ⟨expected, hsends, hstale⟩ := h
  rw [Fresh, not_or] at hstale
  obtain ⟨hplain, hthere⟩ := hstale
  obtain ⟨hclient, hinbound, frame, houtbound⟩ := sent_of_sends hsends
  have hreplies : (s.exec a).replies = s.replies := by
    rw [Session.replies, Session.replies, hclient, hinbound]
  have hwaits : Stale (s.exec a) s.client.calls expected := by
    refine ⟨by rw [hclient], hplain, fun r hr heq => ?_⟩
    rw [hreplies] at hr
    exact Nat.lt_irrefl _ (hnumbered.replies r hr _ heq)
  by_cases hframes : ∀ r ∈ s.replies, r.frame.cmd ≠ expected
  · have hrequests : ∃ q ∈ s.outbound, Promises q expected := by
      by_contra hnone
      exact hthere ⟨hframes, fun q hq hpromises => hnone ⟨q, hq, hpromises⟩⟩
    obtain ⟨q, hq, hpromises⟩ := hrequests
    exact misleads_of_outbound hwaits houtbound
      (fun q' hq' => Nat.ne_of_lt (hnumbered.requests q' hq')) hq hpromises
  · push Not at hframes
    obtain ⟨r, hr, hcmd⟩ := hframes
    rw [← hreplies, Session.replies, List.mem_append] at hr
    rcases hr with hresponse | hinbound
    · exact misleads_of_response hwaits hresponse hcmd
    · exact misleads_of_inbound hwaits hinbound hcmd

end Bcm.Desktop.Session
