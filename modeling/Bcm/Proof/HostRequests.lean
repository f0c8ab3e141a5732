import Bcm.Proof.LinkBytes
import Bcm.Proof.Rejections

/-!
# What the host asks for

Of the twelve commands five do something besides their reply. What each of them does to the context
is read off the request alone, and so is what a stream of requests comes to.
-/

namespace Bcm

/-- What a request asks for, besides a reply. -/
inductive HostAct where
  | nothing
  | lamp (id : LampId) (on : Bool)
  | lock
  | unlock
  | clearFaults
  | reset
  deriving DecidableEq, Repr

/-- Whatever the request is for, the shipped application has a lamp request to write to. -/
def HostAct.apply (c : CommandContext) : HostAct → CommandContext
  | .nothing => c
  | .lamp id on =>
      match c.hostRequest with
      | none => c
      | some hostRequest =>
          { c with
            hostRequest := some (hostRequest.set id (if on then .on else .off))
            hostMask := c.hostMask ||| (1#16 <<< id.toNat) }
  | .lock => { c with doorLockRequested := true }
  | .unlock => { c with doorUnlockRequested := true }
  | .clearFaults => { c with faults := c.faults.map FaultMgr.clearAll }
  | .reset => { c with resetRequested := true }

def Frame.asks (f : Frame) : HostAct :=
  if f.cmd = Cmd.setLamp.toUInt8 then
    if f.len < 2 then .nothing
    else
      match LampId.ofNat? ((f.read 0).getD 0).toNat with
      | none => .nothing
      | some id => .lamp id (decide ((f.read 1).getD 0 ≠ 0))
  else if f.cmd = Cmd.doorLock.toUInt8 then .lock
  else if f.cmd = Cmd.doorUnlock.toUInt8 then .unlock
  else if f.cmd = Cmd.clearDtc.toUInt8 then .clearFaults
  else if f.cmd = Cmd.reset.toUInt8 then .reset
  else .nothing

namespace Commands

theorem handleSetLamp_asks {request response answer : Frame} {c : CommandContext} {reply : Bool}
    {context' : Option CommandContext} (hcmd : request.cmd = Cmd.setLamp.toUInt8)
    (hlen : ¬request.len < 2)
    (h : handleSetLamp request response (some c) = some (reply, answer, context')) :
    context' = some (request.asks.apply c) := by
  obtain ⟨lamp, hid⟩ : ∃ lamp, request.read 0 = some lamp := ⟨_, rfl⟩
  obtain ⟨on, hon⟩ : ∃ on, request.read 1 = some on := ⟨_, rfl⟩
  rw [Frame.asks, if_pos hcmd, if_neg hlen, hid, hon, Option.getD_some, Option.getD_some]
  simp only [handleSetLamp, Option.bind_eq_bind, hid, hon, Option.bind_some] at h
  cases hlamp : LampId.ofNat? lamp.toNat with
  | none =>
      rw [hlamp] at h
      exact badParameter_keeps _ _ _ _ h
  | some id =>
      rw [hlamp] at h
      cases hrequest : c.hostRequest with
      | none =>
          rw [hrequest] at h
          rw [HostAct.apply, hrequest]
          exact badParameter_keeps _ _ _ _ h
      | some hostRequest =>
          rw [hrequest] at h
          rw [HostAct.apply, hrequest]
          simpa using (congrArg (·.2.2) (Option.some.inj h)).symm

/-- The commands that only ask. -/
theorem asks_nothing {request : Frame} (h : request.cmd ∉ [Cmd.setLamp.toUInt8,
    Cmd.doorLock.toUInt8, Cmd.doorUnlock.toUInt8, Cmd.clearDtc.toUInt8, Cmd.reset.toUInt8]) :
    request.asks = .nothing := by
  simp only [List.mem_cons, List.not_mem_nil, or_false, not_or] at h
  obtain ⟨hlamp, hlock, hunlock, hclear, hreset⟩ := h
  rw [Frame.asks, if_neg hlamp, if_neg hlock, if_neg hunlock, if_neg hclear, if_neg hreset]

theorem asks_of_keeps {handler : Handler} {request response answer : Frame} {c : CommandContext}
    {reply : Bool} {context' : Option CommandContext}
    (hkeeps : Keeps (some c) (handler request response (some c)))
    (hcmd : request.cmd ∉ [Cmd.setLamp.toUInt8, Cmd.doorLock.toUInt8, Cmd.doorUnlock.toUInt8,
      Cmd.clearDtc.toUInt8, Cmd.reset.toUInt8])
    (h : handler request response (some c) = some (reply, answer, context')) :
    context' = some (request.asks.apply c) := by
  rw [asks_nothing hcmd]
  exact hkeeps _ h

theorem entry_asks {entry : CommandEntry (Option CommandContext)} (hmem : entry ∈ commandTable)
    {handler : Handler} (hhandler : entry.handler = some handler)
    {request response answer : Frame} {c : CommandContext} {reply : Bool}
    {context' : Option CommandContext} (hcmd : request.cmd = entry.cmd)
    (hmin : ¬request.len < entry.minPayload)
    (h : handler request response (some c) = some (reply, answer, context')) :
    context' = some (request.asks.apply c) := by
  simp only [commandTable, List.mem_cons, List.not_mem_nil, or_false] at hmem
  rcases hmem with rfl | rfl | rfl | rfl | rfl | rfl | rfl | rfl | rfl | rfl | rfl | rfl <;>
    obtain rfl := Option.some.inj hhandler
  · exact asks_of_keeps (handlePing_keeps request response _) (by rw [hcmd]; decide) h
  · exact asks_of_keeps (handleGetVersion_keeps request response _) (by rw [hcmd]; decide) h
  · exact asks_of_keeps (handleGetStatus_keeps request response _) (by rw [hcmd]; decide) h
  · exact handleSetLamp_asks hcmd hmin h
  · exact asks_of_keeps (handleGetLamp_keeps request response _) (by rw [hcmd]; decide) h
  · have hasks : request.asks = .lock := by
      rw [Frame.asks, hcmd]
      rfl
    rw [hasks]
    exact (congrArg (·.2.2) (Option.some.inj h)).symm
  · have hasks : request.asks = .unlock := by
      rw [Frame.asks, hcmd]
      rfl
    rw [hasks]
    exact (congrArg (·.2.2) (Option.some.inj h)).symm
  · exact asks_of_keeps (handleGetBattery_keeps request response _) (by rw [hcmd]; decide) h
  · exact asks_of_keeps (handleGetDtc_keeps request response _) (by rw [hcmd]; decide) h
  · have hasks : request.asks = .clearFaults := by
      rw [Frame.asks, hcmd]
      rfl
    rw [hasks]
    exact (congrArg (·.2.2) (Option.some.inj h)).symm
  · have hasks : request.asks = .reset := by
      rw [Frame.asks, hcmd]
      rfl
    rw [hasks]
    exact (congrArg (·.2.2) (Option.some.inj h)).symm
  · exact asks_of_keeps (keeps_some true response _) (by rw [hcmd]; decide) h

theorem asks_of_short {request : Frame} {entry : CommandEntry (Option CommandContext)}
    (hmem : entry ∈ commandTable) (hcmd : request.cmd = entry.cmd)
    (hshort : request.len < entry.minPayload) : request.asks = .nothing := by
  simp only [commandTable, List.mem_cons, List.not_mem_nil, or_false] at hmem
  have hzero : ¬request.len < 0 := UInt8.not_lt.mpr UInt8.zero_le
  rcases hmem with rfl | rfl | rfl | rfl | rfl | rfl | rfl | rfl | rfl | rfl | rfl | rfl
  all_goals try exact absurd hshort hzero
  · rw [Frame.asks, if_pos hcmd, if_pos hshort]
  · exact asks_nothing (by rw [hcmd]; decide)

/-- **A request does to the context what it asks for.** -/
theorem dispatch_asks {request response answer : Frame} {d d' : Dispatcher} {c : CommandContext}
    {reply : Bool} {context' : Option CommandContext}
    (h : d.dispatch commandTable request response (some c) = some (reply, answer, d', context')) :
    context' = some (request.asks.apply c) := by
  have hrefused : request.asks = .nothing → some c = context' →
      context' = some (request.asks.apply c) := by
    intro hasks hsame
    rw [hasks]
    exact hsame.symm
  unfold Dispatcher.dispatch at h
  split at h
  case isTrue hflag =>
    refine hrefused (asks_nothing fun hmem => ?_) (congrArg (·.2.2.2) (Option.some.inj h))
    simp only [List.mem_cons, List.not_mem_nil, or_false] at hmem
    rcases hmem with hcmd | hcmd | hcmd | hcmd | hcmd <;> rw [hcmd] at hflag <;>
      exact hflag (by decide)
  case isFalse =>
    split at h
    case h_1 hfind =>
      refine hrefused (asks_nothing fun hmem => ?_) (congrArg (·.2.2.2) (Option.some.inj h))
      simp only [List.mem_cons, List.not_mem_nil, or_false] at hmem
      rcases hmem with hcmd | hcmd | hcmd | hcmd | hcmd <;> rw [hcmd] at hfind <;>
        exact absurd hfind (by simp [Dispatcher.find, commandTable, Cmd.toUInt8])
    case h_2 entry hfind =>
      have hmem : entry ∈ commandTable := List.mem_of_find?_eq_some hfind
      have hcmd : request.cmd = entry.cmd := by
        simpa [eq_comm] using List.find?_some hfind
      split at h
      case h_1 hnone =>
        simp only [commandTable, List.mem_cons, List.not_mem_nil, or_false] at hmem
        rcases hmem with rfl | rfl | rfl | rfl | rfl | rfl | rfl | rfl | rfl | rfl | rfl | rfl <;>
          exact absurd hnone (by simp)
      case h_2 handler hhandler =>
        split at h
        case isTrue hshort =>
          exact hrefused (asks_of_short hmem hcmd hshort)
            (congrArg (·.2.2.2) (Option.some.inj h))
        case isFalse hmin =>
          rw [Option.bind_eq_bind, Option.bind_eq_some_iff] at h
          obtain ⟨⟨reply', answer', context''⟩, houtcome, hresult⟩ := h
          obtain ⟨-, -, -, rfl⟩ := Option.some.inj hresult
          exact entry_asks hmem hhandler hcmd hmin houtcome

end Commands

end Bcm
