import Bcm.Commands
import Bcm.FrameCodec

/-!
# Every request gets an answer

Any frame the parser can deliver with bit 7 of its command clear is answered with a frame that can
be sent. There is one request that is not: a PING with a full payload, whose echo and status byte
together are one byte more than a frame carries.
-/

namespace Bcm

namespace Frame

theorem write_of_lt (f : Frame) {i : Nat} (h : i < 32) (byte : UInt8) :
    f.write i byte = some { f with payload := f.payload.set i byte } :=
  dif_pos h

theorem write_of_not_lt (f : Frame) {i : Nat} (h : ¬ i < 32) (byte : UInt8) :
    f.write i byte = none :=
  dif_neg h

end Frame

namespace Commands

/-- A handler's outcome is an answer to be sent: a reply in bounds of both payload arrays, under the
command of the pre-filled response and with a length a frame can have. -/
def Answered (response : Frame) (outcome : Option (Bool × Frame × Option CommandContext)) : Prop :=
  ∃ len payload context,
    outcome = some (true, { response with len := len, payload := payload }, context) ∧
      1 ≤ len ∧ len ≤ kMaxPayload

/-! ### The copying loop -/

theorem copyPayload_succ (read : Nat → Option UInt8) (start count : Nat) (response : Frame) :
    copyPayload read start (count + 1) response =
      (copyPayload read start count response).bind fun response =>
        (read count).bind fun byte => response.write (start + count) byte := by
  rw [copyPayload, List.range_succ, List.foldlM_append]
  simp [copyPayload]

/-- Inside the array the loop changes nothing but the payload. -/
theorem copyPayload_of_le {read : Nat → Option UInt8} {start count : Nat}
    (hread : ∀ i, i < count → (read i).isSome) (hroom : start + count ≤ 32) (response : Frame) :
    ∃ payload, copyPayload read start count response =
      some { response with payload := payload } := by
  induction count with
  | zero => exact ⟨response.payload, rfl⟩
  | succ count ih =>
      obtain ⟨payload, hcopy⟩ := ih (fun i hi => hread i (by omega)) (by omega)
      obtain ⟨byte, hbyte⟩ := Option.isSome_iff_exists.mp (hread count (by omega))
      have hlast : start + count < 32 := by omega
      rw [copyPayload_succ, hcopy, Option.bind_some, hbyte, Option.bind_some,
        Frame.write_of_lt _ hlast]
      exact ⟨_, rfl⟩

/-- One byte more than fits, and the last write is past the array. -/
theorem copyPayload_of_eq (read : Nat → Option UInt8) {start count : Nat} (response : Frame)
    (hfull : start + count = 32) : copyPayload read start (count + 1) response = none := by
  rw [copyPayload_succ, hfull]
  cases copyPayload read start count response with
  | none => rfl
  | some response =>
      cases read count with
      | none => rfl
      | some byte => exact response.write_of_not_lt (i := 32) (by decide) byte

theorem read_isSome (f : Frame) {i : Nat} (hi : i < 32) : (f.read i).isSome := by
  rw [Frame.read, Vector.getElem?_eq_getElem hi]
  rfl

/-! ### Handler by handler -/

theorem handlePing_answered {request : Frame} (hlen : request.len ≤ kMaxPayload)
    (hfull : request.len ≠ kMaxPayload) (response : Frame) (context : Option CommandContext) :
    Answered response (handlePing request response context) := by
  have hbound : request.len.toNat ≤ 32 := UInt8.le_iff_toNat_le.mp hlen
  have hne : request.len.toNat ≠ 32 := fun heq => hfull (UInt8.toNat_inj.mp heq)
  have hread : ∀ i, i < request.len.toNat → (request.read i).isSome :=
    fun i hi => read_isSome request (by omega)
  have hroom : 1 + request.len.toNat ≤ 32 := by omega
  obtain ⟨payload, hcopy⟩ :=
    copyPayload_of_le hread hroom { response with len := 1 + request.len }
  have hadd : (1 + request.len).toNat = 1 + request.len.toNat := by
    rw [UInt8.toNat_add]
    exact Nat.mod_eq_of_lt (by change 1 + request.len.toNat < 256; omega)
  refine ⟨1 + request.len, payload, context, ?_, ?_, ?_⟩
  · rw [handlePing, hcopy]
    rfl
  · exact UInt8.le_iff_toNat_le.mpr (by rw [hadd]; exact Nat.le_add_right 1 _)
  · exact UInt8.le_iff_toNat_le.mpr (by rw [hadd]; exact hroom)

theorem handlePing_full {request : Frame} (hfull : request.len = kMaxPayload) (response : Frame)
    (context : Option CommandContext) : handlePing request response context = none := by
  have hcount : request.len.toNat = 31 + 1 := by rw [hfull]; rfl
  rw [handlePing, hcount, copyPayload_of_eq request.read _ (by rfl)]
  rfl

theorem badParameter_answered (request : Frame) {response : Frame} (hlen : response.len = 1)
    (context : Option CommandContext) :
    Answered response (badParameter request response context) := by
  refine ⟨response.len, response.payload.set 0 Status.badParameter.toUInt8, context, rfl, ?_, ?_⟩
  · rw [hlen]
    decide
  · rw [hlen]
    decide

theorem prefilled_answered {response : Frame} (hlen : response.len = 1)
    (context : Option CommandContext) : Answered response (some (true, response, context)) := by
  refine ⟨response.len, response.payload, context, rfl, ?_, ?_⟩
  · rw [hlen]
    decide
  · rw [hlen]
    decide

theorem handleGetVersion_answered (request response : Frame) (context : Option CommandContext) :
    Answered response (handleGetVersion request response context) :=
  ⟨4, _, context, rfl, by decide, by decide⟩

theorem handleGetStatus_answered (request response : Frame) (context : Option CommandContext) :
    Answered response (handleGetStatus request response context) :=
  ⟨5, _, context, rfl, by decide, by decide⟩

theorem handleGetBattery_answered (request response : Frame) (context : Option CommandContext) :
    Answered response (handleGetBattery request response context) :=
  ⟨3, _, context, rfl, by decide, by decide⟩

theorem handleSetLamp_answered (request : Frame) {response : Frame} (hlen : response.len = 1)
    (context : Option CommandContext) :
    Answered response (handleSetLamp request response context) := by
  obtain ⟨id, hid⟩ := Option.isSome_iff_exists.mp (read_isSome request (i := 0) (by decide))
  obtain ⟨on, hon⟩ := Option.isSome_iff_exists.mp (read_isSome request (i := 1) (by decide))
  rw [handleSetLamp, hid]
  simp only [Option.bind_eq_bind, Option.bind_some, hon]
  cases LampId.ofNat? id.toNat with
  | none => exact badParameter_answered request hlen context
  | some lamp =>
      cases context with
      | none => exact badParameter_answered request hlen none
      | some c =>
          cases hrequest : c.hostRequest with
          | none =>
              simp only [Option.bind_some, hrequest]
              exact badParameter_answered request hlen (some c)
          | some hostRequest =>
              simp only [Option.bind_some, hrequest]
              exact prefilled_answered hlen _

theorem handleGetLamp_answered (request : Frame) {response : Frame} (hlen : response.len = 1)
    (context : Option CommandContext) :
    Answered response (handleGetLamp request response context) := by
  obtain ⟨id, hid⟩ := Option.isSome_iff_exists.mp (read_isSome request (i := 0) (by decide))
  rw [handleGetLamp, hid]
  simp only [Option.bind_eq_bind, Option.bind_some]
  cases LampId.ofNat? id.toNat with
  | none => exact badParameter_answered request hlen context
  | some lamp =>
      cases hactual : context.bind (·.actual) with
      | none => exact badParameter_answered request hlen context
      | some actual => exact ⟨2, _, context, rfl, by decide, by decide⟩

/-- The store holds at most eight codes, so the list fits with room to spare. -/
theorem handleGetDtc_answered (request response : Frame) (context : Option CommandContext) :
    Answered response (handleGetDtc request response context) := by
  cases hfaults : context.bind (·.faults) with
  | none =>
      simp only [handleGetDtc, hfaults]
      exact ⟨2, _, context, rfl, by decide, by decide⟩
  | some faults =>
      have hcount : (faults.activeCodes (kMaxPayload.toNat - 2)).length ≤ 8 :=
        faults.length_activeCodes_le _
      simp only [handleGetDtc, hfaults]
      generalize faults.activeCodes (kMaxPayload.toNat - 2) = codes at hcount
      have hread : ∀ i, i < codes.length → (codes[i]?).isSome := by
        intro i hi
        rw [List.getElem?_eq_getElem hi]
        rfl
      have hroom : 2 + codes.length ≤ 32 := by omega
      have hadd : (2 + UInt8.ofNat codes.length).toNat = 2 + codes.length := by
        rw [UInt8.toNat_add, UInt8.toNat_ofNat']
        change (2 + codes.length % 256) % 256 = _
        omega
      obtain ⟨payload, hcopy⟩ := copyPayload_of_le hread hroom
        { response with
          len := 2 + UInt8.ofNat codes.length
          payload := response.payload.set 1 (UInt8.ofNat codes.length) }
      refine ⟨2 + UInt8.ofNat codes.length, payload, context, ?_, ?_, ?_⟩
      · rw [Frame.write_of_lt _ (by decide), Option.bind_eq_bind, Option.bind_some, hcopy]
        rfl
      · exact UInt8.le_iff_toNat_le.mpr (by rw [hadd]; exact Nat.le_add_right_of_le (by decide))
      · exact UInt8.le_iff_toNat_le.mpr (by rw [hadd]; exact hroom)

theorem requestDoor_answered (raise : CommandContext → CommandContext) (request : Frame)
    {response : Frame} (hlen : response.len = 1) (context : Option CommandContext) :
    Answered response (requestDoor raise request response context) := by
  cases context with
  | none => exact badParameter_answered request hlen none
  | some c => exact prefilled_answered hlen (some (raise c))

/-! ### The whole table -/

/-- Every row answers every request the parser can deliver, but for the PING of a full payload. -/
theorem entry_answered {entry : CommandEntry (Option CommandContext)} (hmem : entry ∈ commandTable)
    {request : Frame} (hlen : request.len ≤ kMaxPayload)
    (hnot : ¬ (entry.cmd = Cmd.ping.toUInt8 ∧ request.len = kMaxPayload)) :
    ∃ handler, entry.handler = some handler ∧
      ∀ (response : Frame) (context : Option CommandContext), response.len = 1 →
        Answered response (handler request response context) := by
  simp only [commandTable, List.mem_cons, List.not_mem_nil, or_false] at hmem
  rcases hmem with rfl | rfl | rfl | rfl | rfl | rfl | rfl | rfl | rfl | rfl | rfl | rfl
  · have hfull : request.len ≠ kMaxPayload := fun heq => hnot ⟨rfl, heq⟩
    exact ⟨handlePing, rfl, fun response context _ =>
      handlePing_answered hlen hfull response context⟩
  · exact ⟨handleGetVersion, rfl, fun response context _ =>
      handleGetVersion_answered request response context⟩
  · exact ⟨handleGetStatus, rfl, fun response context _ =>
      handleGetStatus_answered request response context⟩
  · exact ⟨handleSetLamp, rfl, fun _ context h => handleSetLamp_answered request h context⟩
  · exact ⟨handleGetLamp, rfl, fun _ context h => handleGetLamp_answered request h context⟩
  · exact ⟨handleDoorLock, rfl, fun _ context h => requestDoor_answered _ request h context⟩
  · exact ⟨handleDoorUnlock, rfl, fun _ context h => requestDoor_answered _ request h context⟩
  · exact ⟨handleGetBattery, rfl, fun response context _ =>
      handleGetBattery_answered request response context⟩
  · exact ⟨handleGetDtc, rfl, fun response context _ =>
      handleGetDtc_answered request response context⟩
  · exact ⟨handleClearDtc, rfl, fun _ _ h => prefilled_answered h _⟩
  · exact ⟨handleReset, rfl, fun _ _ h => prefilled_answered h _⟩
  · exact ⟨handleHeartbeat, rfl, fun _ _ h => prefilled_answered h _⟩

/-- The dispatcher replies, inside the payload arrays, under the command of the request and with a
response that `CommMgr::send` can encode. -/
def Sends (request : Frame)
    (outcome : Option (Bool × Frame × Dispatcher × Option CommandContext)) : Prop :=
  ∃ response d context, outcome = some (true, response, d, context) ∧
    response.cmd = request.cmd ||| kResponseFlag ∧ 1 ≤ response.len ∧
    response.len ≤ kMaxPayload ∧ (response.encode true kMaxFrameSize).isSome

theorem sends_of_len {request response : Frame} {d : Dispatcher} {context : Option CommandContext}
    {outcome : Option (Bool × Frame × Dispatcher × Option CommandContext)}
    (houtcome : outcome = some (true, response, d, context))
    (hcmd : response.cmd = request.cmd ||| kResponseFlag) (hlow : 1 ≤ response.len)
    (hhigh : response.len ≤ kMaxPayload) : Sends request outcome := by
  have hsize : response.len.toNat + 5 ≤ kMaxFrameSize :=
    Nat.add_le_add_right (UInt8.le_iff_toNat_le.mp hhigh) kFrameOverhead
  refine ⟨response, d, context, houtcome, hcmd, hlow, hhigh, ?_⟩
  exact (response.encode_isSome_iff true kMaxFrameSize).mpr ⟨rfl, hhigh, hsize⟩

theorem sends_status (request : Frame) (status : Status) (d : Dispatcher)
    (context : Option CommandContext) :
    Sends request (some (true, makeStatusResponse request.cmd status, d, context)) := by
  have hlow : (1 : UInt8) ≤ 1 := by decide
  have hhigh : (1 : UInt8) ≤ kMaxPayload := by decide
  exact sends_of_len rfl rfl hlow hhigh

/-- **What the dispatcher does with a request.** It refuses by itself, with a status and without
looking at the context, or it passes on the answer of the handler. -/
theorem dispatch_cases {request : Frame} (hrequest : request.cmd &&& kResponseFlag = 0)
    (hlen : request.len ≤ kMaxPayload)
    (hnot : ¬ (request.cmd = Cmd.ping.toUInt8 ∧ request.len = kMaxPayload)) (d : Dispatcher)
    (response : Frame) (context : Option CommandContext) :
    (∃ status, d.dispatch commandTable request response context =
        some (true, makeStatusResponse request.cmd status, d.reject, context)) ∨
      ∃ entry ∈ commandTable, ∃ handler, entry.handler = some handler ∧
        ∃ len payload context', 1 ≤ len ∧ len ≤ kMaxPayload ∧
          handler request (makeStatusResponse request.cmd .ok) context =
            some (true, { makeStatusResponse request.cmd .ok with len := len, payload := payload },
              context') ∧
          d.dispatch commandTable request response context =
            some (true, { makeStatusResponse request.cmd .ok with len := len, payload := payload },
              { d with handled := d.handled + 1 }, context') := by
  rw [Dispatcher.dispatch, if_neg (not_not.mpr hrequest)]
  cases hfind : Dispatcher.find commandTable request.cmd with
  | none => exact Or.inl ⟨.unknownCmd, rfl⟩
  | some entry =>
      have hmem : entry ∈ commandTable := List.mem_of_find?_eq_some hfind
      have hcmd : entry.cmd = request.cmd := by
        simpa using List.find?_some hfind
      obtain ⟨handler, hhandler, hanswered⟩ :=
        entry_answered hmem hlen (by rw [hcmd]; exact hnot)
      dsimp only
      rw [hhandler]
      dsimp only
      by_cases hshort : request.len < entry.minPayload
      · rw [if_pos hshort]
        exact Or.inl ⟨.badLength, rfl⟩
      · rw [if_neg hshort]
        obtain ⟨len, payload, context', houtcome, hlow, hhigh⟩ :=
          hanswered (makeStatusResponse request.cmd .ok) context rfl
        refine Or.inr ⟨entry, hmem, handler, hhandler, len, payload, context', hlow, hhigh,
          houtcome, ?_⟩
        rw [houtcome]
        rfl

theorem sends_of_not_full {request : Frame} (hrequest : request.cmd &&& kResponseFlag = 0)
    (hlen : request.len ≤ kMaxPayload)
    (hnot : ¬ (request.cmd = Cmd.ping.toUInt8 ∧ request.len = kMaxPayload)) (d : Dispatcher)
    (response : Frame) (context : Option CommandContext) :
    Sends request (d.dispatch commandTable request response context) := by
  rcases dispatch_cases hrequest hlen hnot d response context with
    ⟨status, hrefused⟩ | ⟨-, -, -, -, len, payload, context', hlow, hhigh, -, hanswered⟩
  · rw [hrefused]
    exact sends_status request status d.reject context
  · rw [hanswered]
    exact sends_of_len rfl rfl hlow hhigh

theorem dispatch_full_ping {request : Frame} (hping : request.cmd = Cmd.ping.toUInt8)
    (hfull : request.len = kMaxPayload) (d : Dispatcher) (response : Frame)
    (context : Option CommandContext) :
    d.dispatch commandTable request response context = none := by
  have hfind : Dispatcher.find commandTable request.cmd =
      some ⟨Cmd.ping.toUInt8, some handlePing, 0⟩ := by
    rw [hping]
    rfl
  have hplain : ¬ (request.cmd &&& kResponseFlag ≠ 0) := by
    rw [hping]
    decide
  have hshort : ¬ request.len < 0 := UInt8.not_lt.mpr UInt8.zero_le
  rw [Dispatcher.dispatch, if_neg hplain, hfind]
  dsimp only
  rw [if_neg hshort, handlePing_full hfull]
  rfl

/-- **Which requests are answered.** A request the parser can deliver, with bit 7 of its command
clear, gets an answer that can be sent if and only if it is not a PING of 32 bytes. -/
theorem dispatch_sends_iff {request : Frame} (hrequest : request.cmd &&& kResponseFlag = 0)
    (hlen : request.len ≤ kMaxPayload) (d : Dispatcher) (response : Frame)
    (context : Option CommandContext) :
    Sends request (d.dispatch commandTable request response context) ↔
      ¬ (request.cmd = Cmd.ping.toUInt8 ∧ request.len = kMaxPayload) := by
  constructor
  · rintro ⟨answer, d', context', houtcome, -⟩ ⟨hping, hfull⟩
    rw [dispatch_full_ping hping hfull] at houtcome
    exact absurd houtcome (by simp)
  · intro hnot
    exact sends_of_not_full hrequest hlen hnot d response context

theorem dispatch_sends_ping :
    Sends ⟨0x01, 3, Vector.replicate 32 0xAA⟩
      (Dispatcher.new.dispatch commandTable ⟨0x01, 3, Vector.replicate 32 0xAA⟩ .new none) :=
  (dispatch_sends_iff (by decide) (by decide) .new .new none).mpr (by decide)

/-- A PING of 32 bytes, which the parser delivers and the dispatcher does not answer in bounds. -/
theorem not_sends_full_ping :
    ¬ ∀ (request : Frame) (d : Dispatcher) (response : Frame) (context : Option CommandContext),
      request.cmd &&& kResponseFlag = 0 → request.len ≤ kMaxPayload →
      Sends request (d.dispatch commandTable request response context) := by
  intro hall
  have hsends := hall ⟨0x01, 32, Vector.replicate 32 0xAA⟩ .new .new none (by decide) (by decide)
  obtain ⟨answer, d, context, houtcome, -⟩ := hsends
  have hnone : (Dispatcher.new.dispatch commandTable ⟨0x01, 32, Vector.replicate 32 0xAA⟩ .new
      none).isSome = false := by decide +kernel
  rw [houtcome] at hnone
  exact absurd hnone (by simp)

end Commands

end Bcm
