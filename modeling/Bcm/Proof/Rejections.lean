import Bcm.Proof.Requests

/-!
# A rejected request changes nothing

A request can be rejected before any handler is called, and then nothing has been touched. A handler
rejects by writing a status, and each handler either leaves the context as it found it, or changes
it on the way to the status it was given, which is OK.
-/

namespace Bcm.Commands

/-- The handler has left the context as it found it. -/
def Keeps (context : Option CommandContext)
    (outcome : Option (Bool × Frame × Option CommandContext)) : Prop :=
  ∀ out, outcome = some out → out.2.2 = context

/-- The handler replies with the response it was given. -/
def Accepts (response : Frame) (outcome : Option (Bool × Frame × Option CommandContext)) : Prop :=
  ∃ context, outcome = some (true, response, context)

theorem keeps_some (reply : Bool) (answer : Frame) (context : Option CommandContext) :
    Keeps context (some (reply, answer, context)) := by
  intro out hout
  rw [← Option.some.inj hout]

/-- Writes to the response come between, and do not reach the context. -/
theorem keeps_bind {α : Type} {context : Option CommandContext} {x : Option α}
    {f : α → Option (Bool × Frame × Option CommandContext)}
    (h : ∀ a, Keeps context (f a)) : Keeps context (x.bind f) := by
  intro out hout
  obtain ⟨a, -, ha⟩ := Option.bind_eq_some_iff.mp hout
  exact h a out ha

theorem handlePing_keeps (request response : Frame) (context : Option CommandContext) :
    Keeps context (handlePing request response context) :=
  keeps_bind fun _ => keeps_some true _ context

theorem handleGetVersion_keeps (request response : Frame) (context : Option CommandContext) :
    Keeps context (handleGetVersion request response context) :=
  keeps_some true _ context

theorem handleGetStatus_keeps (request response : Frame) (context : Option CommandContext) :
    Keeps context (handleGetStatus request response context) :=
  keeps_some true _ context

theorem handleGetBattery_keeps (request response : Frame) (context : Option CommandContext) :
    Keeps context (handleGetBattery request response context) :=
  keeps_some true _ context

theorem badParameter_keeps (request response : Frame) (context : Option CommandContext) :
    Keeps context (badParameter request response context) :=
  keeps_some true _ context

theorem handleGetLamp_keeps (request response : Frame) (context : Option CommandContext) :
    Keeps context (handleGetLamp request response context) := by
  unfold handleGetLamp
  rw [Option.bind_eq_bind]
  refine keeps_bind fun id => ?_
  split
  · exact keeps_some true _ context
  · exact badParameter_keeps request response context

theorem handleGetDtc_keeps (request response : Frame) (context : Option CommandContext) :
    Keeps context (handleGetDtc request response context) := by
  unfold handleGetDtc
  split
  · exact keeps_bind fun _ => keeps_some true _ context
  · exact keeps_bind fun _ => keeps_bind fun _ => keeps_some true _ context

/-- SET_LAMP takes the request and replies OK, or touches nothing. -/
theorem handleSetLamp_cases (request response : Frame) (context : Option CommandContext) :
    Keeps context (handleSetLamp request response context) ∨
      Accepts response (handleSetLamp request response context) := by
  obtain ⟨id, hid⟩ := Option.isSome_iff_exists.mp (read_isSome request (i := 0) (by decide))
  obtain ⟨on, hon⟩ := Option.isSome_iff_exists.mp (read_isSome request (i := 1) (by decide))
  unfold handleSetLamp
  rw [hid, Option.bind_eq_bind, Option.bind_some, hon]
  split
  · exact Or.inr ⟨_, rfl⟩
  · exact Or.inl (badParameter_keeps request response _)

theorem requestDoor_cases (raise : CommandContext → CommandContext) (request response : Frame)
    (context : Option CommandContext) :
    Keeps context (requestDoor raise request response context) ∨
      Accepts response (requestDoor raise request response context) := by
  cases context with
  | none => exact Or.inl (badParameter_keeps request response none)
  | some c => exact Or.inr ⟨some (raise c), rfl⟩

/-- **Every row of the table.** -/
theorem entry_cases {entry : CommandEntry (Option CommandContext)} (hmem : entry ∈ commandTable)
    {handler : CommandHandler (Option CommandContext)} (hhandler : entry.handler = some handler)
    (request response : Frame) (context : Option CommandContext) :
    Keeps context (handler request response context) ∨
      Accepts response (handler request response context) := by
  simp only [commandTable, List.mem_cons, List.not_mem_nil, or_false] at hmem
  rcases hmem with rfl | rfl | rfl | rfl | rfl | rfl | rfl | rfl | rfl | rfl | rfl | rfl <;>
    obtain rfl := Option.some.inj hhandler
  · exact Or.inl (handlePing_keeps request response context)
  · exact Or.inl (handleGetVersion_keeps request response context)
  · exact Or.inl (handleGetStatus_keeps request response context)
  · exact handleSetLamp_cases request response context
  · exact Or.inl (handleGetLamp_keeps request response context)
  · exact requestDoor_cases _ request response context
  · exact requestDoor_cases _ request response context
  · exact Or.inl (handleGetBattery_keeps request response context)
  · exact Or.inl (handleGetDtc_keeps request response context)
  · exact Or.inr ⟨_, rfl⟩
  · exact Or.inr ⟨_, rfl⟩
  · exact Or.inl (keeps_some true response context)

/-- The reply is refused, or its status is not OK. -/
def Rejected (reply : Bool) (answer : Frame) : Prop :=
  reply = false ∨ answer.read 0 ≠ some Status.ok.toUInt8

/-- **A rejected request changes nothing.** Every request the parser can deliver, but for the PING
of a full payload, gets an outcome, and where it is rejected the context is as before. -/
theorem dispatch_rejected {request : Frame} (hlen : request.len ≤ kMaxPayload)
    (hnot : ¬ (request.cmd = Cmd.ping.toUInt8 ∧ request.len = kMaxPayload)) (d : Dispatcher)
    (response : Frame) (context : Option CommandContext) :
    ∃ reply answer d' context',
      d.dispatch commandTable request response context = some (reply, answer, d', context') ∧
        (Rejected reply answer → context' = context) := by
  by_cases hrequest : request.cmd &&& kResponseFlag = 0
  · rcases dispatch_cases hrequest hlen hnot d response context with
      ⟨status, hrefused⟩ | ⟨entry, hmem, handler, hhandler, len, payload, context', -, -, houtcome,
        hdispatch⟩
    · exact ⟨true, _, d.reject, context, hrefused, fun _ => rfl⟩
    refine ⟨true, _, _, context', hdispatch, fun hrejected => ?_⟩
    rcases entry_cases hmem hhandler request (makeStatusResponse request.cmd .ok) context with
      hkeeps | ⟨context'', haccepts⟩
    · exact hkeeps _ houtcome
    · -- the answer is the response the handler was given, which says OK
      obtain ⟨-, hanswer⟩ := Prod.mk.inj (Option.some.inj (houtcome.symm.trans haccepts))
      rw [(Prod.mk.inj hanswer).1] at hrejected
      rcases hrejected with hreply | hstatus
      · exact absurd hreply (by decide)
      · exact absurd rfl hstatus
  · refine ⟨false, response, d.reject, context, ?_, fun _ => rfl⟩
    rw [Dispatcher.dispatch, if_pos hrequest]

/-- A SET_LAMP for a lamp that does not exist. -/
theorem dispatch_rejected_setLamp :
    ∃ reply answer d' context',
      Dispatcher.new.dispatch commandTable ⟨0x04, 2, Vector.replicate 32 0xAA⟩ .new
          (some .new) = some (reply, answer, d', context') ∧
        (Rejected reply answer → context' = some .new) :=
  dispatch_rejected (by decide) (by decide) .new .new (some .new)

end Bcm.Commands
