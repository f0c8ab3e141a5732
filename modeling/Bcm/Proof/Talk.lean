import Bcm.Proof.EventFrames
import Bcm.Talk

/-!
# A third reader of the protocol

The protocol check encodes as the other two do. Its reader follows the desktop tool's parser state by
state, and so the firmware's, up to the first error, to the frame it waits for, or to a length that
the parsers do not allow and it does not question.
-/

namespace Bcm.Talk

/-! ### The check and the encoder -/

theorem shift_eq (crc : UInt8) : shift crc.toNat = (Desktop.Crc8.shift crc).toNat := by
  have hall : ∀ n : Fin 256, shift n = (Desktop.Crc8.shift (UInt8.ofNat n)).toNat := by
    decide +kernel
  have hcrc := hall ⟨crc.toNat, crc.toNat_lt⟩
  rwa [UInt8.ofNat_toNat] at hcrc

theorem getCrc8_eq (data : List UInt8) : getCrc8 data = Desktop.Crc8.compute data := by
  have hbits : ∀ (n : Nat) (crc : UInt8),
      (List.range n).foldl (fun crc _ => shift crc) crc.toNat =
        ((List.range n).foldl (fun crc _ => Desktop.Crc8.shift crc) crc).toNat := by
    intro n
    induction n with
    | zero => exact fun _ => rfl
    | succ n ih =>
        intro crc
        rw [List.range_succ, List.foldl_append, List.foldl_append, ih]
        exact shift_eq _
  have hfold : ∀ crc : UInt8,
      data.foldl (fun crc b => (List.range 8).foldl (fun crc _ => shift crc) (crc ^^^ b.toNat))
          crc.toNat =
        (data.foldl (fun crc b =>
          (List.range 8).foldl (fun crc _ => Desktop.Crc8.shift crc) (crc ^^^ b)) crc).toNat := by
    induction data with
    | nil => exact fun _ => rfl
    | cons b data ih =>
        intro crc
        rw [List.foldl_cons, List.foldl_cons, ← UInt8.toNat_xor, hbits, ih]
  rw [getCrc8, Desktop.Crc8.compute]
  exact (congrArg UInt8.ofNat (hfold 0)).trans (UInt8.ofNat_toNat)

theorem newBcmFrame_eq (cmd : UInt8) {payload : List UInt8}
    (h : payload.length ≤ kMaxPayload.toNat) :
    newBcmFrame cmd payload = Desktop.encode cmd payload := by
  have hbyte : ¬255 < payload.length := Nat.not_lt.mpr (h.trans (by decide))
  have hchecked : ((kFrameHeader :: cmd :: UInt8.ofNat payload.length :: payload).drop 1).take
      (payload.length + 2) = cmd :: UInt8.ofNat payload.length :: payload := by
    simp
  rw [newBcmFrame, if_neg hbyte, Desktop.encode, if_neg (Nat.not_lt.mpr h)]
  dsimp only
  rw [hchecked, getCrc8_eq]
  rfl

/-! ### The reader -/

/-- The reader stands where the desktop tool's parser stands. -/
def Follows (r : Reader) (p : Desktop.FrameParser) : Prop :=
  match p.state with
  | .header => r.state = .hdr
  | .command => r.state = .cmd ∧ r.body = p.crcInput
  | .length => r.state = .len ∧ r.cmd = p.cmd ∧ r.body = p.crcInput
  | .payload => r.state = .payload ∧ r.cmd = p.cmd ∧ r.len = p.len ∧
      r.payload = p.payload.take p.index ∧ r.body = p.crcInput
  | .checksum => r.state = .cksum ∧ r.cmd = p.cmd ∧ r.len = p.len ∧ r.payload = p.payload ∧
      p.payload.length = p.len.toNat ∧ r.body = p.crcInput
  | .footer => r.state = .ftr ∧ r.cmd = p.cmd ∧ r.len = p.len ∧ r.payload = p.payload ∧
      p.payload.length = p.len.toNat

/-- What an answer of a parser makes the reader return, if it does. -/
def ends (expectCmd : Option UInt8) : FrameParser.Answer → Option ReadResult
  | (.checksumError, _) => some (.failed "checksum mismatch")
  | (.framingError, _) => some (.failed "bad footer")
  | (.complete, some (cmd, len, payload)) =>
      if expectCmd.all fun expected => decide (cmd = expected) then some (.ok cmd len payload)
      else none
  | _ => none

theorem ends_overflow (expectCmd : Option UInt8) {answer : FrameParser.Answer}
    (h : answer.1 = .overflow) : ends expectCmd answer = none := by
  obtain ⟨result, content⟩ := answer
  subst h
  rfl

/-- One byte, of both. -/
def StepsWith (expectCmd : Option UInt8) (r : Reader) (p : Desktop.FrameParser) (b : UInt8) : Prop :=
  match ends expectCmd (p.receive b).2 with
  | some result => r.step expectCmd b = .inl result
  | none => ∃ r', r.step expectCmd b = .inr r' ∧ Follows r' (p.receive b).1

variable {expectCmd : Option UInt8} {r : Reader} {p : Desktop.FrameParser}

theorem stepsWith_more {p' : Desktop.FrameParser} {r' : Reader} {b : UInt8}
    (hfeed : p.feed b = (p', .needMore)) (hstep : r.step expectCmd b = .inr r')
    (hfollows : Follows r' p') : StepsWith expectCmd r p b := by
  rw [StepsWith, Desktop.FrameParser.receive_of_feed .needMore (by decide) hfeed]
  exact ⟨r', hstep, hfollows⟩

theorem follows_header (hstate : p.state = .header) (h : Follows r p) (b : UInt8) :
    StepsWith expectCmd r p b := by
  obtain ⟨state, cmd, len, payload, index, crcInput, frame, framesOk, framesBad, inBounds⟩ := p
  obtain ⟨rstate, rcmd, rlen, rpayload, rbody⟩ := r
  subst hstate
  obtain rfl : rstate = .hdr := h
  by_cases hb : b = kFrameHeader
  · refine stepsWith_more (by rw [Desktop.FrameParser.feed, if_pos hb])
      (by unfold Reader.step; exact congrArg Sum.inr (if_pos hb)) ?_
    exact ⟨rfl, rfl⟩
  · refine stepsWith_more (by rw [Desktop.FrameParser.feed, if_neg hb])
      (by unfold Reader.step; exact congrArg Sum.inr (if_neg hb)) ?_
    rfl

theorem follows_command (hstate : p.state = .command) (h : Follows r p) (b : UInt8) :
    StepsWith expectCmd r p b := by
  obtain ⟨state, cmd, len, payload, index, crcInput, frame, framesOk, framesBad, inBounds⟩ := p
  obtain ⟨rstate, rcmd, rlen, rpayload, rbody⟩ := r
  subst hstate
  obtain ⟨rfl, rfl⟩ : rstate = .cmd ∧ rbody = crcInput := h
  refine stepsWith_more (by rw [Desktop.FrameParser.feed]) (by rw [Reader.step]) ?_
  exact ⟨rfl, rfl, rfl⟩

theorem follows_length (hstate : p.state = .length) (h : Follows r p) (b : UInt8)
    (hroom : ¬kMaxPayload < b) : StepsWith expectCmd r p b := by
  obtain ⟨state, cmd, len, payload, index, crcInput, frame, framesOk, framesBad, inBounds⟩ := p
  obtain ⟨rstate, rcmd, rlen, rpayload, rbody⟩ := r
  subst hstate
  obtain ⟨rfl, rfl, rfl⟩ : rstate = .len ∧ rcmd = cmd ∧ rbody = crcInput := h
  by_cases hzero : b = 0
  · subst hzero
    refine stepsWith_more (by rw [Desktop.FrameParser.feed, if_neg hroom, dif_pos rfl])
      (by rw [Reader.step, if_pos rfl]) ?_
    exact ⟨rfl, rfl, rfl, rfl, rfl, rfl⟩
  · refine stepsWith_more (by rw [Desktop.FrameParser.feed, if_neg hroom, dif_neg hzero])
      (by rw [Reader.step, if_neg hzero]) ?_
    exact ⟨rfl, rfl, rfl, List.take_zero.symm, rfl⟩

theorem follows_payload (hstate : p.state = .payload) (h : Follows r p) (b : UInt8) :
    StepsWith expectCmd r p b := by
  obtain ⟨state, cmd, len, payload, index, crcInput, frame, framesOk, framesBad, inBounds⟩ := p
  obtain ⟨rstate, rcmd, rlen, rpayload, rbody⟩ := r
  subst hstate
  obtain ⟨hindex, hlength⟩ := inBounds rfl
  obtain ⟨rfl, rfl, rfl, rfl, rfl⟩ : rstate = .payload ∧ rcmd = cmd ∧ rlen = len ∧
    rpayload = payload.take index ∧ rbody = crcInput := h
  have htake : (payload.set index b).take (index + 1) = payload.take index ++ [b] := by
    rw [List.take_add_one, List.getElem?_set_self (by omega), List.take_set_of_le (le_refl _)]
    rfl
  have hcount : (payload.take index ++ [b]).length = index + 1 := by
    rw [List.length_append, List.length_take_of_le (by omega), List.length_singleton]
  by_cases hend : rlen.toNat ≤ index + 1
  · have hall : (payload.set index b).take (index + 1) = payload.set index b := by
      refine List.take_of_length_le ?_
      rw [List.length_set]
      omega
    rw [hall] at htake
    have hstep : Reader.step expectCmd ⟨.payload, rcmd, rlen, payload.take index, rbody⟩ b =
        .inr ⟨.cksum, rcmd, rlen, payload.take index ++ [b], rbody ++ [b]⟩ := by
      unfold Reader.step
      dsimp only
      rw [hcount, if_pos hend]
    refine stepsWith_more (by unfold Desktop.FrameParser.feed; dsimp only; rw [dif_pos hend])
      hstep ?_
    exact ⟨rfl, rfl, rfl, htake.symm, List.length_set.trans hlength, rfl⟩
  · have hstep : Reader.step expectCmd ⟨.payload, rcmd, rlen, payload.take index, rbody⟩ b =
        .inr ⟨.payload, rcmd, rlen, payload.take index ++ [b], rbody ++ [b]⟩ := by
      unfold Reader.step
      dsimp only
      rw [hcount, if_neg hend]
    refine stepsWith_more (by unfold Desktop.FrameParser.feed; dsimp only; rw [dif_neg hend])
      hstep ?_
    exact ⟨rfl, rfl, rfl, htake.symm, rfl⟩

theorem follows_checksum (hstate : p.state = .checksum) (h : Follows r p) (b : UInt8) :
    StepsWith expectCmd r p b := by
  obtain ⟨state, cmd, len, payload, index, crcInput, frame, framesOk, framesBad, inBounds⟩ := p
  obtain ⟨rstate, rcmd, rlen, rpayload, rbody⟩ := r
  subst hstate
  obtain ⟨rfl, rfl, rfl, rfl, hlength, rfl⟩ : rstate = .cksum ∧ rcmd = cmd ∧ rlen = len ∧
    rpayload = payload ∧ payload.length = len.toNat ∧ rbody = crcInput := h
  by_cases hb : b ≠ Desktop.Crc8.compute rbody
  · rw [StepsWith, Desktop.FrameParser.receive_of_feed .checksumError (by decide)
      (by unfold Desktop.FrameParser.feed; dsimp only; rw [if_pos hb]; rfl)]
    change Reader.step _ _ _ = _
    unfold Reader.step
    dsimp only
    rw [getCrc8_eq, if_pos hb]
  · refine stepsWith_more (by unfold Desktop.FrameParser.feed; dsimp only; rw [if_neg hb])
      (by unfold Reader.step; dsimp only; rw [getCrc8_eq, if_neg hb]) ?_
    exact ⟨rfl, rfl, rfl, rfl, hlength⟩

theorem follows_footer (hstate : p.state = .footer) (h : Follows r p) (b : UInt8) :
    StepsWith expectCmd r p b := by
  obtain ⟨state, cmd, len, payload, index, crcInput, frame, framesOk, framesBad, inBounds⟩ := p
  obtain ⟨rstate, rcmd, rlen, rpayload, rbody⟩ := r
  subst hstate
  obtain ⟨rfl, rfl, rfl, rfl, hlength⟩ : rstate = .ftr ∧ rcmd = cmd ∧ rlen = len ∧
    rpayload = payload ∧ payload.length = len.toNat := h
  by_cases hb : b ≠ kFrameFooter
  · rw [StepsWith, Desktop.FrameParser.receive_of_feed .framingError (by decide)
      (by unfold Desktop.FrameParser.feed; dsimp only; rw [if_pos hb]; rfl)]
    change Reader.step _ _ _ = _
    rw [Reader.step]
    exact if_pos hb
  · have hreceive : (Desktop.FrameParser.receive ⟨.footer, rcmd, rlen, rpayload, index, crcInput,
        frame, framesOk, framesBad, inBounds⟩ b) =
          (⟨.header, rcmd, rlen, rpayload, 0, [], some ⟨rcmd, rpayload⟩, framesOk + 1, framesBad,
            fun h => absurd h (by decide)⟩, .complete, some (rcmd, rlen, rpayload)) := by
      rw [Desktop.FrameParser.receive, Desktop.FrameParser.feed, if_neg hb]
      simp only [Desktop.FrameParser.reset, Option.map_some, Desktop.Frame.content, hlength,
        UInt8.ofNat_toNat, if_true]
    rw [StepsWith, hreceive]
    by_cases hwaits : (expectCmd.all fun expected => decide (rcmd = expected)) = true
    · simp only [ends, hwaits, if_true]
      rw [Reader.step]
      exact (if_neg hb).trans (if_pos hwaits)
    · simp only [ends, hwaits, Bool.false_eq_true, if_false]
      refine ⟨⟨.hdr, rcmd, rlen, rpayload, rbody⟩, ?_, rfl⟩
      rw [Reader.step]
      exact (if_neg hb).trans (if_neg hwaits)

theorem follows_step (h : Follows r p) (b : UInt8) (hroom : (p.receive b).2.1 ≠ .overflow) :
    StepsWith expectCmd r p b := by
  cases hstate : p.state with
  | header => exact follows_header hstate h b
  | command => exact follows_command hstate h b
  | length =>
      refine follows_length hstate h b fun hlong => hroom ?_
      obtain ⟨state, cmd, len, payload, index, crcInput, frame, framesOk, framesBad, inBounds⟩ := p
      subst hstate
      rw [Desktop.FrameParser.receive_of_feed .overflow (by decide)
        (by rw [Desktop.FrameParser.feed, if_pos hlong, Desktop.FrameParser.fail])]
  | payload => exact follows_payload hstate h b
  | checksum => exact follows_checksum hstate h b
  | footer => exact follows_footer hstate h b

/-- An answer that lets the reader read on. -/
def Quiet (expectCmd : Option UInt8) (answer : FrameParser.Answer) : Prop :=
  answer.1 ≠ .overflow ∧ ends expectCmd answer = none

theorem read_append (h : Follows r p) {before : List UInt8}
    (hquiet : ∀ answer ∈ p.answers before, Quiet expectCmd answer) :
    ∃ r', Follows r' (p.after before) ∧
      ∀ rest, r.read expectCmd (before ++ rest) = r'.read expectCmd rest := by
  induction before generalizing r p with
  | nil => exact ⟨r, h, fun _ => rfl⟩
  | cons b before ih =>
      obtain ⟨⟨hroom, hnone⟩, hlater⟩ := List.forall_mem_cons.mp hquiet
      have hstep : StepsWith expectCmd r p b := follows_step h b hroom
      rw [StepsWith, hnone] at hstep
      obtain ⟨r', hstep, hfollows⟩ := hstep
      obtain ⟨r'', hfollows', hread⟩ := ih hfollows hlater
      refine ⟨r'', hfollows', fun rest => ?_⟩
      rw [List.cons_append, Reader.read, hstep]
      exact hread rest

theorem read_ends (h : Follows r p) {before : List UInt8} {b : UInt8} {result : ReadResult}
    (hquiet : ∀ answer ∈ p.answers before, Quiet expectCmd answer)
    (hends : ends expectCmd ((p.after before).receive b).2 = some result) (rest : List UInt8) :
    r.read expectCmd (before ++ b :: rest) = (result, rest) := by
  obtain ⟨r', hfollows, hread⟩ := read_append h hquiet
  have hroom : ((p.after before).receive b).2.1 ≠ .overflow := by
    intro hoverflow
    rw [ends_overflow expectCmd hoverflow] at hends
    exact absurd hends (by simp)
  have hstep : StepsWith expectCmd r' (p.after before) b := follows_step hfollows b hroom
  rw [StepsWith, hends] at hstep
  rw [hread, Reader.read, hstep]

theorem answers_eq (bytes : List UInt8) :
    Desktop.FrameParser.new.answers bytes = FrameParser.new.answers bytes := by
  have hdesktop : Desktop.FrameParser.new.Holds [] := ⟨rfl, trivial⟩
  have hfirmware : FrameParser.new.Holds [] := ⟨rfl, trivial⟩
  exact Desktop.FrameParser.collects.outputs_eq FrameParser.collects hdesktop hfirmware bytes

theorem answer_eq (bytes : List UInt8) (b : UInt8) :
    ((Desktop.FrameParser.new.after bytes).receive b).2 =
      ((FrameParser.new.after bytes).receive b).2 := by
  have hall := answers_eq (bytes ++ [b])
  unfold Desktop.FrameParser.answers FrameParser.answers at hall
  rw [Transducer.outputs_append, Transducer.outputs_append] at hall
  exact List.singleton_inj.mp (List.append_inj' hall rfl).2

theorem follows_new : Follows .new .new := rfl

/-! ### Frames of any length -/

theorem read_payload {cmd len : UInt8} {data : List UInt8} (hdata : data ≠ [])
    {payload body : List UInt8} (hlength : (payload ++ data).length = len.toNat)
    (rest : List UInt8) :
    Reader.read expectCmd ⟨.payload, cmd, len, payload, body⟩ (data ++ rest) =
      Reader.read expectCmd ⟨.cksum, cmd, len, payload ++ data, body ++ data⟩ rest := by
  induction data generalizing payload body with
  | nil => exact absurd rfl hdata
  | cons b data ih =>
      rw [List.cons_append, Reader.read, Reader.step]
      rw [List.append_cons] at hlength
      cases data with
      | nil =>
          have hend : len.toNat ≤ (payload ++ [b]).length := by
            rw [← hlength, List.append_nil]
          simp only [hend, if_true]
          rfl
      | cons b' data =>
          have hmore : ¬len.toNat ≤ (payload ++ [b]).length := by
            rw [← hlength, List.length_append, List.length_cons]
            omega
          simp only [hmore, if_false]
          rw [ih (by simp) hlength, ← List.append_cons, ← List.append_cons]

theorem read_start (cmd len : UInt8) (bytes : List UInt8) :
    readBcmFrame expectCmd (0xAA :: cmd :: len :: bytes) =
      Reader.read expectCmd ⟨if len = 0 then .cksum else .payload, cmd, len, [], [cmd, len]⟩
        bytes := rfl

theorem read_end (hwaits : (expectCmd.all fun expected => decide (r.cmd = expected)) = true)
    (hstate : r.state = .cksum) (rest : List UInt8) :
    r.read expectCmd (getCrc8 r.body :: 0x55 :: rest) = (.ok r.cmd r.len r.payload, rest) := by
  obtain ⟨rstate, rcmd, rlen, rpayload, rbody⟩ := r
  subst hstate
  have hcheck : Reader.step expectCmd ⟨.cksum, rcmd, rlen, rpayload, rbody⟩ (getCrc8 rbody) =
      .inr ⟨.ftr, rcmd, rlen, rpayload, rbody⟩ := if_neg (not_not.mpr rfl)
  have hfooter : Reader.step expectCmd ⟨.ftr, rcmd, rlen, rpayload, rbody⟩ 0x55 =
      .inl (.ok rcmd rlen rpayload) := by
    rw [Reader.step]
    exact (if_neg (not_not.mpr rfl)).trans (if_pos hwaits)
  rw [Reader.read, hcheck]
  dsimp only
  rw [Reader.read, hfooter]

/-- What is encoded is read back, whatever its length. -/
theorem read_newBcmFrame {cmd : UInt8} {payload frame : List UInt8}
    (h : newBcmFrame cmd payload = some frame)
    (hwaits : (expectCmd.all fun expected => decide (cmd = expected)) = true) (rest : List UInt8) :
    readBcmFrame expectCmd (frame ++ rest) =
      (.ok cmd (UInt8.ofNat payload.length) payload, rest) := by
  rw [newBcmFrame, Option.ite_none_left_eq_some] at h
  obtain ⟨hbyte, hframe⟩ := h
  have hsmall : payload.length < UInt8.size := Nat.lt_succ_of_le (Nat.not_lt.mp hbyte)
  have hlength : (UInt8.ofNat payload.length).toNat = payload.length :=
    UInt8.toNat_ofNat_of_lt' hsmall
  have hbytes : frame ++ rest = 0xAA :: cmd :: UInt8.ofNat payload.length ::
      (payload ++ getCrc8 ([cmd, UInt8.ofNat payload.length] ++ payload) :: 0x55 :: rest) := by
    rw [← Option.some.inj hframe]
    simp
  rw [hbytes, read_start]
  cases payload with
  | nil => exact read_end hwaits rfl rest
  | cons b data =>
      have hzero : UInt8.ofNat (b :: data).length ≠ 0 := by
        intro hzero
        rw [hzero] at hlength
        exact absurd hlength (by simp)
      rw [if_neg hzero, read_payload (List.cons_ne_nil b data) hlength.symm]
      exact read_end hwaits rfl rest

/-- A parser does not take the length of a frame that is too long. -/
theorem answers_of_long {cmd : UInt8} {payload frame : List UInt8}
    (h : newBcmFrame cmd payload = some frame) (hlong : kMaxPayload.toNat < payload.length) :
    (FrameParser.new.answers frame)[2]? = some (.overflow, none) := by
  rw [newBcmFrame, Option.ite_none_left_eq_some] at h
  obtain ⟨hbyte, hframe⟩ := h
  have hsmall : payload.length < UInt8.size := Nat.lt_succ_of_le (Nat.not_lt.mp hbyte)
  have hover : kMaxPayload < UInt8.ofNat payload.length := by
    rw [UInt8.lt_iff_toNat_lt, UInt8.toNat_ofNat_of_lt' hsmall]
    exact hlong
  have hfail : ∀ p : FrameParser, p.state = .length →
      (p.receive (UInt8.ofNat payload.length)).2 = (.overflow, none) := by
    intro p hstate
    obtain ⟨state, f, index, crc, framesOk, framesBad, inBounds⟩ := p
    subst hstate
    rw [FrameParser.receive, FrameParser.feed, dif_pos hover]
    rfl
  rw [← Option.some.inj hframe]
  exact congrArg some (hfail _ rfl)

/-- **The check speaks the same protocol, but for a length.** It encodes a payload that fits as the
firmware does. Its reader, on any bytes, takes what the firmware's parser takes and gives up where
the parser finds an error, as long as no length is refused. A frame that is too long it would encode
and read back, and the firmware refuses it. -/
theorem talk_same_protocol :
    (∀ (cmd : UInt8) (payload : List UInt8), payload.length ≤ kMaxPayload.toNat →
        ∃ f, Desktop.Carries f cmd payload ∧ newBcmFrame cmd payload = some f.wire) ∧
      (∀ (expectCmd : Option UInt8) (before : List UInt8),
        (∀ answer ∈ FrameParser.new.answers before, Quiet expectCmd answer) →
          readBcmFrame expectCmd before = (.failed "timeout - no reply", []) ∧
            ∀ b result, ends expectCmd ((FrameParser.new.after before).receive b).2 = some result →
              ∀ rest, readBcmFrame expectCmd (before ++ b :: rest) = (result, rest)) ∧
      ∀ (cmd : UInt8) (payload frame : List UInt8), newBcmFrame cmd payload = some frame →
        kMaxPayload.toNat < payload.length →
          (∀ rest, readBcmFrame (some cmd) (frame ++ rest) =
            (.ok cmd (UInt8.ofNat payload.length) payload, rest)) ∧
          (FrameParser.new.answers frame)[2]? = some (.overflow, none) := by
  refine ⟨fun cmd payload h => ?_, fun expectCmd before hquiet => ?_, ?_⟩
  · obtain ⟨f, hf⟩ := Desktop.exists_carries cmd h
    have hlen : f.len ≤ kMaxPayload := by
      rw [UInt8.le_iff_toNat_le, hf.len]
      exact h
    have hsize : f.encodedSize ≤ kMaxFrameSize :=
      Nat.add_le_add_right (UInt8.le_iff_toNat_le.mp hlen) kFrameOverhead
    refine ⟨f, hf, ?_⟩
    rw [newBcmFrame_eq cmd h, ← Desktop.encode_of_carries hf h hsize, Line.encode_wire hlen]
  · rw [← answers_eq] at hquiet
    refine ⟨?_, fun b result hends rest => ?_⟩
    · obtain ⟨r, -, hread⟩ := read_append follows_new hquiet
      have hall := hread []
      rw [List.append_nil] at hall
      exact hall
    · rw [← answer_eq] at hends
      exact read_ends follows_new hquiet hends rest
  · intro cmd payload frame h hlong
    refine ⟨fun rest => read_newBcmFrame h ?_ rest, answers_of_long h hlong⟩
    exact decide_eq_true rfl

end Bcm.Talk
