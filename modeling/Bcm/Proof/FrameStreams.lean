import Bcm.Proof.FrameGrammar

/-!
# Frames over streams

Decoding undoes encoding over any stream of noise and frames, and nothing that was not encoded is
ever accepted, nor any byte accepted twice.
-/

namespace Bcm.FrameParser

open Framing (Settled)

theorem hunting_of_holds_nil {p : FrameParser} (h : p.Holds []) : p.state = .header := by
  obtain ⟨hpending, -⟩ := h
  cases hstate : p.state with
  | header => rfl
  | _ => simp [pending, hstate] at hpending

/-! ### Decoding undoes encoding -/

/-- Outside a frame, bytes other than the header change nothing. -/
theorem answers_noise {p : FrameParser} (hp : p.state = .header) {noise : List UInt8}
    (hnoise : kFrameHeader ∉ noise) :
    p.after noise = p ∧ p.answers noise = List.replicate noise.length (.needMore, none) := by
  induction noise with
  | nil => exact ⟨rfl, rfl⟩
  | cons byte noise ih =>
      obtain ⟨hbyte, hrest⟩ := not_or.mp (mt List.mem_cons.mpr hnoise)
      obtain ⟨hafter, hanswers⟩ := ih hrest
      have hreceive : p.receive byte = (p, .needMore, none) := by
        obtain ⟨state, frame, index, crc, framesOk, framesBad, inBounds⟩ := p
        subst hp
        exact receive_of_feed .needMore (by decide) (by rw [feed, if_neg (Ne.symm hbyte)])
      constructor
      · rw [after, Transducer.final_cons, hreceive]
        exact hafter
      · rw [answers, Transducer.outputs_cons, hreceive, List.length_cons, List.replicate_succ]
        exact congrArg _ hanswers

theorem answers_wire {p : FrameParser} (hp : p.state = .header) {f : Frame}
    (hlen : f.len ≤ kMaxPayload) :
    (p.after f.wire).state = .header ∧
      p.answers f.wire =
        List.replicate (f.len.toNat + 4) (.needMore, none) ++ [(.complete, some f.content)] := by
  obtain ⟨hholds, hanswers⟩ :=
    collects.final_of_whole (holds_nil_of_hunting hp) (FrameUnit.frame f hlen)
  rw [Frame.length_wire hlen] at hanswers
  exact ⟨hunting_of_holds_nil hholds, hanswers⟩

def rejects : FeedResult → Bool
  | .checksumError | .framingError | .overflow => true
  | .needMore | .complete => false

theorem feed_counts (p : FrameParser) (byte : UInt8) :
    (p.feed byte).1.framesBad =
        (if rejects (p.feed byte).2 then p.framesBad + 1 else p.framesBad) ∧
      (p.feed byte).1.framesOk =
        (if (p.feed byte).2 = .complete then p.framesOk + 1 else p.framesOk) := by
  unfold feed
  split
  · split <;> exact ⟨rfl, rfl⟩
  · exact ⟨rfl, rfl⟩
  · split
    · exact ⟨rfl, rfl⟩
    · split <;> exact ⟨rfl, rfl⟩
  · dsimp only
    split <;> exact ⟨rfl, rfl⟩
  · split <;> exact ⟨rfl, rfl⟩
  · split <;> exact ⟨rfl, rfl⟩

theorem framesBad_after {p : FrameParser} {bytes : List UInt8}
    (h : ∀ answer ∈ p.answers bytes, rejects answer.1 = false) :
    (p.after bytes).framesBad = p.framesBad := by
  induction bytes generalizing p with
  | nil => rfl
  | cons byte bytes ih =>
      rw [answers, Transducer.outputs_cons] at h
      have hfirst : rejects (p.feed byte).2 = false := h (p.receive byte).2 (by simp)
      have hrest := ih fun answer hanswer => h answer (List.mem_cons_of_mem _ hanswer)
      have hfeed := (p.feed_counts byte).1
      rw [hfirst, if_neg (by decide)] at hfeed
      exact hrest.trans hfeed

def stream (pairs : List (List UInt8 × Frame)) : List UInt8 :=
  pairs.flatMap fun pair => pair.1 ++ pair.2.wire

def streamAnswers (pairs : List (List UInt8 × Frame)) : List Answer :=
  pairs.flatMap fun pair =>
    List.replicate (pair.1.length + pair.2.len.toNat + 4) (.needMore, none) ++
      [(.complete, some pair.2.content)]

theorem answers_stream {p : FrameParser} (hp : p.state = .header)
    {pairs : List (List UInt8 × Frame)} (hnoise : ∀ pair ∈ pairs, kFrameHeader ∉ pair.1)
    (hlen : ∀ pair ∈ pairs, pair.2.len ≤ kMaxPayload) :
    p.answers (stream pairs) = streamAnswers pairs := by
  induction pairs generalizing p with
  | nil => rfl
  | cons pair pairs ih =>
      obtain ⟨hafterNoise, hanswersNoise⟩ := answers_noise hp (hnoise pair (by simp))
      obtain ⟨hhunting, hanswersWire⟩ := answers_wire hp (hlen pair (by simp))
      have hrest := ih hhunting (fun other hother => hnoise other (by simp [hother]))
        fun other hother => hlen other (by simp [hother])
      rw [answers] at hanswersNoise hanswersWire hrest
      rw [after] at hafterNoise
      rw [stream, streamAnswers, List.flatMap_cons, List.flatMap_cons, answers,
        Transducer.outputs_append, Transducer.outputs_append, Transducer.final_append, hafterNoise,
        hanswersNoise, hanswersWire, ← List.append_assoc, ← List.replicate_add, ← Nat.add_assoc]
      exact congrArg _ hrest

/-- **Decode undoes encode.** `encode` succeeds exactly when the buffer is there, the payload fits
a frame and the frame fits the buffer, and it always writes the same bytes. A parser that is hunting
for a header answers a stream of noise and frames with each frame at its last byte and NeedMore
everywhere else, and counts no bad frame. -/
theorem decode_undoes_encode (p : FrameParser) (hp : p.state = .header)
    (pairs : List (List UInt8 × Frame)) (hnoise : ∀ pair ∈ pairs, kFrameHeader ∉ pair.1)
    (hlen : ∀ pair ∈ pairs, pair.2.len ≤ kMaxPayload) :
    (∀ (f : Frame) (out : Bool) (outSize : Nat),
        ((f.encode out outSize).isSome ↔
          out = true ∧ f.len ≤ kMaxPayload ∧ f.len.toNat + 5 ≤ outSize) ∧
        ∀ bytes, f.encode out outSize = some bytes → bytes = f.wire) ∧
      p.answers (stream pairs) = streamAnswers pairs ∧
      (p.after (stream pairs)).framesBad = p.framesBad := by
  have hanswers := answers_stream hp hnoise hlen
  refine ⟨fun f out outSize => ⟨f.encode_isSome_iff out outSize, ?_⟩, hanswers, ?_⟩
  · intro bytes hbytes
    have hsome : (f.encode out outSize).isSome := by rw [hbytes]; rfl
    obtain ⟨rfl, hfits, hsize⟩ := (f.encode_isSome_iff out outSize).mp hsome
    rw [f.encode_eq hfits hsize] at hbytes
    rw [Frame.wire_eq hfits]
    exact (Option.some.inj hbytes).symm
  · refine framesBad_after fun answer hanswer => ?_
    rw [hanswers, streamAnswers, List.mem_flatMap] at hanswer
    obtain ⟨pair, -, hmem⟩ := hanswer
    rcases List.mem_append.mp hmem with hmore | hlast
    · rw [List.eq_of_mem_replicate hmore]
      rfl
    · rw [List.mem_singleton.mp hlast]
      rfl

/-- A stream with markers inside its payloads. -/
theorem decode_undoes_encode_markers :
    let marked : Frame := ⟨0x01, 2, (Vector.replicate 32 0xAA).set 1 0x55⟩
    new.answers (stream [([0x55, 0x00], marked), ([], .new), ([0x0D], marked)]) =
      streamAnswers [([0x55, 0x00], marked), ([], .new), ([0x0D], marked)] :=
  (decode_undoes_encode new rfl _ (by decide) (by decide)).2.1

/-! ### Only encoded frames are accepted -/

/-- **Where frames are accepted.** A stream read from the hunt for a header is answered Complete
exactly when it is whole units and then the bytes of a frame. -/
theorem getLast?_answers_complete_iff {p : FrameParser} (hp : p.state = .header)
    (bytes : List UInt8) (content : FrameContent) :
    (p.answers bytes).getLast? = some (.complete, some content) ↔
      ∃ (pre : List UInt8) (f : Frame), bytes = pre ++ f.wire ∧ Settled frameGrammar pre ∧
        f.len ≤ kMaxPayload ∧ f.content = content := by
  have hiff := collects.getLast?_outputs_iff (holds_nil_of_hunting hp)
    (r := (.complete, some content)) (by simp) bytes
  rw [answers, hiff]
  constructor
  · rintro ⟨pre, w, hbytes, hpre, hunit⟩
    generalize hanswer : (FeedResult.complete, some content) = answer at hunit
    cases hunit with
    | frame f hlen =>
        obtain ⟨-, hcontent⟩ := Prod.mk.inj hanswer
        exact ⟨pre, f, hbytes, hpre, hlen, (Option.some.inj hcontent).symm⟩
    | _ => simp at hanswer
  · rintro ⟨pre, f, hbytes, hpre, hlen, rfl⟩
    exact ⟨pre, f.wire, hbytes, hpre, FrameUnit.frame f hlen⟩

/-- `feed` returns Complete at byte `i` of a stream fed to a fresh parser, and `frame()` is `f`. -/
def CompletesAt (bytes : List UInt8) (i : Nat) (f : Frame) : Prop :=
  ∃ byte, bytes[i]? = some byte ∧ ((new.after (bytes.take i)).feed byte).2 = .complete ∧
    ((new.after (bytes.take i)).feed byte).1.frame = f

theorem CompletesAt.getLast? {bytes : List UInt8} {i : Nat} {f : Frame}
    (h : CompletesAt bytes i f) :
    i < bytes.length ∧
      (new.answers (bytes.take (i + 1))).getLast? = some (.complete, some f.content) := by
  obtain ⟨byte, hbyte, hresult, hframe⟩ := h
  have hi : i < bytes.length := (List.getElem?_eq_some_iff.mp hbyte).1
  refine ⟨hi, ?_⟩
  rw [answers, ← Transducer.getElem?_outputs_eq_getLast? receive hi,
    Transducer.getElem?_outputs, hbyte, Option.map_some, receive]
  rw [after] at hresult hframe
  dsimp only
  rw [hresult, hframe, if_pos rfl]

theorem CompletesAt.exists_wire {bytes : List UInt8} {i : Nat} {f : Frame}
    (h : CompletesAt bytes i f) :
    f.len ≤ kMaxPayload ∧ ∃ pre, bytes.take (i + 1) = pre ++ f.wire ∧
      Settled frameGrammar (bytes.take (i + 1)) := by
  obtain ⟨-, hlast⟩ := h.getLast?
  obtain ⟨pre, g, htake, hpre, hlen, hcontent⟩ :=
    (getLast?_answers_complete_iff rfl _ _).mp hlast
  have hlength : g.len = f.len := congrArg (fun content => content.2.1) hcontent
  have hwire := Frame.wire_eq_of_content_eq hlen hcontent
  refine ⟨hlength ▸ hlen, pre, by rw [htake, hwire], ?_⟩
  rw [htake]
  exact hpre.append (FrameUnit.frame g hlen)

/-- **The parser accepts only its grammar.** When `feed` returns Complete at a byte with a frame,
the frame fits, and the bytes up to there end with the bytes `encode` makes of it. The next accepted
frame begins after that byte. -/
theorem completes_only_encoded {bytes : List UInt8} {i : Nat} {f : Frame}
    (h : CompletesAt bytes i f) :
    f.len ≤ kMaxPayload ∧ f.encode true kMaxFrameSize = some f.wire ∧
      f.wire.length = f.len.toNat + 5 ∧ f.wire <:+ bytes.take (i + 1) ∧
      ∀ j g, CompletesAt bytes j g → i < j → i + (g.len.toNat + 5) ≤ j := by
  obtain ⟨hlen, pre, htake, hsettled⟩ := h.exists_wire
  refine ⟨hlen, ?_, Frame.length_wire hlen, ⟨pre, htake.symm⟩, ?_⟩
  · have hsize : f.encodedSize ≤ kMaxFrameSize :=
      Nat.add_le_add_right (UInt8.le_iff_toNat_le.mp hlen) kFrameOverhead
    rw [Frame.wire_eq hlen]
    exact f.encode_eq hlen hsize
  · intro j g hg hij
    obtain ⟨hj, hlast⟩ := hg.getLast?
    -- the parser hunts again after byte `i`, so the later frame lies in what follows
    have hsplit : bytes.take (j + 1) =
        bytes.take (i + 1) ++ (bytes.drop (i + 1)).take (j - i) := by
      rw [show j + 1 = i + 1 + (j - i) by omega, List.take_add]
    have hrest : ((bytes.drop (i + 1)).take (j - i)).length = j - i := by
      rw [List.length_take, List.length_drop]
      omega
    have hhunting : (new.after (bytes.take (i + 1))).state = .header :=
      hunting_of_holds_nil (collects.holds_of_settled (holds_nil_of_hunting rfl) hsettled)
    have hanswers : (new.answers (bytes.take (j + 1))).getLast? =
        ((new.after (bytes.take (i + 1))).answers
          ((bytes.drop (i + 1)).take (j - i))).getLast? := by
      have hne : ((bytes.drop (i + 1)).take (j - i)) ≠ [] := by
        intro hnil
        rw [hnil] at hrest
        simp at hrest
        omega
      rw [hsplit, answers, Transducer.outputs_append, List.getLast?_append_of_ne_nil]
      · rfl
      · intro hnil
        have hzero := congrArg List.length hnil
        rw [Transducer.length_outputs] at hzero
        exact hne (List.eq_nil_of_length_eq_zero hzero)
    rw [hanswers] at hlast
    obtain ⟨pre', g', hwindow, -, hlen', hcontent⟩ :=
      (getLast?_answers_complete_iff hhunting _ _).mp hlast
    have hlength : g'.len = g.len := congrArg (fun content => content.2.1) hcontent
    have hwindowLength := congrArg List.length hwindow
    rw [hrest, List.length_append, Frame.length_wire hlen', hlength] at hwindowLength
    omega

/-- The first of two PING requests, behind a byte of noise. -/
theorem completes_only_encoded_two :
    let ping : Frame := ⟨0x01, 0, Vector.replicate 32 0⟩
    ping.wire <:+ ([0x00] ++ ping.wire ++ ping.wire).take 6 :=
  (completes_only_encoded ⟨kFrameFooter, by decide +kernel, by decide +kernel, by
    decide +kernel⟩).2.2.2.1

end Bcm.FrameParser
