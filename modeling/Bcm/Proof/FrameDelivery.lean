import Bcm.Proof.FrameStreams

/-!
# Frames on the way

What a parser makes of a stream of frames that is cut anywhere: the frames whose last byte is there,
in order, and nothing of the one that is cut.
-/

namespace Bcm.FrameParser

/-- The frames a parser completes, each as `frame()` has it right after. -/
def frames (p : FrameParser) : List UInt8 → List Frame
  | [] => []
  | byte :: bytes =>
      let (p', result) := p.feed byte
      if result = .complete then p'.frame :: p'.frames bytes else p'.frames bytes

theorem frames_cons (p : FrameParser) (byte : UInt8) (bytes : List UInt8) :
    p.frames (byte :: bytes) =
      p.frames [byte] ++ (p.feed byte).1.frames bytes := by
  simp only [frames]
  split
  · rfl
  · rfl

theorem frames_append (p : FrameParser) (xs ys : List UInt8) :
    p.frames (xs ++ ys) = p.frames xs ++ (p.after xs).frames ys := by
  induction xs generalizing p with
  | nil => rfl
  | cons byte xs ih =>
      rw [List.cons_append, frames_cons p byte (xs ++ ys), frames_cons p byte xs, ih,
        List.append_assoc]
      rfl

/-- The frames are what the answers tell of. -/
theorem content_frames (p : FrameParser) (bytes : List UInt8) :
    (p.frames bytes).map Frame.content = (p.answers bytes).filterMap (·.2) := by
  induction bytes generalizing p with
  | nil => rfl
  | cons byte bytes ih =>
      have hrest := ih (p.feed byte).1
      have hanswers : p.answers (byte :: bytes) =
          ((p.receive byte).2 :: (p.feed byte).1.answers bytes) := rfl
      rw [hanswers, frames]
      unfold receive
      dsimp only
      split
      · rw [List.map_cons, hrest]
        rfl
      · exact hrest

theorem frames_eq_nil {p : FrameParser} {bytes : List UInt8}
    (h : ∀ answer ∈ p.answers bytes, answer = (.needMore, none)) : p.frames bytes = [] := by
  apply List.map_eq_nil_iff.mp
  rw [content_frames]
  apply List.filterMap_eq_nil_iff.mpr
  intro answer hanswer
  rw [h answer hanswer]

/-- No parser completes a frame that is too long. -/
theorem len_of_mem_frames {p : FrameParser} (hp : p.state = .header) {bytes : List UInt8}
    {f : Frame} (hf : f ∈ p.frames bytes) : f.len ≤ kMaxPayload := by
  have hcontent : f.content ∈ (p.answers bytes).filterMap (·.2) := by
    rw [← content_frames]
    exact List.mem_map_of_mem hf
  obtain ⟨answer, hanswer, hsome⟩ := List.mem_filterMap.mp hcontent
  rcases collects.mem_outputs (holds_nil_of_hunting hp) hanswer with rfl | ⟨w, hunit⟩
  · exact absurd hsome (by simp)
  · cases hunit with
    | frame g hlen =>
        have hsame : g.len = f.len := congrArg (·.2.1) (Option.some.inj hsome)
        rwa [← hsame]
    | _ => simp at hsome

theorem needMore_of_wire {p : FrameParser} (hp : p.state = .header) {f : Frame}
    (hlen : f.len ≤ kMaxPayload) {part : List UInt8} (hpart : part <+: f.wire)
    (hshort : part.length < f.wire.length) :
    ∀ answer ∈ p.answers part, answer = (.needMore, none) := by
  obtain ⟨back, hsplit⟩ := hpart
  have hwire := (answers_wire hp hlen).2
  rw [← hsplit, answers, Transducer.outputs_append] at hwire
  have hlength : (p.answers part).length < f.len.toNat + 5 := by
    rw [answers, Transducer.length_outputs, ← Frame.length_wire hlen]
    exact hshort
  -- the one answer that is not NeedMore is the last of the whole frame
  have hanswers := hwire ▸ List.prefix_append (p.answers part) _
  have hpart : p.answers part <+: List.replicate (f.len.toNat + 4) (.needMore, none) := by
    apply List.prefix_of_prefix_length_le hanswers (List.prefix_append _ _)
    rw [List.length_replicate]
    omega
  intro answer hanswer
  exact List.eq_of_mem_replicate (hpart.subset hanswer)

theorem frames_wire {p : FrameParser} (hp : p.state = .header) {f : Frame}
    (hlen : f.len ≤ kMaxPayload) :
    (p.frames f.wire).map Frame.content = [f.content] ∧
      (p.after f.wire).framesBad = p.framesBad := by
  have hanswers := (answers_wire hp hlen).2
  constructor
  · rw [content_frames, hanswers, List.filterMap_append, List.filterMap_replicate]
    rfl
  · refine framesBad_after fun answer hanswer => ?_
    rw [hanswers] at hanswer
    rcases List.mem_append.mp hanswer with hmore | hlast
    · rw [List.eq_of_mem_replicate hmore]
      rfl
    · rw [List.mem_singleton.mp hlast]
      rfl

theorem frames_wires {p : FrameParser} (hp : p.state = .header) {sent : List Frame}
    (hlen : ∀ f ∈ sent, f.len ≤ kMaxPayload) :
    (p.frames (sent.flatMap Frame.wire)).map Frame.content = sent.map Frame.content := by
  induction sent generalizing p with
  | nil => rfl
  | cons f sent ih =>
      have hfits := hlen f (by simp)
      have hhunting := (answers_wire hp hfits).1
      rw [List.flatMap_cons, frames_append, List.map_append, (frames_wire hp hfits).1,
        ih hhunting fun g hg => hlen g (by simp [hg])]
      rfl

/-- The bytes hold the frames of a list up to somewhere, whole ones and the beginning of another,
and the parser gives just the whole ones and counts nothing bad. -/
def DeliversWhole (p : FrameParser) (sent : List Frame) (bytes : List UInt8) : Prop :=
  ∃ done rest part, sent = done ++ rest ∧ bytes = done.flatMap Frame.wire ++ part ∧
    (part = [] ∨ ∃ f ∈ rest.head?, part <+: f.wire ∧ part.length < f.wire.length) ∧
    (p.frames bytes).map Frame.content = done.map Frame.content ∧
    (p.after bytes).framesBad = p.framesBad

/-- **A stream of frames may be cut anywhere.** -/
theorem deliversWhole {p : FrameParser} (hp : p.state = .header) {sent : List Frame}
    (hlen : ∀ f ∈ sent, f.len ≤ kMaxPayload) {bytes : List UInt8}
    (hcut : bytes <+: sent.flatMap Frame.wire) : p.DeliversWhole sent bytes := by
  induction sent generalizing p bytes with
  | nil =>
      rw [List.flatMap_nil, List.prefix_nil] at hcut
      rw [hcut]
      exact ⟨[], [], [], rfl, rfl, Or.inl rfl, rfl, rfl⟩
  | cons f sent ih =>
      have hfits := hlen f (by simp)
      rw [List.flatMap_cons] at hcut
      by_cases hshort : bytes.length < f.wire.length
      · have hpart : bytes <+: f.wire :=
          List.prefix_of_prefix_length_le hcut (List.prefix_append _ _) hshort.le
        have hmore := needMore_of_wire hp hfits hpart hshort
        refine ⟨[], f :: sent, bytes, rfl, rfl, Or.inr ⟨f, rfl, hpart, hshort⟩, ?_, ?_⟩
        · rw [frames_eq_nil hmore]
        · refine framesBad_after fun answer hanswer => ?_
          rw [hmore answer hanswer]
          rfl
      · obtain ⟨back, rfl⟩ : f.wire <+: bytes :=
          List.prefix_of_prefix_length_le (List.prefix_append _ _) hcut (Nat.le_of_not_lt hshort)
        have hback : back <+: sent.flatMap Frame.wire :=
          (List.prefix_append_right_inj f.wire).mp hcut
        obtain ⟨hframes, hbad⟩ := frames_wire hp hfits
        obtain ⟨done, rest, part, rfl, rfl, hpart, hdone, hgood⟩ :=
          ih (answers_wire hp hfits).1 (fun g hg => hlen g (by simp [hg])) hback
        refine ⟨f :: done, rest, part, rfl, ?_, hpart, ?_, ?_⟩
        · rw [List.flatMap_cons, List.append_assoc]
        · rw [frames_append, List.map_append, hframes, hdone]
          rfl
        · rw [after, Transducer.final_append]
          exact hgood.trans hbad

end Bcm.FrameParser
