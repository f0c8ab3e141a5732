import Bcm.Proof.FrameStreams

/-!
# Resynchronisation

After any history the parser stands at the end of a unit or inside one. Frames sent from here on are
read as frames once the parser hunts again, which it does where a unit ends. If the unit the history
left open ends with the first frame, that frame is the one further frame lost. If it does not, the
next header is swallowed as well: a damaged length may claim 32 bytes, and short frames fit several
times into that.

A pause does better than a frame: no unit left open is longer than 36 bytes, so 36 bytes of noise
end it, and nothing of the history is left.
-/

namespace Bcm.FrameParser

open Framing (Settled)

/-- Of frames sent back to back after a history, every one from the second on is returned Complete
at its last byte, with its own content. -/
def ReturnsFromSecond (history : List UInt8) (frames : List Frame) : Prop :=
  ∀ before f after, frames = before ++ f :: after → before ≠ [] →
    (new.answers (history ++ (before ++ [f]).flatMap Frame.wire)).getLast? =
      some (.complete, some f.content)

theorem settled_wires {frames : List Frame} (hlen : ∀ f ∈ frames, f.len ≤ kMaxPayload) :
    Settled frameGrammar (frames.flatMap Frame.wire) := by
  induction frames with
  | nil => exact Settled.nil
  | cons f frames ih =>
      have hfirst : Settled frameGrammar f.wire :=
        Settled.of_whole (FrameUnit.frame f (hlen f (by simp)))
      rw [List.flatMap_cons]
      exact hfirst.trans (ih fun g hg => hlen g (by simp [hg]))

/-- **What a damaged frame costs, exactly.** After a history, every frame from the second one on is
returned if and only if the history and the first frame together are whole units, so that nothing
the history left open reaches past the first frame. -/
theorem returnsFromSecond_iff (history : List UInt8) (first second : Frame) (rest : List Frame)
    (hlen : ∀ f ∈ first :: second :: rest, f.len ≤ kMaxPayload) :
    ReturnsFromSecond history (first :: second :: rest) ↔
      Settled frameGrammar (history ++ first.wire) := by
  constructor
  · intro hreturns
    have hlast := hreturns [first] second rest rfl (by simp)
    obtain ⟨pre, g, hbytes, hpre, hg, hcontent⟩ :=
      (getLast?_answers_complete_iff rfl _ second.content).mp hlast
    -- the unit that ends here is the second frame, so everything before it is whole units
    have hwire : g.wire = second.wire := Frame.wire_eq_of_content_eq hg hcontent
    have hsplit : (history ++ first.wire) ++ second.wire = pre ++ second.wire := by
      calc (history ++ first.wire) ++ second.wire
          = history ++ ([first] ++ [second]).flatMap Frame.wire := by simp
        _ = pre ++ g.wire := hbytes
        _ = pre ++ second.wire := by rw [hwire]
    rw [List.append_inj_left' hsplit rfl]
    exact hpre
  · intro hsettled before f after hframes hbefore
    cases before with
    | nil => exact absurd rfl hbefore
    | cons g before =>
        rw [List.cons_append, List.cons.injEq] at hframes
        obtain ⟨hfirst, htail⟩ := hframes
        have hmem : ∀ other ∈ before ++ f :: after, other.len ≤ kMaxPayload := by
          intro other hother
          rw [← htail] at hother
          exact hlen other (List.mem_cons_of_mem _ hother)
        have hbetween : Settled frameGrammar (before.flatMap Frame.wire) :=
          settled_wires fun other hother => hmem other (List.mem_append_left _ hother)
        refine (getLast?_answers_complete_iff rfl _ f.content).mpr
          ⟨(history ++ first.wire) ++ before.flatMap Frame.wire, f, ?_, hsettled.trans hbetween,
            hmem f (by simp), rfl⟩
        rw [← hfirst]
        simp

def heartbeat : Frame := ⟨0x0C, 0, Vector.replicate 32 0⟩

/-- A frame without payload, cut before its check, costs the next frame and no more. -/
theorem returnsFromSecond_cut :
    ReturnsFromSecond [0xAA, 0x04, 0x00] [heartbeat, heartbeat, heartbeat] := by
  have hhunting : (new.after ([0xAA, 0x04, 0x00] ++ heartbeat.wire)).state = .header := by
    decide +kernel
  have hsettled : Settled frameGrammar ([0xAA, 0x04, 0x00] ++ heartbeat.wire) :=
    (collects.holds_nil_iff (holds_nil_of_hunting rfl) _).mp (holds_nil_of_hunting hhunting)
  exact (returnsFromSecond_iff _ heartbeat heartbeat [heartbeat] (by decide)).mpr hsettled

/-- A frame of 32 payload bytes, cut after the first of them, costs more than the next frame. -/
theorem not_returnsFromSecond_truncated :
    ¬ ∀ history frames, 2 ≤ frames.length → (∀ f ∈ frames, f.len ≤ kMaxPayload) →
      ReturnsFromSecond history frames := by
  intro hall
  have hreturns := hall [0xAA, 0x04, 0x20, 0x01] [heartbeat, heartbeat] (by decide) (by decide)
  have hlast := hreturns [heartbeat] heartbeat [] rfl (by simp)
  exact absurd hlast (by decide +kernel)

/-! ### Noise resynchronises -/

theorem part_head? {w : List UInt8} (h : FramePart w) : w.head? = some kFrameHeader := by
  cases h <;> rfl

/-- Header, command, length, 32 payload bytes and the check. -/
theorem part_length {w : List UInt8} (h : FramePart w) : w.length ≤ 36 := by
  have hdata : ∀ f : Frame, f.len ≤ kMaxPayload → f.data.length ≤ 32 := by
    intro f hlen
    rw [Frame.length_data hlen]
    exact UInt8.le_iff_toNat_le.mp hlen
  cases h with
  | header => simp
  | command cmd => simp
  | payload f k hlen hk =>
      have hle := hdata f hlen
      simp only [List.length_cons, List.length_take]
      omega
  | checksum f hlen =>
      have hle := hdata f hlen
      simp only [List.length_append, List.length_cons, List.length_nil]
      omega

/-- **The parser is self-synchronising.** After any two histories and a block of at least 36 bytes
without a header, two parsers answer every further byte alike, with the same content at every
Complete. -/
theorem answers_eq_of_block (history₁ history₂ : List UInt8) {block : List UInt8}
    (hblock : 36 ≤ block.length) (hnoise : kFrameHeader ∉ block) (bytes : List UInt8) :
    (new.after (history₁ ++ block)).answers bytes =
      (new.after (history₂ ++ block)).answers bytes := by
  have hquiet : ∀ history : List UInt8, (new.after (history ++ block)).Holds [] := fun history =>
    collects.holds_nil_of_block (holds_nil_of_hunting rfl) (fun _ => part_head?)
      (fun _ => part_length) history hblock hnoise
  exact collects.outputs_eq collects (hquiet history₁) (hquiet history₂) bytes

/-- A frame cut behind its length byte, and a stream that was never begun. -/
theorem answers_eq_of_block_cut :
    (new.after ([0xAA, 0x04, 0x20] ++ List.replicate 36 0x55)).answers heartbeat.wire =
      (new.after ([] ++ List.replicate 36 0x55)).answers heartbeat.wire :=
  answers_eq_of_block _ _ (by decide) (by decide) _

-- one byte of noise less, and the footer of a full frame may still be to come
example : (new.after ([0xAA] ++ ([0x01, 0x20] ++ List.replicate 32 0x00 ++
    [Crc8.compute ([0x01, 0x20] ++ List.replicate 32 0x00)]))).state = .footer := by
  decide +kernel

end Bcm.FrameParser
