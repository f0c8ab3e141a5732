import Bcm.Proof.FrameStreams

/-!
# One flipped bit

The bytes of a frame with one bit flipped, read by a parser that hunts for a header. A flip in CMD,
in the payload or in the check is caught by the check, and one in the footer by the footer. A flip
in HDR or in LEN makes the parser frame the remaining bytes elsewhere. Payload bytes are not
escaped, so there may be a frame there, and it is accepted if there is.
-/

namespace Bcm

def flipByte (bit : Fin 8) (byte : UInt8) : UInt8 := byte ^^^ (1 <<< UInt8.ofNat bit)

def flipBit (bytes : List UInt8) (i : Nat) (bit : Fin 8) : List UInt8 :=
  bytes.modify i (flipByte bit)

theorem flipByte_ne (bit : Fin 8) (byte : UInt8) : flipByte bit byte ≠ byte := by
  have hmask : ∀ bit : Fin 8, (1 : UInt8) <<< UInt8.ofNat bit ≠ 0 := by decide
  intro heq
  have hzero : byte ^^^ (1 <<< UInt8.ofNat bit) = byte ^^^ 0 := by
    rw [UInt8.xor_zero]
    exact heq
  exact hmask bit ((UInt8.xor_right_inj byte).mp hzero)

theorem flipBit_append (front : List UInt8) (byte : UInt8) (back : List UInt8) (bit : Fin 8) :
    flipBit (front ++ byte :: back) front.length bit = front ++ flipByte bit byte :: back := by
  induction front with
  | nil => rfl
  | cons first front ih => exact congrArg (first :: ·) ih

theorem length_flipBit (bytes : List UInt8) (i : Nat) (bit : Fin 8) :
    (flipBit bytes i bit).length = bytes.length :=
  List.length_modify ..

/-! ### Flips the check and the footer catch -/

/-- The bytes begin with a rejected unit, and nothing after it starts another. -/
def Rejected (bytes : List UInt8) : Prop :=
  ∃ u tail answer, bytes = u ++ tail ∧ FrameUnit u answer ∧ answer.1 ≠ .complete ∧
    kFrameHeader ∉ tail

theorem Rejected.not_complete {bytes : List UInt8} (h : Rejected bytes) {p : FrameParser}
    (hp : p.state = .header) : ∀ answer ∈ p.answers bytes, answer.1 ≠ .complete := by
  obtain ⟨u, tail, verdict, rfl, hunit, hverdict, htail⟩ := h
  obtain ⟨hholds, hanswers⟩ :=
    FrameParser.collects.final_of_whole (FrameParser.holds_nil_of_hunting hp) hunit
  have hhunting := FrameParser.hunting_of_holds_nil hholds
  have hnoise := (FrameParser.answers_noise hhunting htail).2
  intro answer hanswer
  rw [FrameParser.answers, Transducer.outputs_append, hanswers] at hanswer
  rw [FrameParser.answers] at hnoise
  rw [hnoise] at hanswer
  rcases List.mem_append.mp hanswer with hunit' | hafter
  · rcases List.mem_append.mp hunit' with hmore | hlast
    · rw [List.eq_of_mem_replicate hmore]
      decide
    · rw [List.mem_singleton.mp hlast]
      exact hverdict
  · rw [List.eq_of_mem_replicate hafter]
    decide

theorem footer_not_header : kFrameHeader ∉ [kFrameFooter] := by decide

theorem rejected_of_checksum_ne {f g : Frame} (hg : g.len ≤ kMaxPayload)
    (hne : f.checksum ≠ g.checksum) :
    Rejected (kFrameHeader :: g.cmd :: g.len :: g.data ++ [f.checksum, kFrameFooter]) := by
  refine ⟨kFrameHeader :: g.cmd :: g.len :: g.data ++ [f.checksum], [kFrameFooter],
    (.checksumError, none), ?_, FrameUnit.badChecksum g f.checksum hg hne, by simp,
    footer_not_header⟩
  rw [List.append_assoc]
  rfl

theorem rejected_flip_cmd {f : Frame} (hlen : f.len ≤ kMaxPayload) (bit : Fin 8) :
    Rejected (flipBit f.wire 1 bit) := by
  have hsplit : f.wire =
      [kFrameHeader] ++ f.cmd :: (f.len :: f.data ++ [f.checksum, kFrameFooter]) :=
    Frame.wire_eq hlen
  have hflip := flipBit_append [kFrameHeader] f.cmd
    (f.len :: f.data ++ [f.checksum, kFrameFooter]) bit
  rw [← hsplit] at hflip
  rw [List.length_singleton] at hflip
  rw [hflip]
  have hne : f.checksum ≠ Frame.checksum { f with cmd := flipByte bit f.cmd } :=
    Crc8.compute_ne_of_ne [] (f.len :: f.data) (flipByte_ne bit f.cmd).symm
  exact rejected_of_checksum_ne (g := { f with cmd := flipByte bit f.cmd }) hlen hne

theorem rejected_flip_payload {f : Frame} (hlen : f.len ≤ kMaxPayload) {j : Nat}
    (hj : j < f.len.toNat) (bit : Fin 8) : Rejected (flipBit f.wire (j + 3) bit) := by
  have hlength := Frame.length_data hlen
  have hbound : j < f.data.length := by omega
  have hmax : f.len.toNat ≤ 32 := UInt8.le_iff_toNat_le.mp hlen
  have hj32 : j < 32 := by omega
  have hdata : f.data = f.data.take j ++ f.data[j] :: f.data.drop (j + 1) := by
    rw [List.cons_getElem_drop_succ, List.take_append_drop]
  -- the frame that carries the flipped byte
  let g : Frame := { f with payload := f.payload.set j (flipByte bit f.data[j]) hj32 }
  have hgdata : g.data = f.data.take j ++ flipByte bit f.data[j] :: f.data.drop (j + 1) := by
    have hset : g.data = f.data.set j (flipByte bit f.data[j]) := by
      change (f.payload.set j (flipByte bit f.data[j]) hj32).toList.take f.len.toNat = _
      rw [Vector.toList_set, List.take_set]
      rfl
    rw [hset, List.set_eq_take_append_cons_drop, if_pos hbound]
  have hsplit : f.wire =
      (kFrameHeader :: f.cmd :: f.len :: f.data.take j) ++
        f.data[j] :: (f.data.drop (j + 1) ++ [f.checksum, kFrameFooter]) := by
    calc f.wire
        = kFrameHeader :: f.cmd :: f.len :: (f.data ++ [f.checksum, kFrameFooter]) :=
          Frame.wire_eq hlen
      _ = kFrameHeader :: f.cmd :: f.len ::
            ((f.data.take j ++ f.data[j] :: f.data.drop (j + 1)) ++
              [f.checksum, kFrameFooter]) := by rw [← hdata]
      _ = _ := by rw [List.append_assoc]; rfl
  have hfront : (kFrameHeader :: f.cmd :: f.len :: f.data.take j).length = j + 3 := by
    simp only [List.length_cons, List.length_take]
    omega
  have hflip := flipBit_append (kFrameHeader :: f.cmd :: f.len :: f.data.take j) f.data[j]
    (f.data.drop (j + 1) ++ [f.checksum, kFrameFooter]) bit
  rw [← hsplit, hfront] at hflip
  have hne : f.checksum ≠ g.checksum := by
    have hcheck := Crc8.compute_ne_of_ne (f.cmd :: f.len :: f.data.take j) (f.data.drop (j + 1))
      (flipByte_ne bit f.data[j]).symm
    rw [Frame.checksum, Frame.checksum, hgdata]
    rw [List.cons_append, List.cons_append, ← hdata] at hcheck
    exact hcheck
  have hrejected := rejected_of_checksum_ne (g := g) hlen hne
  rw [hgdata] at hrejected
  rw [hflip]
  simpa using hrejected

theorem rejected_flip_checksum {f : Frame} (hlen : f.len ≤ kMaxPayload) (bit : Fin 8) :
    Rejected (flipBit f.wire (f.len.toNat + 3) bit) := by
  have hlength := Frame.length_data hlen
  have hsplit : f.wire =
      (kFrameHeader :: f.cmd :: f.len :: f.data) ++ f.checksum :: [kFrameFooter] :=
    Frame.wire_eq hlen
  have hfront : (kFrameHeader :: f.cmd :: f.len :: f.data).length = f.len.toNat + 3 := by
    simp only [List.length_cons]
    omega
  have hflip := flipBit_append (kFrameHeader :: f.cmd :: f.len :: f.data) f.checksum
    [kFrameFooter] bit
  rw [← hsplit, hfront] at hflip
  rw [hflip]
  refine ⟨kFrameHeader :: f.cmd :: f.len :: f.data ++ [flipByte bit f.checksum], [kFrameFooter],
    (.checksumError, none), ?_,
    FrameUnit.badChecksum f (flipByte bit f.checksum) hlen (flipByte_ne bit f.checksum), by simp,
    footer_not_header⟩
  rw [List.append_assoc]
  rfl

theorem rejected_flip_footer {f : Frame} (hlen : f.len ≤ kMaxPayload) (bit : Fin 8) :
    Rejected (flipBit f.wire (f.len.toNat + 4) bit) := by
  have hlength := Frame.length_data hlen
  have hsplit : f.wire =
      (kFrameHeader :: f.cmd :: f.len :: f.data ++ [f.checksum]) ++ kFrameFooter :: [] := by
    rw [Frame.wire_eq hlen, List.append_assoc]
    rfl
  have hfront : (kFrameHeader :: f.cmd :: f.len :: f.data ++ [f.checksum]).length =
      f.len.toNat + 4 := by
    simp only [List.length_append, List.length_cons, List.length_nil]
    omega
  have hflip := flipBit_append (kFrameHeader :: f.cmd :: f.len :: f.data ++ [f.checksum])
    kFrameFooter [] bit
  rw [← hsplit, hfront] at hflip
  rw [hflip]
  refine ⟨_, [], (.framingError, none), ?_,
    FrameUnit.badFooter f (flipByte bit kFrameFooter) hlen (flipByte_ne bit kFrameFooter),
    by simp, by simp⟩
  rw [List.append_nil, List.append_assoc]
  rfl

theorem rejected_flip {f : Frame} (hlen : f.len ≤ kMaxPayload) {i : Nat}
    (hi : i < f.len.toNat + 5) (hheader : i ≠ 0) (hlength : i ≠ 2) (bit : Fin 8) :
    Rejected (flipBit f.wire i bit) := by
  by_cases hcmd : i = 1
  · rw [hcmd]
    exact rejected_flip_cmd hlen bit
  · by_cases hpayload : i < f.len.toNat + 3
    · obtain ⟨j, rfl⟩ : ∃ j, i = j + 3 := ⟨i - 3, by omega⟩
      exact rejected_flip_payload hlen (by omega) bit
    · by_cases hchecksum : i = f.len.toNat + 3
      · rw [hchecksum]
        exact rejected_flip_checksum hlen bit
      · have hfooter : i = f.len.toNat + 4 := by omega
        rw [hfooter]
        exact rejected_flip_footer hlen bit

/-! ### Flips that frame the bytes elsewhere -/

/-- What is left to be a frame after a flip in HDR or LEN is shorter than the frame was. -/
theorem shorter_of_wire {f g : Frame} (hf : f.len ≤ kMaxPayload) (hg : g.len ≤ kMaxPayload)
    {i : Nat} (hi : i = 0 ∨ i = 2) {bit : Fin 8} {k : Nat} {pre : List UInt8}
    (htake : (flipBit f.wire i bit).take (k + 1) = pre ++ g.wire) : g.len < f.len := by
  have hlength : pre.length + (g.len.toNat + 5) ≤ f.len.toNat + 5 := by
    have htotal := congrArg List.length htake
    rw [List.length_append, Frame.length_wire hg, List.length_take, length_flipBit,
      Frame.length_wire hf] at htotal
    omega
  have hwireF := Frame.wire_eq hf
  have hwireG := Frame.wire_eq hg
  cases pre with
  | cons first pre =>
      rw [List.length_cons] at hlength
      exact UInt8.lt_iff_toNat_lt.mpr (by omega)
  | nil =>
      rw [List.nil_append] at htake
      have hbyte : ∀ j, j < g.len.toNat + 5 → (flipBit f.wire i bit)[j]? = g.wire[j]? := by
        intro j hj
        rw [← htake, List.getElem?_take]
        have hlast : (g.wire).length ≤ k + 1 := by
          rw [← htake, List.length_take]
          omega
        rw [Frame.length_wire hg] at hlast
        rw [if_pos (by omega)]
      rcases hi with rfl | rfl
      · -- the first byte is no header, so no frame starts there
        have hfirst := hbyte 0 (by omega)
        rw [hwireF, hwireG] at hfirst
        exact absurd (Option.some.inj hfirst) (flipByte_ne bit kFrameHeader)
      · have hthird := hbyte 2 (by omega)
        rw [hwireF, hwireG] at hthird
        have hlen : flipByte bit f.len = g.len := Option.some.inj hthird
        have hne : g.len.toNat ≠ f.len.toNat := by
          intro heq
          exact flipByte_ne bit f.len (hlen.trans (UInt8.toNat_inj.mp heq))
        rw [List.length_nil] at hlength
        exact UInt8.lt_iff_toNat_lt.mpr (by omega)

/-- **What one flipped bit can do.** The parser answers Complete at a byte of a frame with one bit
flipped exactly when the flip is in HDR or LEN and the bytes up to there are whole units followed by
the bytes of a shorter frame. -/
theorem complete_flip_iff {f : Frame} (hlen : f.len ≤ kMaxPayload) {i : Nat}
    (hi : i < f.len.toNat + 5) (bit : Fin 8) {p : FrameParser} (hp : p.state = .header) (k : Nat) :
    (∃ content, (p.answers (flipBit f.wire i bit))[k]? = some (.complete, content)) ↔
      (i = 0 ∨ i = 2) ∧ k < f.len.toNat + 5 ∧
        ∃ (pre : List UInt8) (g : Frame), (flipBit f.wire i bit).take (k + 1) = pre ++ g.wire ∧
          Framing.Settled frameGrammar pre ∧ g.len < f.len := by
  have hlength : (flipBit f.wire i bit).length = f.len.toNat + 5 := by
    rw [length_flipBit, Frame.length_wire hlen]
  constructor
  · rintro ⟨content, hanswer⟩
    have hplace : i = 0 ∨ i = 2 := by
      by_contra helse
      obtain ⟨hheader, hnotLen⟩ := not_or.mp helse
      have hrejected := rejected_flip hlen hi hheader hnotLen bit
      exact hrejected.not_complete hp _ (List.mem_of_getElem? hanswer) rfl
    have hk : k < (flipBit f.wire i bit).length := by
      have hbound := (List.getElem?_eq_some_iff.mp hanswer).1
      rwa [FrameParser.answers, Transducer.length_outputs] at hbound
    rw [FrameParser.answers, Transducer.getElem?_outputs_eq_getLast? _ hk] at hanswer
    cases content with
    | none =>
        obtain ⟨pre, w, -, -, hunit⟩ := (FrameParser.collects.getLast?_outputs_iff
          (FrameParser.holds_nil_of_hunting hp) (by simp) _).mp hanswer
        change FrameUnit w (.complete, none) at hunit
        cases hunit
    | some content =>
        obtain ⟨pre, g, htake, hpre, hg, -⟩ :=
          (FrameParser.getLast?_answers_complete_iff hp _ content).mp hanswer
        exact ⟨hplace, hlength ▸ hk, pre, g, htake, hpre, shorter_of_wire hlen hg hplace htake⟩
  · rintro ⟨-, hk, pre, g, htake, hpre, hshorter⟩
    have hg : g.len ≤ kMaxPayload := UInt8.le_trans (UInt8.le_of_lt hshorter) hlen
    refine ⟨some g.content, ?_⟩
    rw [FrameParser.answers, Transducer.getElem?_outputs_eq_getLast? _ (by omega)]
    exact (FrameParser.getLast?_answers_complete_iff hp _ g.content).mpr
      ⟨pre, g, htake, hpre, hg, rfl⟩

/-- A frame whose payload spells out a PING request. -/
def carrier : Frame where
  cmd := 0x01
  len := 5
  payload :=
    ((((Vector.replicate 32 0).setIfInBounds 0 0xAA).setIfInBounds 1 0x01).setIfInBounds 3
      0x15).setIfInBounds 4 0x55

/-- A flip in the payload of the carrier is caught at its last byte as at any other. -/
theorem complete_flip_carrier :
    ¬ ∃ content, (FrameParser.new.answers (flipBit carrier.wire 3 0))[9]? =
      some (.complete, content) := by
  have hiff := complete_flip_iff (f := carrier) (by decide) (i := 3) (by decide) 0
    (p := FrameParser.new) rfl 9
  intro hcomplete
  obtain ⟨hplace, -⟩ := hiff.mp hcomplete
  exact absurd hplace (by decide)

/-- Without its header the carrier is noise and then the PING it carries. -/
theorem flip_accepted :
    ¬ ∀ (f : Frame) (i : Nat) (bit : Fin 8) (p : FrameParser), f.len ≤ kMaxPayload →
      i < f.len.toNat + 5 → p.state = .header →
      ∀ answer ∈ p.answers (flipBit f.wire i bit), answer.1 ≠ .complete := by
  intro hall
  have haccepted : (FeedResult.complete, some (0x01, 0x00, [])) ∈
      FrameParser.new.answers (flipBit carrier.wire 0 0) := by decide +kernel
  exact hall carrier 0 0 .new (by decide) (by decide) rfl _ haccepted rfl

end Bcm
