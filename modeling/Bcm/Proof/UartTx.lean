import Bcm.Line
import Bcm.Proof.FrameDelivery

/-!
# The transmit queue

Whoever writes, and whenever the interrupt takes a byte, what was accepted is what has gone out and
what is still queued. A write is accepted whole, so where the writes are frames no frame on the wire
is missing a piece or holds a piece of another.
-/

namespace Bcm

namespace Uart

theorem pushAll_contents {tx : RingBuffer UInt8 kTxCapacity} {bytes : List UInt8}
    (hroom : tx.count + bytes.length ≤ kTxCapacity) :
    (pushAll tx bytes).contents = tx.contents ++ bytes := by
  induction bytes generalizing tx with
  | nil => exact (List.append_nil _).symm
  | cons byte bytes ih =>
      rw [List.length_cons] at hroom
      obtain ⟨-, hpushed⟩ := RingBuffer.push_of_room (b := tx) (by omega) byte
      have hcount : (tx.push byte).2.count = tx.count + 1 := by
        rw [← RingBuffer.length_contents, hpushed, List.length_append,
          RingBuffer.length_contents, List.length_singleton]
      change (pushAll (tx.push byte).2 bytes).contents = _
      rw [ih (by omega), hpushed, List.append_assoc, List.singleton_append]

/-- A write puts all its bytes behind the others and says so, or says no and changes nothing. -/
def WritesWhole (u : Uart) (data : Option (List UInt8)) : Prop :=
  u.write data = (false, u) ∨
    ∃ bytes tx txeEnabled, data = some bytes ∧
      u.write data = (true, { u with tx := tx, txeEnabled := txeEnabled }) ∧
      tx.contents = u.tx.contents ++ bytes ∧
      (txeEnabled = true ∨ bytes = [] ∧ txeEnabled = u.txeEnabled)

theorem writesWhole (u : Uart) (data : Option (List UInt8)) : u.WritesWhole data := by
  cases data with
  | none => exact Or.inl rfl
  | some bytes =>
      unfold WritesWhole write
      dsimp only
      split_ifs with hinit hnone hlong hfull
      · exact Or.inl rfl
      · rw [List.length_eq_zero_iff] at hnone
        rw [hnone]
        exact Or.inr ⟨[], u.tx, u.txeEnabled, rfl, rfl, (List.append_nil _).symm, Or.inr ⟨rfl, rfl⟩⟩
      · exact Or.inl rfl
      · exact Or.inl rfl
      · have hcount := u.tx.count_le
        have hroom : u.tx.count + bytes.length ≤ kTxCapacity := by
          rw [RingBuffer.size] at hfull
          omega
        exact Or.inr ⟨bytes, _, true, rfl, rfl, pushAll_contents hroom, Or.inl rfl⟩

/-- The transmit interrupt is on while there is something to send. -/
def Draining (u : Uart) : Prop := u.tx.contents ≠ [] → u.txeEnabled = true

@[simp]
theorem receiveByte_tx (u : Uart) (received : Option UInt8) :
    (u.receiveByte received).tx = u.tx ∧ (u.receiveByte received).txeEnabled = u.txeEnabled := by
  cases received with
  | none => exact ⟨rfl, rfl⟩
  | some byte =>
      unfold receiveByte
      dsimp only
      split
      · exact ⟨rfl, rfl⟩
      · exact ⟨rfl, rfl⟩

/-- One interrupt with the transmit register empty is one pop, and any other leaves the queue. -/
theorem transmitByte_cases {u : Uart} (h : u.Draining) (txEmpty : Bool) :
    (u.transmitByte txEmpty).1.toList ++ (u.transmitByte txEmpty).2.tx.contents = u.tx.contents ∧
      (txEmpty = true → (u.transmitByte txEmpty).1 = u.tx.contents.head?) ∧
      (u.transmitByte txEmpty).2.Draining := by
  obtain ⟨hpop, hrest⟩ := u.tx.pop_contents
  have hsplit : u.tx.contents.head?.toList ++ u.tx.contents.tail = u.tx.contents := by
    cases u.tx.contents with
    | nil => rfl
    | cons byte rest => rfl
  unfold transmitByte
  split
  case isTrue hsends =>
    obtain ⟨-, henabled⟩ := Bool.and_eq_true_iff.mp hsends
    rcases hp : u.tx.pop with ⟨got, tx⟩
    rw [hp] at hpop hrest
    dsimp only at hpop hrest
    cases got with
    | some byte =>
        dsimp only
        rw [hpop, hrest]
        exact ⟨hsplit, fun _ => rfl, fun _ => henabled⟩
    | none =>
        have hnil : u.tx.contents = [] := List.head?_eq_none_iff.mp hpop.symm
        dsimp only
        refine ⟨by rw [hrest, hnil]; rfl, fun _ => hpop, fun hmore => ?_⟩
        exact absurd (by rw [hrest, hnil]; rfl) hmore
  case isFalse hidle =>
    refine ⟨rfl, fun hempty => ?_, h⟩
    have hoff : ¬u.txeEnabled = true := fun hon => hidle (by rw [hempty, hon]; rfl)
    have hnil : u.tx.contents = [] := not_not.mp fun hmore => hoff (h hmore)
    rw [hnil]
    rfl

theorem onIrq_cases {u : Uart} (h : u.Draining) (irq : Irq) :
    (u.onIrq irq).1.toList ++ (u.onIrq irq).2.tx.contents = u.tx.contents ∧
      (irq.txEmpty = true → (u.onIrq irq).1 = u.tx.contents.head?) ∧ (u.onIrq irq).2.Draining := by
  obtain ⟨htx, henabled⟩ := u.receiveByte_tx irq.received
  have hdraining : (u.receiveByte irq.received).Draining := by
    unfold Draining
    rw [htx, henabled]
    exact h
  have hsent := transmitByte_cases hdraining irq.txEmpty
  rw [htx] at hsent
  unfold onIrq
  dsimp only
  split
  · exact hsent
  · exact hsent

theorem read_tx (u : Uart) :
    u.read.2.tx = u.tx ∧ u.read.2.txeEnabled = u.txeEnabled := by
  unfold read
  split
  · exact ⟨rfl, rfl⟩
  · exact ⟨rfl, rfl⟩

end Uart

/-! ### The tasks and the interrupt -/

namespace Line

theorem exec_write {line : Line} {data : Option (List UInt8)} {taken : Bool} {uart : Uart}
    (h : line.uart.write data = (taken, uart)) :
    line.exec (.write data) =
      ⟨uart, line.emitted, if taken then line.accepted ++ data.toList else line.accepted⟩ := by
  simp only [exec, h]

/-- Nothing is lost, doubled or out of order, and what is queued is on its way. -/
structure Sound (line : Line) : Prop where
  bytes : line.emitted ++ line.uart.tx.contents = line.accepted.flatten
  draining : line.uart.Draining

theorem sound_start (u : Uart) : (start u).Sound where
  bytes := rfl
  draining := fun h => absurd rfl h

theorem sound_exec {line : Line} (h : line.Sound) (op : UartOp) : (line.exec op).Sound := by
  cases op with
  | write data =>
      rcases line.uart.writesWhole data with hno | ⟨bytes, tx, enabled, rfl, hyes, hcontents, hon⟩
      · rw [exec_write hno]
        exact ⟨h.bytes, h.draining⟩
      · rw [exec_write hyes]
        constructor
        · calc line.emitted ++ tx.contents
              = line.emitted ++ line.uart.tx.contents ++ bytes := by
                rw [hcontents, List.append_assoc]
            _ = line.accepted.flatten ++ bytes := by rw [h.bytes]
            _ = (line.accepted ++ [bytes]).flatten := by
                rw [List.flatten_append, List.flatten_singleton]
        · intro hmore
          rcases hon with hon | ⟨rfl, hsame⟩
          · exact hon
          · refine hsame.trans (h.draining ?_)
            rwa [hcontents, List.append_nil] at hmore
  | irq irq =>
      obtain ⟨hsplit, -, hdraining⟩ := Uart.onIrq_cases h.draining irq
      refine ⟨?_, hdraining⟩
      calc line.emitted ++ (line.uart.onIrq irq).1.toList ++ (line.uart.onIrq irq).2.tx.contents
          = line.emitted ++ line.uart.tx.contents := by rw [List.append_assoc, hsplit]
        _ = line.accepted.flatten := h.bytes
  | read =>
      obtain ⟨htx, henabled⟩ := line.uart.read_tx
      constructor
      · change line.emitted ++ line.uart.read.2.tx.contents = line.accepted.flatten
        rw [htx]
        exact h.bytes
      · intro hmore
        change line.uart.read.2.txeEnabled = true
        rw [henabled]
        apply h.draining
        rwa [← htx]
  | takeOverrun => exact ⟨h.bytes, h.draining⟩

theorem sound_run (u : Uart) (ops : List UartOp) : (run u ops).Sound := by
  have hreach : Runs.Reachable exec (start u) (fun _ => True) (run u ops) :=
    ⟨ops, fun _ _ => trivial, rfl⟩
  exact hreach.invariant (sound_start u) fun _ op _ h => sound_exec h op

end Line

theorem Uart.onIrq_pops {u : Uart} (h : u.Draining) {irq : Irq} (hempty : irq.txEmpty = true) :
    (u.onIrq irq).1 = u.tx.contents.head? ∧ (u.onIrq irq).2.tx.contents = u.tx.contents.tail := by
  obtain ⟨hsplit, hsent, -⟩ := onIrq_cases h irq
  refine ⟨hsent hempty, ?_⟩
  rw [hsent hempty] at hsplit
  cases hcontents : u.tx.contents with
  | nil =>
      rw [hcontents] at hsplit
      exact hsplit
  | cons byte rest =>
      rw [hcontents] at hsplit
      exact (List.cons.inj hsplit).2

/-- Blocks that are encoded frames are the wires of frames that fit. -/
theorem FrameParser.wires_of_encoded {blocks : List (List UInt8)} {sent : List Frame}
    (h : blocks.map some = sent.map (·.encode true kMaxFrameSize)) :
    (∀ f ∈ sent, f.len ≤ kMaxPayload) ∧ blocks = sent.map Frame.wire := by
  constructor
  · intro f hf
    have hmem : f.encode true kMaxFrameSize ∈ blocks.map some := by
      rw [h]
      exact List.mem_map_of_mem hf
    obtain ⟨block, -, hblock⟩ := List.mem_map.mp hmem
    exact ((f.encode_isSome_iff true kMaxFrameSize).mp (by rw [← hblock]; rfl)).2.1
  · calc blocks = (blocks.map some).map (·.getD []) := by
          rw [List.map_map]
          exact (List.map_id blocks).symm
      _ = sent.map Frame.wire := by
          rw [h, List.map_map]
          rfl

/-- **Only whole frames reach the wire.** At any point of any interleaving a write is taken whole or
not at all, one interrupt sends the oldest byte of the queue, and what went out with what is queued
is what was accepted. Where every accepted write is an encoded frame, a hunting parser makes of what
went out just the frames that are out whole, and of all that was accepted once the queue is empty. -/
theorem whole_frames_reach_the_wire (u : Uart) (ops : List UartOp) :
    (∀ data, (Line.run u ops).uart.WritesWhole data) ∧
      (∀ irq : Uart.Irq, irq.txEmpty = true →
        ((Line.run u ops).uart.onIrq irq).1 = (Line.run u ops).uart.tx.contents.head? ∧
        ((Line.run u ops).uart.onIrq irq).2.tx.contents =
          (Line.run u ops).uart.tx.contents.tail) ∧
      (Line.run u ops).emitted ++ (Line.run u ops).uart.tx.contents =
        (Line.run u ops).accepted.flatten ∧
      ∀ (p : FrameParser) (sent : List Frame), p.state = .header →
        (Line.run u ops).accepted.map some = sent.map (·.encode true kMaxFrameSize) →
        p.DeliversWhole sent (Line.run u ops).emitted ∧
        ((Line.run u ops).uart.tx.contents = [] →
          (p.frames (Line.run u ops).emitted).map Frame.content = sent.map Frame.content) := by
  have hsound := Line.sound_run u ops
  refine ⟨fun data => Uart.writesWhole _ data, fun irq => Uart.onIrq_pops hsound.draining,
    hsound.bytes, ?_⟩
  intro p sent hp hsent
  obtain ⟨hfits, hblocks⟩ := FrameParser.wires_of_encoded hsent
  have hstream : (Line.run u ops).emitted ++ (Line.run u ops).uart.tx.contents =
      sent.flatMap Frame.wire := by
    rw [hsound.bytes, hblocks, List.flatMap_def]
  constructor
  · apply FrameParser.deliversWhole hp hfits
    rw [← hstream]
    exact List.prefix_append _ _
  · intro hdrained
    rw [hdrained, List.append_nil] at hstream
    rw [hstream]
    exact FrameParser.frames_wires hp hfits

/-- A reply and a second one written while the first is going out. -/
theorem whole_frames_reach_the_wire_two :
    let tick : UartOp := .irq ⟨none, true, false⟩
    let first := Frame.new.encode true kMaxFrameSize
    let second := (makeStatusResponse 0x01 .ok).encode true kMaxFrameSize
    let u := Uart.new (Vector.replicate kTxCapacity 0) (Vector.replicate kRxCapacity 0)
    FrameParser.new.DeliversWhole [.new, makeStatusResponse 0x01 .ok]
      (Line.run u [.write first, tick, tick, .write second, tick, tick, tick, tick]).emitted :=
  ((whole_frames_reach_the_wire _ _).2.2.2 .new [.new, makeStatusResponse 0x01 .ok] rfl
    (by decide +kernel)).1

end Bcm
