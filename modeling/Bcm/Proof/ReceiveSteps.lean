import Bcm.UartSteps

/-!
# The race on the receive queue

`push` and `pop` both read, change and write `count_`. A byte that comes in between the load and the
store of the one in `pop` is in the array, and the head is past it, but the count that is stored does
not tell. The reader is one byte further behind from then on, and nothing makes up for it.
-/

namespace Bcm

theorem kRxCapacity_pos : 0 < kRxCapacity := by decide

namespace RxQueue

@[simp]
theorem next_val (i : Fin kRxCapacity) : (next i).val = (i.val + 1) % kRxCapacity :=
  rfl

theorem push_of_room {q : RxQueue} (h : q.count < kRxCapacity) (item : UInt8) :
    q.push item =
      (true,
        { q with
          buf := q.buf.set q.head item q.head.isLt, head := next q.head, count := q.count + 1 }) :=
  if_neg (Nat.not_le.mpr h)

end RxQueue

/-- What the count is once the reader is through. -/
def Reader.countLeft (count : Nat) : Reader → Nat
  | .advanced _ => count - 1
  | .loaded _ count => count - 1
  | _ => count

/-- The byte that the reader has taken off the queue and not returned yet. -/
def Reader.inHand : Reader → List UInt8
  | .advanced byte | .loaded byte _ => [byte]
  | .popped got => got.toList
  | _ => []

/-- What is received while the count is loaded and not stored. -/
def Reader.hides (received : Option UInt8) : Reader → List UInt8
  | .loaded _ _ => received.toList
  | _ => []

namespace UartSteps

/-- What the reader finds in the queue. -/
def contents (s : UartSteps) : List UInt8 :=
  Ring.window kRxCapacity_pos s.rx.buf s.rx.tail (s.reader.countLeft s.rx.count)

/-- The byte that comes in while the reader has the count loaded. -/
def hides (s : UartSteps) : Action → List UInt8
  | .irq irq => s.reader.hides irq.received
  | _ => []

/-- Fewer than 128 of the bytes received are still to be returned when another one comes in. -/
def KeepsUp (s : UartSteps) : Action → Prop
  | .irq irq => irq.received.isSome → s.received.length < s.consumed.length + kRxCapacity
  | _ => True

instance (s : UartSteps) : DecidablePred s.KeepsUp
  | .irq irq =>
      inferInstanceAs (Decidable
        (irq.received.isSome → s.received.length < s.consumed.length + kRxCapacity))
  | .read | .takeOverrun | .advance | .write _ => inferInstanceAs (Decidable True)

/-- What the reader has found, with this much behind the count. -/
def ReaderHolds (s : UartSteps) (behind : Nat) : Prop :=
  match s.reader with
  | .tested | .advanced _ => 0 < s.rx.count
  | .copied byte => 0 < s.rx.count ∧ byte = Ring.cell kRxCapacity_pos s.rx.buf s.rx.tail
  | .loaded _ loaded => 0 < loaded ∧ s.rx.count ≤ loaded + behind
  | _ => True

/-- The bytes received are those returned, the one in hand, what the reader finds in the queue, and so
many behind. -/
structure Queued (s : UartSteps) (behind : Nat) : Prop where
  head : s.rx.head.val = (s.rx.tail + (s.reader.countLeft s.rx.count + behind)) % kRxCapacity
  bytes : s.received = s.consumed ++ s.reader.inHand ++
    Ring.window kRxCapacity_pos s.rx.buf s.rx.tail (s.reader.countLeft s.rx.count + behind)
  reader : s.ReaderHolds behind

variable {s t : UartSteps} {behind : Nat}

theorem Queued.length (h : s.Queued behind) :
    s.received.length = s.consumed.length + s.reader.inHand.length +
      (s.reader.countLeft s.rx.count + behind) := by
  rw [h.bytes, List.length_append, List.length_append, Ring.length_window]

/-- The count never tells of more than there is. -/
theorem Queued.count_le (h : s.Queued behind) :
    s.rx.count ≤ s.reader.inHand.length + (s.reader.countLeft s.rx.count + behind) := by
  have hreader := h.reader
  unfold ReaderHolds at hreader
  cases hat : s.reader with
  | advanced byte | loaded byte count =>
      rw [hat] at hreader
      simp only [Reader.inHand, Reader.countLeft, List.length_singleton] at hreader ⊢
      omega
  | idle | masked | tested | copied | popped | seen =>
      simp only [Reader.countLeft]
      omega

theorem queued_start (u : Uart) : (start u).Queued 0 := by
  refine ⟨rfl, ?_, trivial⟩
  simp [start, Reader.inHand, Reader.countLeft]

/-! ### The reader -/

/-- What the next access is, by where the reader has got. -/
inductive Advances (s t : UartSteps) : Prop
  | foundNone (hat : s.reader = .masked) (hempty : s.rx.count = 0)
      (heq : t = { s with reader := .popped none })
  | foundSome (hat : s.reader = .masked) (hsome : s.rx.count ≠ 0)
      (heq : t = { s with reader := .tested })
  | copied (hat : s.reader = .tested)
      (heq : t = { s with reader := .copied (s.rx.buf.get s.rx.tail) })
  | advanced (byte : UInt8) (hat : s.reader = .copied byte)
      (heq : t = { s with
        rx := { s.rx with tail := RxQueue.next s.rx.tail }, reader := .advanced byte })
  | loaded (byte : UInt8) (hat : s.reader = .advanced byte)
      (heq : t = { s with reader := .loaded byte s.rx.count })
  | stored (byte : UInt8) (count : Nat) (hat : s.reader = .loaded byte count)
      (heq : t = { s with rx := { s.rx with count := count - 1 }, reader := .popped (some byte) })
  | returned (got : Option UInt8) (hat : s.reader = .popped got)
      (heq : t = { s with
        rxneEnabled := true, reader := .idle, consumed := s.consumed ++ got.toList })
  | taken (was : Bool) (hat : s.reader = .seen was)
      (heq : t = { s with overrun := false, reader := .idle })

theorem advances (h : s.advance = some t) : s.Advances t := by
  unfold advance at h
  cases hat : s.reader with
  | idle =>
      rw [hat] at h
      exact absurd h (by simp)
  | masked =>
      rw [hat] at h
      have heq := (Option.some.inj h).symm
      by_cases hempty : s.rx.count = 0
      · rw [if_pos hempty] at heq
        exact .foundNone hat hempty heq
      · rw [if_neg hempty] at heq
        exact .foundSome hat hempty heq
  | tested =>
      rw [hat] at h
      exact .copied hat (Option.some.inj h).symm
  | copied byte =>
      rw [hat] at h
      exact .advanced byte hat (Option.some.inj h).symm
  | advanced byte =>
      rw [hat] at h
      exact .loaded byte hat (Option.some.inj h).symm
  | loaded byte count =>
      rw [hat] at h
      exact .stored byte count hat (Option.some.inj h).symm
  | popped got =>
      rw [hat] at h
      exact .returned got hat (Option.some.inj h).symm
  | seen was =>
      rw [hat] at h
      exact .taken was hat (Option.some.inj h).symm

theorem Queued.advance (h : s.Queued behind) (hadvance : s.advance = some t) : t.Queued behind := by
  obtain ⟨hhead, hbytes, hreader⟩ := h
  unfold ReaderHolds at hreader
  cases advances hadvance with
  | foundNone hat hempty heq =>
      rw [hat] at hhead hbytes
      rw [heq]
      exact ⟨hhead, hbytes, trivial⟩
  | foundSome hat hsome heq =>
      rw [hat] at hhead hbytes
      rw [heq]
      exact ⟨hhead, hbytes, Nat.pos_of_ne_zero hsome⟩
  | copied hat heq =>
      rw [hat] at hhead hbytes hreader
      rw [heq]
      exact ⟨hhead, hbytes, hreader, Ring.get_eq_cell kRxCapacity_pos s.rx.buf s.rx.tail.isLt⟩
  | advanced byte hat heq =>
      rw [hat] at hhead hbytes hreader
      rw [heq]
      obtain ⟨hsome, rfl⟩ := hreader
      have hleft : s.rx.count + behind ≠ 0 := by omega
      have hfewer : s.rx.count - 1 + behind = s.rx.count + behind - 1 := by omega
      simp only [Reader.countLeft, Reader.inHand, List.append_nil] at hhead hbytes
      refine ⟨?_, ?_, hsome⟩
      · simp only [Reader.countLeft, RxQueue.next_val, Nat.mod_add_mod, hhead]
        congr 1
        omega
      · rw [hbytes, Ring.window_of_ne_zero _ _ _ hleft]
        simp only [Reader.countLeft, Reader.inHand, hfewer, List.append_assoc,
          List.singleton_append]
        congr 2
        exact Ring.window_congr _ _ (Nat.mod_mod _ _).symm _
  | loaded byte hat heq =>
      rw [hat] at hhead hbytes hreader
      rw [heq]
      exact ⟨hhead, hbytes, hreader, Nat.le_add_right _ _⟩
  | stored byte count hat heq =>
      rw [hat] at hhead hbytes
      rw [heq]
      exact ⟨hhead, hbytes, trivial⟩
  | returned got hat heq =>
      rw [hat] at hhead hbytes
      rw [heq]
      refine ⟨hhead, ?_, trivial⟩
      simpa only [Reader.inHand, Reader.countLeft, List.append_nil] using hbytes
  | taken was hat heq =>
      rw [hat] at hhead hbytes
      rw [heq]
      exact ⟨hhead, hbytes, trivial⟩

/-! ### The interrupt -/

/-- One more byte is found in the queue, or is behind the count. -/
theorem Queued.countLeft_succ (h : s.Queued behind) (byte : UInt8) :
    s.reader.countLeft (s.rx.count + 1) + (behind + (s.reader.hides (some byte)).length) =
      s.reader.countLeft s.rx.count + behind + 1 := by
  have hreader := h.reader
  unfold ReaderHolds at hreader
  cases hat : s.reader with
  | advanced byte =>
      rw [hat] at hreader
      simp only [Reader.countLeft, Reader.hides, List.length_nil]
      omega
  | loaded byte count =>
      simp only [Reader.countLeft, Reader.hides, Option.toList_some, List.length_singleton]
      omega
  | idle | masked | tested | copied | popped | seen =>
      simp only [Reader.countLeft, Reader.hides, List.length_nil]
      omega

/-- A byte that comes in is queued, or is behind the count. -/
theorem Queued.receive (h : s.Queued behind) (byte : UInt8)
    (hkeeps : s.received.length < s.consumed.length + kRxCapacity) :
    (s.receiveByte (some byte)).Queued (behind + (s.reader.hides (some byte)).length) := by
  have hlength := h.length
  have hcount := h.count_le
  have hmore := h.countLeft_succ byte
  obtain ⟨hhead, hbytes, hreader⟩ := h
  have hroom : s.reader.countLeft s.rx.count + behind < kRxCapacity := by omega
  have hbehind := Ring.window_push kRxCapacity_pos s.rx.buf s.rx.head.isLt hhead hroom byte
  unfold receiveByte
  simp only [RxQueue.push_of_room (show s.rx.count < kRxCapacity by omega)]
  refine ⟨?_, ?_, ?_⟩
  · dsimp only
    rw [hmore, RxQueue.next_val, hhead, Nat.mod_add_mod, Nat.add_assoc]
  · dsimp only
    rw [hmore, hbehind, hbytes, List.append_assoc]
  · unfold ReaderHolds at hreader ⊢
    dsimp only
    cases hat : s.reader with
    | tested | advanced byte => exact Nat.succ_pos _
    | copied byte' =>
        rw [hat] at hreader hhead hroom
        obtain ⟨hsome, hbyte⟩ := hreader
        simp only [Reader.countLeft] at hhead hroom
        refine ⟨Nat.succ_pos _, ?_⟩
        rw [Ring.cell_set_behind kRxCapacity_pos s.rx.buf s.rx.head.isLt hhead hroom (by omega)]
        exact hbyte
    | loaded byte' count =>
        rw [hat] at hreader
        simp only [Reader.hides, Option.toList_some, List.length_singleton]
        omega
    | idle | masked | popped | seen => trivial

/-- The interrupt queues the byte that has come in, if there is one. -/
theorem Queued.irq (h : s.Queued behind) {irq : Uart.Irq} (hkeeps : s.KeepsUp (.irq irq)) :
    (s.onIrq irq).Queued (behind + (s.hides (.irq irq)).length) := by
  have hreceived : (s.receiveByte irq.received).Queued
      (behind + (s.reader.hides irq.received).length) := by
    unfold KeepsUp at hkeeps
    cases hbyte : irq.received with
    | some byte => exact h.receive byte (hkeeps (by rw [hbyte]; rfl))
    | none =>
        have hnone : s.reader.hides none = [] := by
          cases s.reader <;> rfl
        rw [hnone]
        exact h
  unfold onIrq
  dsimp only
  split
  · exact ⟨hreceived.head, hreceived.bytes, hreceived.reader⟩
  · exact hreceived

/-! ### Over a run -/

theorem Queued.exec (h : s.Queued behind) {a : Action} (hkeeps : s.KeepsUp a)
    (hexec : s.exec a = some t) : t.Queued (behind + (s.hides a).length) := by
  cases a with
  | read =>
      obtain ⟨hidle, ht⟩ := Option.ite_none_right_eq_some.mp hexec
      obtain ⟨hhead, hbytes, -⟩ := h
      rw [hidle] at hhead hbytes
      rw [← Option.some.inj ht]
      exact ⟨hhead, hbytes, trivial⟩
  | takeOverrun =>
      obtain ⟨hidle, ht⟩ := Option.ite_none_right_eq_some.mp hexec
      obtain ⟨hhead, hbytes, -⟩ := h
      rw [hidle] at hhead hbytes
      rw [← Option.some.inj ht]
      exact ⟨hhead, hbytes, trivial⟩
  | advance => exact h.advance hexec
  | write data =>
      rw [← Option.some.inj hexec]
      exact h
  | irq irq =>
      obtain ⟨-, ht⟩ := Option.ite_none_right_eq_some.mp hexec
      rw [← Option.some.inj ht]
      exact h.irq hkeeps

/-- **A byte that comes in while the count is loaded stays behind.** Wherever the interrupt comes in,
as long as the reader keeps up the bytes received are those returned, the one in hand, those that the
reader finds in the queue, and then as many as have come in between a load and a store of the
count. -/
theorem received_behind {u : Uart} {actions : List Action}
    (h : PartialRuns.run exec (start u) actions = some s)
    (hkeeps : PartialRuns.Along exec KeepsUp (start u) actions) :
    ∃ behind : List UInt8,
      behind.length = (PartialRuns.outputs exec hides (start u) actions).length ∧
        s.received = s.consumed ++ s.reader.inHand ++ s.contents ++ behind := by
  have hqueued : s.Queued (PartialRuns.outputs exec hides (start u) actions).length := by
    refine PartialRuns.run_history
      (I := fun actions s =>
        s.Queued (PartialRuns.outputs exec hides (start u) actions).length)
      (queued_start u) (fun actions a s t hs hmore hqueued hexec => ?_) hkeeps h
    rw [PartialRuns.outputs_concat hs, List.length_append]
    exact hqueued.exec hmore hexec
  refine ⟨_, Ring.length_window kRxCapacity_pos s.rx.buf
    (s.rx.tail + s.reader.countLeft s.rx.count) _, ?_⟩
  rw [hqueued.bytes, Ring.window_append, ← List.append_assoc]
  rfl

/-- A byte comes in and is read, and a second one does while the count is loaded. Then the queue looks
empty. -/
def lateByte : List Action :=
  [.irq ⟨some 0xAA, true, false⟩, .read, .advance, .advance, .advance, .advance,
    .irq ⟨some 0x01, true, false⟩, .advance, .advance]

/-- The second byte is behind. -/
theorem received_behind_lateByte :
    let u := Uart.new (Vector.replicate kTxCapacity 0) (Vector.replicate kRxCapacity 0)
    ∃ s, PartialRuns.run exec (start u) lateByte = some s ∧ s.rx.count = 0 ∧
      ∃ behind : List UInt8, behind.length = 1 ∧
        s.received = s.consumed ++ s.reader.inHand ++ s.contents ++ behind := by
  intro u
  have hruns : (PartialRuns.run exec (start u) lateByte).any (fun s => s.rx.count == 0) = true := by
    decide +kernel
  obtain ⟨s, hs, hempty⟩ := (Option.any_eq_true _ _).mp hruns
  have hkeeps : PartialRuns.Along exec KeepsUp (start u) lateByte := by decide +kernel
  have hone : (PartialRuns.outputs exec hides (start u) lateByte).length = 1 := by decide +kernel
  obtain ⟨behind, hlength, hreceived⟩ := received_behind hs hkeeps
  exact ⟨s, hs, beq_iff_eq.mp hempty, behind, hlength.trans hone, hreceived⟩

end UartSteps

end Bcm
