import Bcm.Lib.BoundedQueue
import Bcm.RingBuffer

/-!
# The ring buffer refines a bounded queue

Every call answers as the call of the queue of the buffer's contents, and leaves the contents that
the queue is left with.
-/

namespace Bcm.RingBuffer

open BoundedQueue

variable {α : Type} {capacity : Nat}

def exec (b : RingBuffer α capacity) : Op α → RingBuffer α capacity × Answer α
  | .push item => ((b.push item).2, .pushed (b.push item).1)
  | .pop out => (b.pop.2, take out b.pop.1)
  | .peek out => (b, take out b.peek)
  | .clear => (b.clear, .cleared)

theorem push_of_full {b : RingBuffer α capacity} (h : capacity ≤ b.count) (item : α) :
    b.push item = (false, b) := dif_pos h

theorem peek_contents (b : RingBuffer α capacity) : b.peek = b.contents.head? := by
  rw [← b.pop_contents.1, peek, pop]
  split
  · rfl
  · rfl

theorem exec_contents (b : RingBuffer α capacity) (op : Op α) :
    (b.exec op).2 = (step capacity b.contents op).2 ∧
      (b.exec op).1.contents = (step capacity b.contents op).1 := by
  cases op with
  | push item =>
      rw [exec, step, length_contents]
      by_cases hroom : b.count < capacity
      · obtain ⟨htaken, hcontents⟩ := push_of_room hroom item
        rw [if_pos hroom, htaken, hcontents]
        exact ⟨rfl, rfl⟩
      · rw [if_neg hroom, push_of_full (Nat.le_of_not_lt hroom)]
        exact ⟨rfl, rfl⟩
  | pop out =>
      obtain ⟨hitem, hcontents⟩ := b.pop_contents
      rw [exec, step, hitem, hcontents]
      exact ⟨rfl, rfl⟩
  | peek out =>
      rw [exec, step, peek_contents]
      exact ⟨rfl, rfl⟩
  | clear => exact ⟨rfl, contents_clear b⟩

theorem exec_related (b : RingBuffer α capacity) (items : List α) (op : Op α)
    (h : b.contents = items) :
    (b.exec op).2 = (step capacity items op).2 ∧
      (b.exec op).1.contents = (step capacity items op).1 := by
  rw [← h]
  exact b.exec_contents op

/-- **Refinement.** After any calls the buffer has answered as the queue, holds what the queue holds
and has its indices where its count says. Until the next clear nothing is lost, repeated or put out
of order. -/
theorem refines_queue (hcapacity : 1 < capacity) (buf : Vector α capacity) (ops : List (Op α)) :
    let b := Transducer.final exec (new buf hcapacity) ops
    let items := Transducer.final (step capacity) [] ops
    Transducer.outputs exec (new buf hcapacity) ops =
        Transducer.outputs (step capacity) [] ops ∧
      b.contents = items ∧ b.size = items.length ∧
      b.head = (b.tail + b.count) % capacity ∧ b.head < capacity ∧ b.tail < capacity ∧
      b.count ≤ capacity ∧
      ∀ later : List (Op α), .clear ∉ later →
        items ++ (later.zip (Transducer.outputs exec b later)).filterMap entered =
          (later.zip (Transducer.outputs exec b later)).filterMap left ++
            (Transducer.final exec b later).contents := by
  intro b items
  have hcontents : b.contents = items :=
    Transducer.final_related exec exec_related (contents_new buf hcapacity) ops
  refine ⟨?_, hcontents, ?_, b.head_eq, b.head_lt, b.tail_lt, b.count_le, ?_⟩
  · exact Transducer.outputs_eq_of_related exec exec_related (contents_new buf hcapacity) ops
  · rw [← hcontents, length_contents, size]
  · intro later hlater
    have hanswers := Transducer.outputs_eq_of_related exec exec_related hcontents later
    have hleft := Transducer.final_related exec exec_related hcontents later
    rw [hanswers, hleft]
    exact conserves capacity items hlater

/-- A buffer of two, filled past its capacity, drained from and refilled across its end. -/
theorem refines_queue_wrapped :
    Transducer.outputs exec (new (#v[0, 0] : Vector Nat 2) Nat.one_lt_two)
        [.push 7, .push 8, .push 9, .pop 5, .push 6, .peek 5, .clear, .pop 5] =
      [.pushed true, .pushed true, .pushed false, .took true 7, .pushed true, .took true 8,
        .cleared, .took false 5] :=
  (refines_queue Nat.one_lt_two #v[0, 0] _).1

/-! ### The words that a call writes -/

variable {b : RingBuffer α capacity}

theorem pop_of_ne_zero (h : b.count ≠ 0) :
    b.pop.1 = some (Ring.cell b.capacity_pos b.buf b.tail) ∧ b.pop.2.buf = b.buf ∧
      b.pop.2.head = b.head ∧ b.pop.2.tail = (b.tail + 1) % capacity ∧
      b.pop.2.count = b.count - 1 := by
  unfold pop
  rw [dif_neg h, Ring.get_eq_cell b.capacity_pos b.buf b.tail_lt]
  exact ⟨rfl, rfl, rfl, rfl, rfl⟩

theorem ne_zero_of_pop {item : α} (h : b.pop.1 = some item) : b.count ≠ 0 := by
  intro hempty
  rw [pop, dif_pos hempty] at h
  exact absurd h (by simp)

theorem push_fields (h : b.count < capacity) (item : α) :
    (b.push item).1 = true ∧ (b.push item).2.buf = b.buf.set b.head item b.head_lt ∧
      (b.push item).2.head = (b.head + 1) % capacity ∧ (b.push item).2.tail = b.tail ∧
      (b.push item).2.count = b.count + 1 := by
  unfold push
  rw [dif_neg (Nat.not_le.mpr h)]
  exact ⟨rfl, rfl, rfl, rfl, rfl⟩

/-- What comes in changes nothing at the front. -/
theorem pop_push (h : b.count ≠ 0) (item : α) :
    (b.push item).2.pop.1 = b.pop.1 ∧ (b.push item).2.pop.2.tail = b.pop.2.tail := by
  rcases Nat.lt_or_ge b.count capacity with hroom | hfull
  · obtain ⟨-, hbuf, -, htail, hcount⟩ := push_fields hroom item
    obtain ⟨hfront, -, -, hmoved, -⟩ := pop_of_ne_zero h
    have hsome : (b.push item).2.count ≠ 0 := by
      rw [hcount]
      exact Nat.succ_ne_zero _
    obtain ⟨hfront', -, -, hmoved', -⟩ := pop_of_ne_zero hsome
    rw [hfront, hmoved, hfront', hmoved', hbuf, htail]
    rw [Ring.cell_set_behind b.capacity_pos b.buf b.head_lt b.head_eq hroom h]
    exact ⟨rfl, rfl⟩
  · rw [push_of_full hfull]
    exact ⟨rfl, rfl⟩

end Bcm.RingBuffer
