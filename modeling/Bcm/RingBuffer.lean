import Bcm.Lib.Ring

/-!
# The byte queues

The fixed-capacity FIFO behind the UART driver (`ring_buffer.h`). The head and the tail run round the
array, and where the head is follows from the other two.
-/

namespace Bcm

structure RingBuffer (α : Type) (capacity : Nat) where
  buf : Vector α capacity
  head : Nat
  tail : Nat
  count : Nat
  head_lt : head < capacity
  tail_lt : tail < capacity
  count_le : count ≤ capacity
  head_eq : head = (tail + count) % capacity
  deriving DecidableEq

namespace RingBuffer

variable {α : Type} {capacity : Nat}

theorem capacity_pos (b : RingBuffer α capacity) : 0 < capacity :=
  Nat.zero_lt_of_lt b.head_lt

/-- An empty buffer over whatever the array holds. -/
def new (buf : Vector α capacity) (h : 1 < capacity) : RingBuffer α capacity where
  buf := buf
  head := 0
  tail := 0
  count := 0
  head_lt := Nat.zero_lt_of_lt h
  tail_lt := Nat.zero_lt_of_lt h
  count_le := Nat.zero_le capacity
  head_eq := (Nat.zero_mod capacity).symm

def next (capacity i : Nat) : Nat := (i + 1) % capacity

/-- `push(item)`. A full buffer drops the item. -/
def push (b : RingBuffer α capacity) (item : α) : Bool × RingBuffer α capacity :=
  if hfull : capacity ≤ b.count then (false, b)
  else
    (true,
      { b with
        buf := b.buf.set b.head item b.head_lt
        head := next capacity b.head
        count := b.count + 1
        head_lt := Nat.mod_lt _ b.capacity_pos
        count_le := Nat.lt_of_not_le hfull
        head_eq := by
          rw [next, b.head_eq, Nat.mod_add_mod, Nat.add_assoc] })

/-- `pop(out)`, with `none` where the source returns false. -/
def pop (b : RingBuffer α capacity) : Option α × RingBuffer α capacity :=
  if hempty : b.count = 0 then (none, b)
  else
    (some (b.buf.get ⟨b.tail, b.tail_lt⟩),
      { b with
        tail := next capacity b.tail
        count := b.count - 1
        tail_lt := Nat.mod_lt _ b.capacity_pos
        count_le := (Nat.sub_le _ _).trans b.count_le
        head_eq := by
          have hcount : 1 + (b.count - 1) = b.count := by omega
          rw [next, Nat.mod_add_mod, Nat.add_assoc, hcount]
          exact b.head_eq })

def peek (b : RingBuffer α capacity) : Option α :=
  if b.count = 0 then none else some (b.buf.get ⟨b.tail, b.tail_lt⟩)

def clear (b : RingBuffer α capacity) : RingBuffer α capacity where
  buf := b.buf
  head := 0
  tail := 0
  count := 0
  head_lt := b.capacity_pos
  tail_lt := b.capacity_pos
  count_le := Nat.zero_le capacity
  head_eq := (Nat.zero_mod capacity).symm

def empty (b : RingBuffer α capacity) : Bool := decide (b.count = 0)

def full (b : RingBuffer α capacity) : Bool := decide (capacity ≤ b.count)

def size (b : RingBuffer α capacity) : Nat := b.count

/-! ### The buffer is a queue -/

/-- The items in the buffer, oldest first. -/
def contents (b : RingBuffer α capacity) : List α :=
  Ring.window b.capacity_pos b.buf b.tail b.count

@[simp]
theorem length_contents (b : RingBuffer α capacity) : b.contents.length = b.count :=
  Ring.length_window _ b.buf b.tail b.count

@[simp]
theorem contents_new (buf : Vector α capacity) (h : 1 < capacity) : (new buf h).contents = [] := rfl

@[simp]
theorem contents_clear (b : RingBuffer α capacity) : b.clear.contents = [] := rfl

/-- With room left the item goes in behind the others. -/
theorem push_of_room {b : RingBuffer α capacity} (h : b.count < capacity) (item : α) :
    (b.push item).1 = true ∧ (b.push item).2.contents = b.contents ++ [item] := by
  unfold push
  rw [dif_neg (Nat.not_le.mpr h)]
  exact ⟨rfl, Ring.window_push b.capacity_pos b.buf b.head_lt b.head_eq h item⟩

theorem pop_contents (b : RingBuffer α capacity) :
    b.pop.1 = b.contents.head? ∧ b.pop.2.contents = b.contents.tail := by
  unfold pop
  split
  case isTrue hempty =>
    have hnil : b.contents = [] := List.length_eq_zero_iff.mp (by rw [length_contents, hempty])
    rw [hnil]
    exact ⟨rfl, rfl⟩
  case isFalse hsome =>
    rw [contents, Ring.window_of_ne_zero b.capacity_pos b.buf b.tail hsome,
      ← Ring.get_eq_cell b.capacity_pos b.buf b.tail_lt]
    refine ⟨rfl, ?_⟩
    exact Ring.window_congr b.capacity_pos b.buf (Nat.mod_mod _ _) (b.count - 1)

end RingBuffer

end Bcm
