import Bcm.Lib.PartialRuns
import Bcm.Uart

/-!
# The receive queue, access by access

`Uart` takes `read` and `take_overrun` for one step each. Both are several accesses to words that
`on_irq` writes too: `read` only keeps RXNE from raising the interrupt, which takes a byte in whatever
has raised it, and `take_overrun` keeps nothing off. Here the control task goes on by one access at a
time, and the interrupt, which runs to its end, may come in before any. What `write` touches is left
out: `tx_` and the TXE interrupt enable, so that TXE may always raise the interrupt.
-/

namespace Bcm

/-- `rx_`, as its two sides share it. -/
structure RxQueue where
  buf : Vector UInt8 kRxCapacity
  head : Fin kRxCapacity
  tail : Fin kRxCapacity
  count : Nat
  deriving DecidableEq

namespace RxQueue

def next (i : Fin kRxCapacity) : Fin kRxCapacity :=
  ⟨RingBuffer.next kRxCapacity i, Nat.mod_lt _ i.pos⟩

/-- `push(item)`, which only the interrupt does. -/
def push (q : RxQueue) (item : UInt8) : Bool × RxQueue :=
  if kRxCapacity ≤ q.count then (false, q)
  else
    (true,
      { q with
        buf := q.buf.set q.head item q.head.isLt, head := next q.head, count := q.count + 1 })

end RxQueue

/-- Where the control task is in `read`, in the `pop` that it calls, or in `take_overrun`, with what
it has in its registers. -/
inductive Reader where
  | idle
  | masked
  | tested
  | copied (byte : UInt8)
  | advanced (byte : UInt8)
  | loaded (byte : UInt8) (count : Nat)
  | popped (got : Option UInt8)
  | seen (was : Bool)
  deriving DecidableEq

/-- The last two fields only record the bytes that have come in and been read. -/
structure UartSteps where
  rx : RxQueue
  overrun : Bool
  rxneEnabled : Bool
  reader : Reader
  received : List UInt8
  consumed : List UInt8
  deriving DecidableEq

namespace UartSteps

/-- `init` has taken. -/
def start (u : Uart) : UartSteps where
  rx := ⟨u.rx.buf, ⟨0, u.rx.capacity_pos⟩, ⟨0, u.rx.capacity_pos⟩, 0⟩
  overrun := false
  rxneEnabled := true
  reader := .idle
  received := []
  consumed := []

/-- The next access of `read` or `take_overrun`. -/
def advance (s : UartSteps) : Option UartSteps :=
  match s.reader with
  | .idle => none
  | .masked => some { s with reader := if s.rx.count = 0 then .popped none else .tested }
  | .tested => some { s with reader := .copied (s.rx.buf.get s.rx.tail) }
  | .copied byte =>
      some { s with rx := { s.rx with tail := RxQueue.next s.rx.tail }, reader := .advanced byte }
  -- `--count_` is a load and a store
  | .advanced byte => some { s with reader := .loaded byte s.rx.count }
  | .loaded byte count =>
      some { s with rx := { s.rx with count := count - 1 }, reader := .popped (some byte) }
  | .popped got =>
      some { s with rxneEnabled := true, reader := .idle, consumed := s.consumed ++ got.toList }
  | .seen _ => some { s with overrun := false, reader := .idle }

def receiveByte (s : UartSteps) (received : Option UInt8) : UartSteps :=
  match received with
  | none => s
  | some byte =>
      let (stored, rx) := s.rx.push byte
      { s with
        rx := rx
        overrun := if !stored then true else s.overrun
        received := s.received ++ [byte] }

/-- `on_irq()`, as far as the receiver goes. -/
def onIrq (s : UartSteps) (irq : Uart.Irq) : UartSteps :=
  let s := s.receiveByte irq.received
  if irq.lineError then { s with overrun := true } else s

inductive Action where
  | read
  | takeOverrun
  | advance
  | write (data : Option (List UInt8))
  | irq (irq : Uart.Irq)

/-- The control task begins one of the two only where it is in neither. While `read` has RXNE masked,
only TXE raises the interrupt. -/
def exec (s : UartSteps) : Action → Option UartSteps
  | .read =>
      if s.reader = .idle then some { s with rxneEnabled := false, reader := .masked } else none
  | .takeOverrun => if s.reader = .idle then some { s with reader := .seen s.overrun } else none
  | .advance => s.advance
  | .write _ => some s
  | .irq irq => if irq.txEmpty || s.rxneEnabled then some (s.onIrq irq) else none

end UartSteps

end Bcm
