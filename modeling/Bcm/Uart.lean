import Bcm.RingBuffer

/-!
# The UART driver

The two byte queues and the interrupt between them and the wire (`drv_uart.h`, `drv_uart.cpp`). The
configuration of the peripheral is the hardware's. A write runs with interrupts off and an interrupt
runs to its end, so each is one step here. That `read` and `take_overrun` are one step each is an
assumption, which the source does not ensure (`UartSteps`).
-/

namespace Bcm

def kTxCapacity : Nat := 128

def kRxCapacity : Nat := 128

/-- The driver, with the TXE interrupt enable of the peripheral. -/
structure Uart where
  tx : RingBuffer UInt8 kTxCapacity
  rx : RingBuffer UInt8 kRxCapacity
  initialised : Bool
  overrun : Bool
  txeEnabled : Bool
  deriving DecidableEq

namespace Uart

/-- The driver before `init`, over whatever the arrays hold. -/
def new (tx : Vector UInt8 kTxCapacity) (rx : Vector UInt8 kRxCapacity) : Uart where
  tx := .new tx (by decide)
  rx := .new rx (by decide)
  initialised := false
  overrun := false
  txeEnabled := false

/-- `init(cfg)`. `usart1` says that the instance is the wired one, and `configured` that the HAL
took the configuration. -/
def init (u : Uart) (usart1 configured : Bool) : Bool × Uart :=
  if !usart1 then (false, u)
  else if !configured then (false, u)
  else
    (true, { u with tx := u.tx.clear, rx := u.rx.clear, overrun := false, initialised := true })

/-- The loop of `write`. -/
def pushAll (tx : RingBuffer UInt8 kTxCapacity) (bytes : List UInt8) :
    RingBuffer UInt8 kTxCapacity :=
  bytes.foldl (fun tx byte => (tx.push byte).2) tx

/-- `write(data, len)`, all or nothing. `data` is `none` for a null pointer. -/
def write (u : Uart) (data : Option (List UInt8)) : Bool × Uart :=
  match data with
  | none => (false, u)
  | some bytes =>
      if !u.initialised then (false, u)
      else if bytes.length = 0 then (true, u)
      else if kTxCapacity < bytes.length then (false, u)
      else if kTxCapacity - u.tx.size < bytes.length then (false, u)
      else (true, { u with tx := pushAll u.tx bytes, txeEnabled := true })

/-- `read(out)`, where no byte comes in between the load and the store of `count_`. -/
def read (u : Uart) : Option UInt8 × Uart :=
  if !u.initialised then (none, u)
  else
    let (got, rx) := u.rx.pop
    (got, { u with rx := rx })

/-- `take_overrun()`, where no overrun is flagged between its load and its store. -/
def takeOverrun (u : Uart) : Bool × Uart := (u.overrun, { u with overrun := false })

/-- What the status register says: a byte received, the transmit register empty, and a framing,
noise or overrun error. -/
structure Irq where
  received : Option UInt8
  txEmpty : Bool
  lineError : Bool
  deriving DecidableEq, Repr

def receiveByte (u : Uart) (received : Option UInt8) : Uart :=
  match received with
  | none => u
  | some byte =>
      let (stored, rx) := u.rx.push byte
      if !stored then { u with rx := rx, overrun := true } else { u with rx := rx }

/-- Feed the next byte to the data register, or stop asking. -/
def transmitByte (u : Uart) (txEmpty : Bool) : Option UInt8 × Uart :=
  if txEmpty && u.txeEnabled then
    match u.tx.pop with
    | (some byte, tx) => (some byte, { u with tx := tx })
    | (none, tx) => (none, { u with tx := tx, txeEnabled := false })
  else (none, u)

/-- `on_irq()`, with the byte that goes out on the wire. -/
def onIrq (u : Uart) (irq : Irq) : Option UInt8 × Uart :=
  let (sent, u) := (u.receiveByte irq.received).transmitByte irq.txEmpty
  (sent, if irq.lineError then { u with overrun := true } else u)

end Uart

end Bcm
