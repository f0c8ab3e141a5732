import Bcm.Lib.Runs
import Bcm.Uart

/-!
# The UART and its wire

The driver under its writers, its readers and its interrupt, with what has gone out on the wire.
-/

namespace Bcm

/-- What may come next. The writers are the tasks, in whatever order they get to it. -/
inductive UartOp where
  | write (data : Option (List UInt8))
  | irq (irq : Uart.Irq)
  | read
  | takeOverrun

/-- The driver, what has gone out on the wire, and the writes that were accepted. -/
structure Line where
  uart : Uart
  emitted : List UInt8
  accepted : List (List UInt8)

namespace Line

/-- The line once `init` has taken. -/
def start (u : Uart) : Line := ⟨(u.init true true).2, [], []⟩

def exec (line : Line) : UartOp → Line
  | .write data =>
      let (taken, uart) := line.uart.write data
      let accepted := if taken then line.accepted ++ data.toList else line.accepted
      { line with uart := uart, accepted := accepted }
  | .irq irq =>
      let (sent, uart) := line.uart.onIrq irq
      { line with uart := uart, emitted := line.emitted ++ sent.toList }
  | .read => { line with uart := line.uart.read.2 }
  | .takeOverrun => { line with uart := line.uart.takeOverrun.2 }

def run (u : Uart) (ops : List UartOp) : Line := Runs.run exec (start u) ops

end Line

end Bcm
