import Bcm.Proof.LinkBytes
import Bcm.Proof.ReceiveSteps

/-!
# When a read is one step

The driver of the board reads in one step, and takes the overrun in one. The accesses come to
just that where the interrupt leaves a word alone between its load and its store.
-/

namespace Bcm

/-- What the driver does in one step, and what it returns. -/
inductive UartStep where
  | read (got : Option UInt8)
  | takeOverrun (was : Bool)
  | write (data : Option (List UInt8))
  | irq (irq : Uart.Irq)

/-- The byte that a read is about to return. -/
def Reader.given : Reader → List UInt8
  | .popped got => got.toList
  | _ => []

/-- What the reader has loaded has not changed since. -/
def Reader.Keeps (s t : UartSteps) : Reader → Prop
  | .loaded _ _ => t.rx.count = s.rx.count
  | .seen _ => t.overrun = s.overrun
  | _ => True

instance (s t : UartSteps) : DecidablePred (Reader.Keeps s t)
  | .loaded _ _ => inferInstanceAs (Decidable (t.rx.count = s.rx.count))
  | .seen _ => inferInstanceAs (Decidable (t.overrun = s.overrun))
  | .idle | .masked | .tested | .copied _ | .advanced _ | .popped _ =>
      inferInstanceAs (Decidable True)

/-- The bytes that reads return. -/
def UartStep.returned : UartStep → Option UInt8
  | .read got => got
  | _ => none

namespace Uart

/-- The driver after a step that it can take. -/
def take (u : Uart) : UartStep → Option Uart
  | .read got => if u.read.1 = got then some u.read.2 else none
  | .takeOverrun was => if u.takeOverrun.1 = was then some u.takeOverrun.2 else none
  | .write data => some (u.write data).2
  | .irq irq => some (u.onIrq irq).2

theorem write_initialised (u : Uart) (data : Option (List UInt8)) :
    (u.write data).2.initialised = u.initialised := by
  rcases u.writesWhole data with hno | ⟨bytes, tx, enabled, -, hyes, -⟩
  · rw [hno]
  · rw [hyes]

theorem receiveByte_initialised (u : Uart) (received : Option UInt8) :
    (u.receiveByte received).initialised = u.initialised := by
  unfold receiveByte
  split
  · rfl
  · dsimp only
    split
    · rfl
    · rfl

theorem transmitByte_initialised (u : Uart) (txEmpty : Bool) :
    (u.transmitByte txEmpty).2.initialised = u.initialised := by
  unfold transmitByte
  split
  · split
    · rfl
    · rfl
  · rfl

theorem onIrq_initialised (u : Uart) (irq : Irq) : (u.onIrq irq).2.initialised = u.initialised := by
  refine Eq.trans ?_ ((transmitByte_initialised _ irq.txEmpty).trans
    (u.receiveByte_initialised irq.received))
  unfold onIrq
  dsimp only
  split
  · rfl
  · rfl

/-- The front of the queue stays as it is. -/
theorem receiveByte_front (u : Uart) (received : Option UInt8) :
    (u.receiveByte received).rx.tail = u.rx.tail ∧
      (u.rx.count ≠ 0 → (u.receiveByte received).rx.count ≠ 0 ∧
        (u.receiveByte received).rx.pop.1 = u.rx.pop.1 ∧
        (u.receiveByte received).rx.pop.2.tail = u.rx.pop.2.tail) := by
  cases received with
  | none => exact ⟨rfl, fun hsome => ⟨hsome, rfl, rfl⟩⟩
  | some byte =>
      have hrx : (u.receiveByte (some byte)).rx = (u.rx.push byte).2 := by
        unfold receiveByte
        dsimp only
        split
        · rfl
        · rfl
      rw [hrx]
      rcases Nat.lt_or_ge u.rx.count kRxCapacity with hroom | hfull
      · obtain ⟨-, -, -, htail, hcount⟩ := RingBuffer.push_fields hroom byte
        exact ⟨htail, fun hsome =>
          ⟨hcount.trans_ne (Nat.succ_ne_zero _), RingBuffer.pop_push hsome byte⟩⟩
      · rw [RingBuffer.push_of_full hfull]
        exact ⟨rfl, fun hsome => ⟨hsome, rfl, rfl⟩⟩

theorem read_of_initialised {u : Uart} (h : u.initialised = true) :
    u.read = (u.rx.pop.1, { u with rx := u.rx.pop.2 }) := by
  rw [read, h]
  rfl

end Uart

namespace UartSteps

/-- The steps that the accesses come to. A read of a byte is taken for done with the store of the
count, and one that finds nothing with the test. -/
def steps (s : UartSteps) : Action → List UartStep
  | .advance =>
      match s.reader with
      | .masked => if s.rx.count = 0 then [.read none] else []
      | .loaded byte _ => [.read (some byte)]
      | .seen was => [.takeOverrun was]
      | _ => []
  | .write data => [.write data]
  | .irq irq => [.irq irq]
  | .read | .takeOverrun => []

/-- The interrupt leaves the word as it is that has been loaded and is about to be stored. -/
def Apart (s : UartSteps) : Action → Prop
  | .irq irq => s.reader.Keeps s (s.onIrq irq)
  | _ => True

instance (s : UartSteps) : DecidablePred s.Apart
  | .irq irq => inferInstanceAs (Decidable (s.reader.Keeps s (s.onIrq irq)))
  | .read | .takeOverrun | .advance | .write _ => inferInstanceAs (Decidable True)

/-- How far the reader is with the queue that the driver has. -/
def ReaderMatches (s : UartSteps) (u : Uart) : Prop :=
  match s.reader with
  | .tested => s.rx.tail.val = u.rx.tail ∧ s.rx.count ≠ 0
  | .copied byte => s.rx.tail.val = u.rx.tail ∧ u.rx.pop.1 = some byte
  | .advanced byte => s.rx.tail.val = u.rx.pop.2.tail ∧ u.rx.pop.1 = some byte
  | .loaded byte count =>
      s.rx.tail.val = u.rx.pop.2.tail ∧ u.rx.pop.1 = some byte ∧ count = s.rx.count
  | .seen was => s.rx.tail.val = u.rx.tail ∧ was = s.overrun
  | _ => s.rx.tail.val = u.rx.tail

structure Matches (s : UartSteps) (u : Uart) : Prop where
  initialised : u.initialised = true
  buf : s.rx.buf = u.rx.buf
  head : s.rx.head.val = u.rx.head
  count : s.rx.count = u.rx.count
  overrun : s.overrun = u.overrun
  reader : s.ReaderMatches u

variable {s t : UartSteps} {u : Uart}

theorem matches_start (u : Uart) : (start u).Matches (u.init true true).2 :=
  ⟨rfl, rfl, rfl, rfl, rfl, rfl⟩

theorem Matches.advance (h : s.Matches u) (hadvance : s.advance = some t) :
    ∃ v, PartialRuns.run Uart.take u (s.steps .advance) = some v ∧ t.Matches v := by
  obtain ⟨hinit, hbuf, hhead, hcount, hoverrun, hreader⟩ := h
  have hread := Uart.read_of_initialised hinit
  unfold ReaderMatches at hreader
  cases advances hadvance with
  | foundNone hat hempty heq =>
      rw [hat] at hreader
      have hpop : u.rx.pop = (none, u.rx) := dif_pos (hcount.symm.trans hempty)
      rw [hpop] at hread
      rw [heq, steps, hat]
      dsimp only
      rw [if_pos hempty]
      refine ⟨u, ?_, hinit, hbuf, hhead, hcount, hoverrun, hreader⟩
      rw [PartialRuns.run_cons, Uart.take, hread]
      rfl
  | foundSome hat hsome heq =>
      rw [hat] at hreader
      rw [heq, steps, hat]
      dsimp only
      rw [if_neg hsome]
      exact ⟨u, rfl, hinit, hbuf, hhead, hcount, hoverrun, hreader, hsome⟩
  | copied hat heq =>
      rw [hat] at hreader
      obtain ⟨htail, hsome⟩ := hreader
      rw [heq, steps, hat]
      refine ⟨u, rfl, hinit, hbuf, hhead, hcount, hoverrun, htail, ?_⟩
      rw [(RingBuffer.pop_of_ne_zero (hcount ▸ hsome)).1, ← hbuf, ← htail]
      exact congrArg some (Ring.get_eq_cell _ _ s.rx.tail.isLt).symm
  | advanced byte hat heq =>
      rw [hat] at hreader
      obtain ⟨htail, hbyte⟩ := hreader
      rw [heq, steps, hat]
      refine ⟨u, rfl, hinit, hbuf, hhead, hcount, hoverrun, ?_, hbyte⟩
      have hmoved := (RingBuffer.pop_of_ne_zero (RingBuffer.ne_zero_of_pop hbyte)).2.2.2.1
      rw [hmoved, ← htail]
      rfl
  | loaded byte hat heq =>
      rw [hat] at hreader
      rw [heq, steps, hat]
      exact ⟨u, rfl, hinit, hbuf, hhead, hcount, hoverrun, hreader.1, hreader.2, rfl⟩
  | stored byte count hat heq =>
      rw [hat] at hreader
      obtain ⟨htail, hbyte, rfl⟩ := hreader
      obtain ⟨-, hsame, hkept, -, hless⟩ :=
        RingBuffer.pop_of_ne_zero (RingBuffer.ne_zero_of_pop hbyte)
      rw [hbyte] at hread
      rw [heq, steps, hat]
      refine ⟨{ u with rx := u.rx.pop.2 }, ?_, hinit, ?_, ?_, ?_, hoverrun, htail⟩
      · dsimp only
        rw [PartialRuns.run_cons, Uart.take, hread, if_pos rfl]
        rfl
      · exact hbuf.trans hsame.symm
      · exact hhead.trans hkept.symm
      · rw [hless, ← hcount]
  | returned got hat heq =>
      rw [hat] at hreader
      rw [heq, steps, hat]
      exact ⟨u, rfl, hinit, hbuf, hhead, hcount, hoverrun, hreader⟩
  | taken was hat heq =>
      rw [hat] at hreader
      obtain ⟨htail, rfl⟩ := hreader
      rw [heq, steps, hat]
      refine ⟨{ u with overrun := false }, ?_, hinit, hbuf, hhead, hcount, rfl, htail⟩
      dsimp only
      rw [PartialRuns.run_cons, Uart.take, Uart.takeOverrun, hoverrun, if_pos rfl]
      rfl

/-- What the interrupt does to the queue and the flag. -/
theorem Matches.receive (h : s.Matches u) (received : Option UInt8) :
    (s.receiveByte received).rx.buf = (u.receiveByte received).rx.buf ∧
      (s.receiveByte received).rx.head.val = (u.receiveByte received).rx.head ∧
      (s.receiveByte received).rx.count = (u.receiveByte received).rx.count ∧
      (s.receiveByte received).overrun = (u.receiveByte received).overrun := by
  obtain ⟨-, hbuf, hhead, hcount, hoverrun, -⟩ := h
  cases received with
  | none => exact ⟨hbuf, hhead, hcount, hoverrun⟩
  | some byte =>
      unfold UartSteps.receiveByte Uart.receiveByte
      rcases Nat.lt_or_ge u.rx.count kRxCapacity with hroom | hfull
      · obtain ⟨hstored, hbuf', hhead', -, hcount'⟩ := RingBuffer.push_fields hroom byte
        simp only [RxQueue.push_of_room (hcount.trans_lt hroom), hstored, Bool.not_true,
          Bool.false_eq_true, if_false]
        refine ⟨?_, ?_, ?_, hoverrun⟩
        · rw [hbuf', ← hbuf]
          congr 1
        · rw [hhead', RxQueue.next_val, hhead]
        · rw [hcount', hcount]
      · have hfull' : s.rx.push byte = (false, s.rx) := if_pos (hcount.symm ▸ hfull)
        simp only [hfull', RingBuffer.push_of_full hfull, Bool.not_false, if_true]
        exact ⟨hbuf, hhead, hcount, trivial⟩

theorem onIrq_eq (s : UartSteps) (irq : Uart.Irq) :
    (s.onIrq irq).rx = (s.receiveByte irq.received).rx ∧
      (s.onIrq irq).overrun = (irq.lineError || (s.receiveByte irq.received).overrun) ∧
      (s.onIrq irq).reader = s.reader ∧ (s.onIrq irq).consumed = s.consumed ∧
      (s.onIrq irq).rx.tail = s.rx.tail := by
  have hreceive : (s.receiveByte irq.received).reader = s.reader ∧
      (s.receiveByte irq.received).consumed = s.consumed ∧
      (s.receiveByte irq.received).rx.tail = s.rx.tail := by
    cases irq.received with
    | none => exact ⟨rfl, rfl, rfl⟩
    | some byte =>
        refine ⟨rfl, rfl, ?_⟩
        unfold receiveByte RxQueue.push
        dsimp only
        split
        · rfl
        · rfl
  obtain ⟨hreader, hconsumed, htail⟩ := hreceive
  unfold onIrq
  dsimp only
  cases irq.lineError with
  | false => exact ⟨rfl, rfl, hreader, hconsumed, htail⟩
  | true => exact ⟨rfl, rfl, hreader, hconsumed, htail⟩

theorem Matches.irq (h : s.Matches u) {irq : Uart.Irq} (hapart : s.Apart (.irq irq)) :
    (s.onIrq irq).Matches (u.onIrq irq).2 := by
  obtain ⟨hbuf, hhead, hcount, hoverrun⟩ := h.receive irq.received
  obtain ⟨hrx, hflag, hsame, -, htail⟩ := s.onIrq_eq irq
  obtain ⟨hrx', hflag'⟩ := u.onIrq_receiver irq
  obtain ⟨htail', hfront⟩ := u.receiveByte_front irq.received
  have hreader := h.reader
  unfold ReaderMatches at hreader
  unfold Apart at hapart
  refine ⟨(u.onIrq_initialised irq).trans h.initialised, ?_, ?_, ?_, ?_, ?_⟩
  · rw [hrx, hrx', hbuf]
  · rw [hrx, hrx', hhead]
  · rw [hrx, hrx', hcount]
  · rw [hflag, hflag', hoverrun]
  · unfold ReaderMatches
    rw [hsame, htail, hrx', htail']
    cases hat : s.reader with
    | tested =>
        rw [hat] at hreader
        obtain ⟨hplace, hsome⟩ := hreader
        refine ⟨hplace, ?_⟩
        rw [hrx, hcount]
        exact (hfront (h.count ▸ hsome)).1
    | copied byte =>
        rw [hat] at hreader
        obtain ⟨hplace, hbyte⟩ := hreader
        obtain ⟨-, hbyte', -⟩ := hfront (RingBuffer.ne_zero_of_pop hbyte)
        exact ⟨hplace, hbyte'.trans hbyte⟩
    | advanced byte =>
        rw [hat] at hreader
        obtain ⟨hplace, hbyte⟩ := hreader
        obtain ⟨-, hbyte', hplace'⟩ := hfront (RingBuffer.ne_zero_of_pop hbyte)
        exact ⟨hplace.trans hplace'.symm, hbyte'.trans hbyte⟩
    | loaded byte count =>
        rw [hat] at hreader hapart
        obtain ⟨hplace, hbyte, hloaded⟩ := hreader
        obtain ⟨-, hbyte', hplace'⟩ := hfront (RingBuffer.ne_zero_of_pop hbyte)
        exact ⟨hplace.trans hplace'.symm, hbyte'.trans hbyte, hloaded.trans hapart.symm⟩
    | seen was =>
        rw [hat] at hreader hapart
        exact ⟨hreader.1, hreader.2.trans hapart.symm⟩
    | idle | masked | popped =>
        rw [hat] at hreader
        exact hreader

theorem Matches.write (h : s.Matches u) (data : Option (List UInt8)) :
    s.Matches (u.write data).2 := by
  obtain ⟨hrx, hoverrun⟩ := u.write_rx data
  obtain ⟨hinit, hbuf, hhead, hcount, hflag, hreader⟩ := h
  refine ⟨(u.write_initialised data).trans hinit, ?_, ?_, ?_, hflag.trans hoverrun.symm, ?_⟩
  · rw [hrx, hbuf]
  · rw [hrx, hhead]
  · rw [hrx, hcount]
  · unfold ReaderMatches at hreader ⊢
    rw [hrx]
    exact hreader

theorem Matches.exec (h : s.Matches u) {a : Action} (hapart : s.Apart a)
    (hexec : s.exec a = some t) :
    ∃ v, PartialRuns.run Uart.take u (s.steps a) = some v ∧ t.Matches v := by
  cases a with
  | read | takeOverrun =>
      obtain ⟨hidle, ht⟩ := Option.ite_none_right_eq_some.mp hexec
      obtain ⟨hinit, hbuf, hhead, hcount, hoverrun, hreader⟩ := h
      unfold ReaderMatches at hreader
      rw [hidle] at hreader
      rw [← Option.some.inj ht]
      exact ⟨u, rfl, hinit, hbuf, hhead, hcount, hoverrun, by simpa [ReaderMatches] using hreader⟩
  | advance => exact h.advance hexec
  | write data =>
      rw [← Option.some.inj hexec]
      exact ⟨(u.write data).2, rfl, h.write data⟩
  | irq irq =>
      obtain ⟨-, ht⟩ := Option.ite_none_right_eq_some.mp hexec
      rw [← Option.some.inj ht]
      exact ⟨(u.onIrq irq).2, rfl, h.irq hapart⟩

/-- What the steps return is what the control task gets. -/
theorem returned_exec {a : Action} (hexec : s.exec a = some t) :
    t.consumed ++ t.reader.given =
      s.consumed ++ s.reader.given ++ (s.steps a).filterMap UartStep.returned := by
  cases a with
  | read | takeOverrun =>
      obtain ⟨hidle, ht⟩ := Option.ite_none_right_eq_some.mp hexec
      rw [← Option.some.inj ht, hidle]
      simp [Reader.given, steps]
  | write data =>
      rw [← Option.some.inj hexec]
      simp [steps, UartStep.returned]
  | irq irq =>
      obtain ⟨-, ht⟩ := Option.ite_none_right_eq_some.mp hexec
      obtain ⟨-, -, hreader, hconsumed, -⟩ := s.onIrq_eq irq
      rw [← Option.some.inj ht, hreader, hconsumed]
      simp [steps, UartStep.returned]
  | advance =>
      cases advances hexec with
      | foundNone hat hempty heq =>
          rw [heq, steps, hat]
          simp [hempty, Reader.given, UartStep.returned]
      | foundSome hat hsome heq =>
          rw [heq, steps, hat]
          simp [hsome, Reader.given]
      | copied hat heq | advanced byte hat heq | loaded byte hat heq =>
          rw [heq, steps, hat]
          simp [Reader.given]
      | stored byte count hat heq | returned got hat heq | taken was hat heq =>
          rw [heq, steps, hat]
          simp [Reader.given, UartStep.returned]

/-- **Without the race a read is one step.** Where the interrupt leaves the count and the flag alone
between their load and their store, the accesses come to steps that the driver of the board takes in
this order, with the same results, and that leave it in a state that matches. -/
theorem follows_driver {actions : List Action}
    (h : PartialRuns.run exec (start u) actions = some s)
    (hapart : PartialRuns.Along exec Apart (start u) actions) :
    ∃ v, PartialRuns.run Uart.take (u.init true true).2
        (PartialRuns.outputs exec steps (start u) actions) = some v ∧ s.Matches v ∧
      (PartialRuns.outputs exec steps (start u) actions).filterMap UartStep.returned =
        s.consumed ++ s.reader.given := by
  refine PartialRuns.run_history
    (I := fun actions s => ∃ v, PartialRuns.run Uart.take (u.init true true).2
        (PartialRuns.outputs exec steps (start u) actions) = some v ∧ s.Matches v ∧
      (PartialRuns.outputs exec steps (start u) actions).filterMap UartStep.returned =
        s.consumed ++ s.reader.given)
    ⟨_, rfl, matches_start u, rfl⟩ (fun actions a s t hs hleaves hmatches hexec => ?_) hapart h
  obtain ⟨v, hv, hmatches, hreturned⟩ := hmatches
  obtain ⟨w, hw, hmatches'⟩ := hmatches.exec hleaves hexec
  rw [PartialRuns.outputs_concat hs]
  refine ⟨w, ?_, hmatches', ?_⟩
  · rw [PartialRuns.run_append, hv]
    exact hw
  · rw [List.filterMap_append, hreturned]
    exact (returned_exec hexec).symm

/-- The second byte comes in before the count is loaded. -/
theorem follows_driver_earlyByte :
    let u := Uart.new (Vector.replicate kTxCapacity 0) (Vector.replicate kRxCapacity 0)
    let actions : List Action := [.irq ⟨some 0xAA, true, false⟩, .read, .advance, .advance,
      .irq ⟨some 0x01, true, false⟩, .advance, .advance, .advance, .advance]
    ∃ s v, PartialRuns.run exec (start u) actions = some s ∧
      PartialRuns.run Uart.take (u.init true true).2
        (PartialRuns.outputs exec steps (start u) actions) = some v ∧ v.rx.count = 1 := by
  intro u actions
  have hruns : (PartialRuns.run exec (start u) actions).any (fun s => s.rx.count == 1) = true := by
    decide +kernel
  obtain ⟨s, hs, hone⟩ := (Option.any_eq_true _ _).mp hruns
  have hapart : PartialRuns.Along exec Apart (start u) actions := by decide +kernel
  obtain ⟨v, hv, hmatches, -⟩ := follows_driver hs hapart
  exact ⟨s, v, hs, hv, hmatches.count.symm.trans (beq_iff_eq.mp hone)⟩

end UartSteps

end Bcm
