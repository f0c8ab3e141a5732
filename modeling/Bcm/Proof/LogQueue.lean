import Bcm.Lib.BoundedQueue
import Bcm.Proof.EventLog

/-!
# The event log refines a queue that drops its oldest record

The log keeps no read index: where the oldest record is follows from the write cursor and the count.
Whatever is logged, read and cleared in between, the records it has yet to give are those of the
queue.
-/

namespace Bcm.Logger

open BoundedQueue

/-- The calls. `out` is what the reader's variable holds before. -/
inductive Op where
  | log (timestampMs : Nat) (event : LogEvent) (arg : Nat)
  | pop (out : LogRecord)
  | clear

/-- A call, with what it returns and what the reader's variable holds after. -/
def exec (l : Logger) : Op → Logger × Option (Bool × LogRecord)
  | .log timestampMs event arg => (l.log timestampMs event arg, none)
  | .pop out => (l.pop.2, some (l.pop.1.isSome, l.pop.1.getD out))
  | .clear => (l.clear, none)

/-- The same calls on a queue of at most 32 records. -/
def queueStep (q : Dropping LogRecord) : Op → Dropping LogRecord × Option (Bool × LogRecord)
  | .log timestampMs event arg =>
      (if event = .none then q else q.append 32 ⟨timestampMs, event, arg⟩, none)
  | .pop out => (q.pop, some (q.items.head?.isSome, q.items.head?.getD out))
  | .clear => (.empty, none)

/-- The log holds what the queue holds, and its 16-bit counter says what the queue discarded. -/
structure Refines (l : Logger) (q : Dropping LogRecord) : Prop where
  contents : l.contents = q.items
  dropped : l.dropped = min 65535 q.discarded

theorem refines_empty : new.Refines .empty := ⟨rfl, rfl⟩

variable {l : Logger} {q : Dropping LogRecord}

theorem Refines.length (h : l.Refines q) : l.count = q.items.length := by
  rw [← h.contents, length_contents]

theorem dropped_log {event : LogEvent} (h : event ≠ .none) (l : Logger) (timestampMs arg : Nat) :
    (l.log timestampMs event arg).dropped =
      if l.count < 32 then l.dropped
      else if l.dropped < 0xFFFF then l.dropped + 1 else l.dropped := by
  unfold log
  rw [if_neg h]
  split
  · rfl
  · rfl

theorem dropped_pop (l : Logger) : l.pop.2.dropped = l.dropped := by
  unfold pop
  split
  · rfl
  · rfl

theorem Refines.log (h : l.Refines q) (timestampMs : Nat) (event : LogEvent) (arg : Nat) :
    (l.log timestampMs event arg).Refines
      (if event = .none then q else q.append 32 ⟨timestampMs, event, arg⟩) := by
  by_cases hnone : event = .none
  · rw [if_pos hnone, hnone, log_none]
    exact h
  · have hlength := h.length
    have hbound : q.items.length ≤ 32 := hlength ▸ l.count_le
    rw [if_neg hnone]
    constructor
    · rw [contents_log l hnone, Dropping.items_append hbound, h.contents, hlength]
    · have hdropped := h.dropped
      rw [dropped_log hnone, Dropping.discarded_append, hlength]
      split
      · exact hdropped
      · split
        · omega
        · omega

theorem Refines.pop (h : l.Refines q) : l.pop.2.Refines q.pop := by
  constructor
  · rw [l.pop_contents.2, h.contents]
    rfl
  · rw [dropped_pop, h.dropped]
    rfl

theorem exec_refines (l : Logger) (q : Dropping LogRecord) (op : Op) (h : l.Refines q) :
    (l.exec op).2 = (queueStep q op).2 ∧ (l.exec op).1.Refines (queueStep q op).1 := by
  cases op with
  | log timestampMs event arg => exact ⟨rfl, h.log timestampMs event arg⟩
  | pop out =>
      rw [exec, queueStep, l.pop_contents.1, h.contents]
      exact ⟨rfl, h.pop⟩
  | clear => exact ⟨rfl, refines_empty.contents, refines_empty.dropped⟩

/-- **The log is a queue that drops its oldest record**, and says how many it dropped. -/
theorem refines_dropping (ops : List Op) :
    let l := Transducer.final exec new ops
    let q := Transducer.final queueStep .empty ops
    Transducer.outputs exec new ops = Transducer.outputs queueStep .empty ops ∧
      l.contents = q.items ∧ l.count = q.items.length ∧ q.items.length ≤ 32 ∧
      l.dropped = min 65535 q.discarded := by
  intro l q
  have hrefines : l.Refines q := Transducer.final_related exec exec_refines refines_empty ops
  refine ⟨?_, hrefines.contents, hrefines.length, ?_, hrefines.dropped⟩
  · exact Transducer.outputs_eq_of_related exec exec_refines refines_empty ops
  · rw [← hrefines.length]
    exact l.count_le

end Bcm.Logger
