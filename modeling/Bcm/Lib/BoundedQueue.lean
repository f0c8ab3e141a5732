import Bcm.Lib.Transducer

/-!
# Bounded queues

A first-in first-out list that takes no more than `capacity` items: a push into a full queue is
refused. `pop` and `peek` write the oldest item over a variable of the caller and leave the variable
alone when there is none. The other kind of bounded queue makes room by discarding its oldest item,
and counts what it discards.
-/

namespace BoundedQueue

variable {α : Type*} (capacity : Nat)

/-- The calls. `out` is what the caller's variable holds before. -/
inductive Op (α : Type*) where
  | push (item : α)
  | pop (out : α)
  | peek (out : α)
  | clear

/-- The answers. `out` is what the caller's variable holds after. -/
inductive Answer (α : Type*) where
  | pushed (accepted : Bool)
  | took (found : Bool) (out : α)
  | cleared
  deriving DecidableEq

def take (out : α) : Option α → Answer α
  | none => .took false out
  | some item => .took true item

def step (items : List α) : Op α → List α × Answer α
  | .push item =>
      if items.length < capacity then (items ++ [item], .pushed true) else (items, .pushed false)
  | .pop out => (items.tail, take out items.head?)
  | .peek out => (items, take out items.head?)
  | .clear => ([], .cleared)

/-- The item that a call brought into the queue, told from its answer. -/
def entered : Op α × Answer α → Option α
  | (.push item, .pushed true) => some item
  | _ => none

/-- The item that a call took out of the queue, told from its answer. -/
def left : Op α × Answer α → Option α
  | (.pop _, .took true item) => some item
  | _ => none

/-- One call adds at the back what enters and removes from the front what leaves. -/
theorem step_conserves (items : List α) {op : Op α} (hop : op ≠ .clear) :
    items ++ (entered (op, (step capacity items op).2)).toList =
      (left (op, (step capacity items op).2)).toList ++ (step capacity items op).1 := by
  cases op with
  | push item =>
      rw [step]
      split
      · rfl
      · exact List.append_nil items
  | pop out =>
      cases items with
      | nil => rfl
      | cons first rest => exact List.append_nil (first :: rest)
  | peek out =>
      cases items with
      | nil => rfl
      | cons first rest => exact List.append_nil (first :: rest)
  | clear => exact absurd rfl hop

/-- **Conservation.** Until a clear, what was there and what entered are, in that order, what left
and what is there. -/
theorem conserves (items : List α) {ops : List (Op α)} (hops : .clear ∉ ops) :
    items ++ (ops.zip (Transducer.outputs (step capacity) items ops)).filterMap entered =
      (ops.zip (Transducer.outputs (step capacity) items ops)).filterMap left ++
        Transducer.final (step capacity) items ops := by
  have hcons : ∀ (f : Op α × Answer α → Option α) first rest,
      (first :: rest).filterMap f = (f first).toList ++ rest.filterMap f := by
    intro f first rest
    rw [List.filterMap_cons]
    cases f first with
    | none => rfl
    | some item => rfl
  induction ops generalizing items with
  | nil => exact List.append_nil items
  | cons op ops ih =>
      have hop : op ≠ .clear := (List.ne_of_not_mem_cons hops).symm
      have hrest : .clear ∉ ops := List.not_mem_of_not_mem_cons hops
      have hstep := step_conserves capacity items hop
      rw [Transducer.outputs_cons, List.zip_cons_cons, hcons, hcons, Transducer.final_cons,
        ← List.append_assoc, hstep, List.append_assoc, ih _ hrest, List.append_assoc]

/-! ### Discarding the oldest -/

structure Dropping (α : Type*) where
  items : List α
  discarded : Nat

namespace Dropping

def append (q : Dropping α) (item : α) : Dropping α :=
  if q.items.length < capacity then { q with items := q.items ++ [item] }
  else ⟨(q.items ++ [item]).tail, q.discarded + 1⟩

def pop (q : Dropping α) : Dropping α := { q with items := q.items.tail }

def empty : Dropping α := ⟨[], 0⟩

variable {capacity} {q : Dropping α}

theorem items_append (h : q.items.length ≤ capacity) (item : α) :
    (q.append capacity item).items = (q.items ++ [item]).drop (q.items.length + 1 - capacity) := by
  unfold append
  split
  case isTrue hroom =>
    have hdrop : q.items.length + 1 - capacity = 0 := by omega
    rw [hdrop, List.drop_zero]
  case isFalse hfull =>
    have hdrop : q.items.length + 1 - capacity = 1 := by omega
    rw [hdrop, List.drop_one]

theorem discarded_append (item : α) :
    (q.append capacity item).discarded =
      if q.items.length < capacity then q.discarded else q.discarded + 1 := by
  unfold append
  split
  · rfl
  · rfl

end Dropping

end BoundedQueue
