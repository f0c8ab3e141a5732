import Mathlib.Data.List.Basic

/-!
# Message queues

A kernel's queue of copied items, with its senders and receivers not willing to wait: a send to a
full queue is refused, and a receive from an empty one gives nothing.
-/

/-- The operations a kernel offers on its queues. -/
structure MessageQueue (Q α : Type*) where
  contents : Q → List α
  send : Q → α → Q
  receive : Q → Option α × Q

namespace MessageQueue

variable {Q α : Type*}

/-- The documented behaviour, of a queue created for `capacity` items. -/
structure Lawful (M : MessageQueue Q α) (capacity : Nat) : Prop where
  send_of_room : ∀ q item, (M.contents q).length < capacity →
    M.contents (M.send q item) = M.contents q ++ [item]
  send_of_full : ∀ q item, capacity ≤ (M.contents q).length →
    M.contents (M.send q item) = M.contents q
  received : ∀ q, (M.receive q).1 = (M.contents q).head?
  rest : ∀ q, M.contents (M.receive q).2 = (M.contents q).tail

/-- A list by itself. -/
def plain (α : Type*) (capacity : Nat) : MessageQueue (List α) α where
  contents items := items
  send items item := if items.length < capacity then items ++ [item] else items
  receive items := (items.head?, items.tail)

theorem plain_lawful (α : Type*) (capacity : Nat) : (plain α capacity).Lawful capacity where
  send_of_room _ _ hroom := if_pos hroom
  send_of_full _ _ hfull := if_neg (Nat.not_lt.mpr hfull)
  received _ := rfl
  rest _ := rfl

variable {M : MessageQueue Q α} {capacity : Nat} (h : M.Lawful capacity)

include h

/-- A send puts the item behind the others, or is without effect. -/
theorem Lawful.send_cases (q : Q) (item : α) :
    M.contents (M.send q item) = M.contents q ++ [item] ∨
      M.contents (M.send q item) = M.contents q := by
  rcases Nat.lt_or_ge (M.contents q).length capacity with hroom | hfull
  · exact Or.inl (h.send_of_room q item hroom)
  · exact Or.inr (h.send_of_full q item hfull)

/-- What a receive takes and what it leaves are what was there. -/
theorem Lawful.receive_conserves (q : Q) :
    (M.receive q).1.toList ++ M.contents (M.receive q).2 = M.contents q := by
  rw [h.received, h.rest]
  cases M.contents q with
  | nil => rfl
  | cons first rest => rfl

end MessageQueue
