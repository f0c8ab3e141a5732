import Mathlib.Data.List.Basic

/-!
# Event groups

A word of bits that several tasks set and one task waits for. A wait for all the bits of a mask is
over when they are there, and takes them with it, or when its time is up, and then it takes nothing.
So a bit of the mask is there to be waited for once for each time it is set.
-/

/-- The operations a kernel offers on its event groups. `waitBits` is the end of a wait for all the
bits of a mask with clear on exit, and returns the bits it saw. -/
structure EventGroup (G : Type*) (w : Nat) where
  value : G → BitVec w
  setBits : G → BitVec w → G
  waitBits : G → BitVec w → BitVec w × G

namespace EventGroup

variable {G : Type*} {w : Nat}

/-- The documented behaviour. -/
structure Lawful (E : EventGroup G w) : Prop where
  value_setBits : ∀ g more, E.value (E.setBits g more) = E.value g ||| more
  returned : ∀ g mask, (E.waitBits g mask).1 = E.value g
  cleared : ∀ g mask, E.value g &&& mask = mask →
    E.value (E.waitBits g mask).2 = E.value g &&& ~~~mask
  timed_out : ∀ g mask, E.value g &&& mask ≠ mask → E.value (E.waitBits g mask).2 = E.value g

/-- A word by itself. -/
def word (w : Nat) : EventGroup (BitVec w) w where
  value bits := bits
  setBits bits more := bits ||| more
  waitBits bits mask := (bits, if bits &&& mask = mask then bits &&& ~~~mask else bits)

theorem word_lawful (w : Nat) : (word w).Lawful where
  value_setBits _ _ := rfl
  returned _ _ := rfl
  cleared _ _ hall := if_pos hall
  timed_out _ _ hsome := if_neg hsome

/-- A bit is there, as a number. -/
def pending (E : EventGroup G w) (g : G) (i : Nat) : Nat := if (E.value g).getLsbD i then 1 else 0

theorem pending_le (E : EventGroup G w) (g : G) (i : Nat) : E.pending g i ≤ 1 := by
  unfold pending
  split
  · exact Nat.le_refl 1
  · exact Nat.zero_le 1

variable {E : EventGroup G w} (h : E.Lawful)

include h

theorem Lawful.pending_setBits (g : G) {more : BitVec w} {i : Nat} (hi : more.getLsbD i = false) :
    E.pending (E.setBits g more) i = E.pending g i := by
  unfold pending
  rw [h.value_setBits, BitVec.getLsbD_or, hi, Bool.or_false]

/-- **A satisfied wait costs a bit.** The wait finds every bit of its mask and leaves none. -/
theorem Lawful.pending_satisfied {g : G} {mask : BitVec w} (hall : E.value g &&& mask = mask)
    {i : Nat} (hi : mask.getLsbD i = true) :
    E.pending g i = 1 ∧ E.pending (E.waitBits g mask).2 i = 0 := by
  have hset : (E.value g).getLsbD i = true := by
    have hbit := congrArg (fun bits => bits.getLsbD i) hall
    simpa [hi] using hbit
  unfold pending
  rw [h.cleared g mask hall, BitVec.getLsbD_and, BitVec.getLsbD_not, hset, hi]
  simp

theorem Lawful.pending_timed_out {g : G} {mask : BitVec w} (hsome : E.value g &&& mask ≠ mask)
    (i : Nat) : E.pending (E.waitBits g mask).2 i = E.pending g i := by
  unfold pending
  rw [h.timed_out g mask hsome]

end EventGroup
