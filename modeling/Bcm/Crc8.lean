import Bcm.Lib.Checksum
import Mathlib.Data.FinEnum
import Mathlib.Logic.Function.Iterate

/-!
# CRC-8

Polynomial 0x07, initial value 0, no reflection and no final xor (`crc8.h`). One byte is eight
shifts of the register, and a shift can be undone: the bit that left decides whether the polynomial
was added, and the polynomial is odd, so the lowest bit tells.
-/

namespace Bcm

structure Crc8 where
  value : UInt8
  deriving DecidableEq, Repr

namespace Crc8

def kPolynomial : UInt8 := 0x07

def kInitial : UInt8 := 0x00

def new : Crc8 := ⟨kInitial⟩

def shiftBit (value : UInt8) : UInt8 :=
  if value &&& 0x80 ≠ 0 then (value <<< 1) ^^^ kPolynomial else value <<< 1

def update (crc : Crc8) (byte : UInt8) : Crc8 := ⟨shiftBit^[8] (crc.value ^^^ byte)⟩

def compute (data : List UInt8) : UInt8 := (data.foldl update new).value

def unshiftBit (value : UInt8) : UInt8 :=
  if value &&& 0x01 ≠ 0 then ((value ^^^ kPolynomial) >>> 1) ||| 0x80 else value >>> 1

theorem unshiftBit_shiftBit : ∀ value : UInt8, unshiftBit (shiftBit value) = value := by
  decide +kernel

theorem shiftBit_iterate_injective (n : Nat) : Function.Injective shiftBit^[n] :=
  Function.Injective.iterate (Function.LeftInverse.injective unshiftBit_shiftBit) n

/-! ### The register is linear over the bits -/

theorem topBit_cases : ∀ value : UInt8, value &&& 0x80 = 0 ∨ value &&& 0x80 = 0x80 := by
  decide +kernel

theorem topBit_xor (a b : UInt8) : (a ^^^ b) &&& 0x80 = (a &&& 0x80) ^^^ (b &&& 0x80) := by
  apply UInt8.toBitVec_inj.mp
  apply BitVec.eq_of_getLsbD_eq
  intro i _
  simp only [UInt8.toBitVec_and, UInt8.toBitVec_xor, BitVec.getLsbD_and, BitVec.getLsbD_xor,
    Bool.and_xor_distrib_right]

theorem shiftBit_xor (a b : UInt8) : shiftBit (a ^^^ b) = shiftBit a ^^^ shiftBit b := by
  have hcancel : a <<< 1 ^^^ b <<< 1 = (a <<< 1 ^^^ kPolynomial) ^^^ (b <<< 1 ^^^ kPolynomial) := by
    symm
    calc (a <<< 1 ^^^ kPolynomial) ^^^ (b <<< 1 ^^^ kPolynomial)
        = (a <<< 1 ^^^ b <<< 1) ^^^ (kPolynomial ^^^ kPolynomial) := by ac_rfl
      _ = a <<< 1 ^^^ b <<< 1 := by rw [UInt8.xor_self, UInt8.xor_zero]
  unfold shiftBit
  rw [topBit_xor, UInt8.shiftLeft_xor]
  -- the polynomial is added when exactly one of the two top bits is set
  rcases topBit_cases a with ha | ha <;> rcases topBit_cases b with hb | hb <;> rw [ha, hb]
  · rfl
  · exact UInt8.xor_assoc ..
  · change a <<< 1 ^^^ b <<< 1 ^^^ kPolynomial = (a <<< 1 ^^^ kPolynomial) ^^^ b <<< 1
    ac_rfl
  · exact hcancel

theorem shiftBit_iterate_xor (n : Nat) (a b : UInt8) :
    shiftBit^[n] (a ^^^ b) = shiftBit^[n] a ^^^ shiftBit^[n] b := by
  induction n generalizing a b with
  | zero => rfl
  | succ n ih =>
    rw [Function.iterate_succ_apply, shiftBit_xor]
    exact ih (shiftBit a) (shiftBit b)

theorem shiftBit_iterate_zero (n : Nat) : shiftBit^[n] 0 = 0 :=
  Function.iterate_fixed (by decide) n

theorem shiftBit_iterate_eq_zero_iff (n : Nat) (value : UInt8) :
    shiftBit^[n] value = 0 ↔ value = 0 := by
  constructor
  · intro h
    apply shiftBit_iterate_injective n
    rw [h, shiftBit_iterate_zero]
  · rintro rfl
    exact shiftBit_iterate_zero n

/-- One byte into the bare register. -/
def absorb (value byte : UInt8) : UInt8 := shiftBit^[8] (value ^^^ byte)

theorem foldl_update (crc : Crc8) (data : List UInt8) :
    data.foldl update crc = ⟨data.foldl absorb crc.value⟩ := by
  induction data generalizing crc with
  | nil => rfl
  | cons byte data ih => exact ih (update crc byte)

theorem compute_eq (data : List UInt8) : compute data = data.foldl absorb 0 :=
  congrArg Crc8.value (foldl_update new data)

theorem absorb_additive : Checksum.Additive (· ^^^ ·) (· ^^^ ·) absorb := by
  intro s t a b
  calc shiftBit^[8] ((s ^^^ t) ^^^ (a ^^^ b))
      = shiftBit^[8] ((s ^^^ a) ^^^ (t ^^^ b)) := by
        congr 1
        ac_rfl
    _ = shiftBit^[8] (s ^^^ a) ^^^ shiftBit^[8] (t ^^^ b) := shiftBit_iterate_xor 8 _ _

theorem update_injective_state (byte : UInt8) : Function.Injective fun crc => update crc byte := by
  intro a b heq
  have hshift := shiftBit_iterate_injective 8 (congrArg Crc8.value heq)
  have hvalue : a.value = b.value := (UInt8.xor_left_inj byte).mp hshift
  cases a
  cases b
  exact congrArg Crc8.mk hvalue

theorem update_injective_byte (crc : Crc8) : Function.Injective (update crc) := by
  intro a b heq
  have hshift := shiftBit_iterate_injective 8 (congrArg Crc8.value heq)
  exact (UInt8.xor_right_inj crc.value).mp hshift

/-- **Every change of a single byte changes the CRC**, whatever stands before and after it. -/
theorem compute_ne_of_ne (front back : List UInt8) {a b : UInt8} (hne : a ≠ b) :
    compute (front ++ a :: back) ≠ compute (front ++ b :: back) := by
  intro heq
  have hcrc : (front ++ a :: back).foldl update new = (front ++ b :: back).foldl update new :=
    congrArg Crc8.mk heq
  exact Checksum.foldl_ne_of_ne update_injective_state update_injective_byte front back hne new hcrc

end Crc8

end Bcm
