import Bcm.Crc8
import Mathlib.Algebra.Ring.Parity

/-!
# Errors the CRC detects

The check of a corrupted string differs from the check of the string by the check of the error, so
an error is missed exactly when the register reads it as zero. Fed bit by bit, the register keeps
the parity of what it was fed, since the polynomial has an even number of terms, and it cannot
forget a single nonzero byte, since a shift can be undone. An error of odd weight and a burst of at
most eight bits are both seen, at any length.
-/

namespace Bcm

namespace Crc8

/-! ### Bits, most significant first -/

def byteBits (byte : UInt8) : List Bool := (List.range 8).map byte.toBitVec.getMsbD

def bits (data : List UInt8) : List Bool := data.flatMap byteBits

theorem length_bits (data : List UInt8) : (bits data).length = 8 * data.length := by
  induction data with
  | nil => rfl
  | cons byte data ih =>
    rw [bits, List.flatMap_cons, List.length_append, ← bits, ih, List.length_cons]
    change 8 + 8 * data.length = 8 * (data.length + 1)
    omega

/-- The bits set in the error are flipped. -/
def corrupt (data error : List UInt8) : List UInt8 := List.zipWith (· ^^^ ·) data error

theorem byteBits_xor (a b : UInt8) :
    byteBits (a ^^^ b) = List.zipWith (· ^^ ·) (byteBits a) (byteBits b) := by
  rw [byteBits, byteBits, byteBits, List.zipWith_map, List.zipWith_self]
  apply List.map_congr_left
  intro i _
  rw [UInt8.toBitVec_xor, BitVec.getMsbD_xor]

/-! ### The register bit by bit -/

def feed (value : UInt8) (bit : Bool) : UInt8 := shiftBit (value ^^^ if bit then 0x80 else 0)

theorem feed_additive : Checksum.Additive (· ^^^ ·) (· ^^ ·) feed := by
  intro s t a b
  have hbit : (if (a ^^ b) then (0x80 : UInt8) else 0) =
      (if a then 0x80 else 0) ^^^ (if b then 0x80 else 0) := by
    cases a <;> cases b <;> rfl
  calc shiftBit ((s ^^^ t) ^^^ if (a ^^ b) then 0x80 else 0)
      = shiftBit ((s ^^^ if a then 0x80 else 0) ^^^ (t ^^^ if b then 0x80 else 0)) := by
        rw [hbit]
        congr 1
        ac_rfl
    _ = feed s a ^^^ feed t b := shiftBit_xor _ _

theorem foldl_feed_zeros (value : UInt8) (n : Nat) :
    (List.replicate n false).foldl feed value = shiftBit^[n] value := by
  induction n generalizing value with
  | zero => rfl
  | succ n ih =>
    have hfeed : feed value false = shiftBit value := congrArg shiftBit UInt8.xor_zero
    rw [List.replicate_succ, List.foldl_cons, hfeed, ih]
    rfl

theorem foldl_feed_byteBits (value byte : UInt8) :
    (byteBits byte).foldl feed value = absorb value byte := by
  have hbyte : ∀ byte, (byteBits byte).foldl feed 0 = absorb 0 byte := by decide +kernel
  have hvalue : (byteBits 0).foldl feed value = absorb value 0 := by
    rw [absorb, UInt8.xor_zero]
    exact foldl_feed_zeros value 8
  have hlen : (byteBits 0).length = (byteBits byte).length := rfl
  have hsplit := feed_additive.foldl_zipWith hlen value 0
  calc (byteBits byte).foldl feed value
      = (List.zipWith (· ^^ ·) (byteBits 0) (byteBits byte)).foldl feed (value ^^^ 0) := by
        rw [← byteBits_xor, UInt8.zero_xor, UInt8.xor_zero]
    _ = (byteBits 0).foldl feed value ^^^ (byteBits byte).foldl feed 0 := hsplit
    _ = absorb value 0 ^^^ absorb 0 byte := by rw [hvalue, hbyte]
    _ = absorb (value ^^^ 0) (0 ^^^ byte) := (absorb_additive value 0 0 byte).symm
    _ = absorb value byte := by rw [UInt8.xor_zero, UInt8.zero_xor]

theorem foldl_feed_bits (value : UInt8) (data : List UInt8) :
    (bits data).foldl feed value = data.foldl absorb value := by
  induction data generalizing value with
  | nil => rfl
  | cons byte data ih =>
    rw [bits, List.flatMap_cons, List.foldl_append, foldl_feed_byteBits, ← bits, ih]
    rfl

theorem compute_eq_feed (data : List UInt8) : compute data = (bits data).foldl feed 0 := by
  rw [compute_eq, foldl_feed_bits]

/-! ### Odd weight -/

def parity (value : UInt8) : Bool := decide (Odd ((byteBits value).count true))

theorem parity_feed : ∀ value bit, parity (feed value bit) = (parity value ^^ bit) := by
  decide +kernel

theorem parity_foldl (value : UInt8) (pattern : List Bool) :
    parity (pattern.foldl feed value) = (parity value ^^ decide (Odd (pattern.count true))) := by
  induction pattern generalizing value with
  | nil => exact (Bool.xor_false _).symm
  | cons bit pattern ih =>
    rw [List.foldl_cons, ih, parity_feed]
    cases bit with
    | false => rw [List.count_cons_of_ne (by decide), Bool.xor_false]
    | true =>
      have hflip : decide (Odd (pattern.count true + 1)) = !decide (Odd (pattern.count true)) := by
        rw [← decide_not]
        exact decide_eq_decide.mpr Nat.odd_add_one
      rw [List.count_cons_self, hflip]
      cases parity value <;> cases decide (Odd (pattern.count true)) <;> rfl

theorem foldl_feed_ne_zero_of_odd {pattern : List Bool} (hodd : Odd (pattern.count true)) :
    pattern.foldl feed 0 ≠ 0 := by
  intro hzero
  have hparity := parity_foldl 0 pattern
  rw [hzero, decide_eq_true hodd] at hparity
  exact absurd hparity (by decide)

/-! ### Bursts -/

theorem foldl_feed_window_ne_zero {window : List Bool} (hlen : window.length = 8)
    (hset : true ∈ window) : window.foldl feed 0 ≠ 0 := by
  have hall : ∀ a b c d e f g h, true ∈ [a, b, c, d, e, f, g, h] →
      [a, b, c, d, e, f, g, h].foldl feed 0 ≠ 0 := by
    decide +kernel
  match window, hlen with
  | [a, b, c, d, e, f, g, h], _ => exact hall a b c d e f g h hset

theorem foldl_feed_ne_zero_of_burst {pattern : List Bool} (hset : true ∈ pattern)
    (hlen : 8 ≤ pattern.length) (hburst : Checksum.InWindow 8 pattern) :
    pattern.foldl feed 0 ≠ 0 := by
  obtain ⟨before, window, after, hwidth, rfl⟩ := hburst.split hlen
  have hwindow : true ∈ window := by
    rcases List.mem_append.mp hset with h | h
    · exact absurd (List.eq_of_mem_replicate h) (by decide)
    rcases List.mem_append.mp h with h | h
    · exact h
    · exact absurd (List.eq_of_mem_replicate h) (by decide)
  have hseen := foldl_feed_window_ne_zero hwidth hwindow
  rw [List.foldl_append, List.foldl_append, foldl_feed_zeros, foldl_feed_zeros,
    shiftBit_iterate_zero]
  intro hzero
  exact hseen ((shiftBit_iterate_eq_zero_iff after _).mp hzero)

/-! ### The received pair -/

theorem compute_corrupt {data error : List UInt8} (hlen : data.length = error.length) :
    compute (corrupt data error) = compute data ^^^ compute error := by
  rw [compute_eq, compute_eq, compute_eq]
  exact absorb_additive.foldl_zipWith hlen 0 0

/-- The check matches exactly when the register reads the error, its own bits included, as zero. -/
theorem compute_corrupt_eq_iff {data error : List UInt8} (hlen : data.length = error.length)
    (mask : UInt8) :
    compute (corrupt data error) = compute data ^^^ mask ↔ compute (error ++ [mask]) = 0 := by
  have hlast : compute (error ++ [mask]) = shiftBit^[8] (compute error ^^^ mask) := by
    rw [compute_eq, compute_eq, List.foldl_append]
    rfl
  rw [compute_corrupt hlen, UInt8.xor_right_inj, hlast, shiftBit_iterate_eq_zero_iff,
    UInt8.xor_eq_zero_iff]

/-- **Every error of odd weight and every burst of at most eight bits is detected**, in the bytes,
in the check or across both: `error` flips bits of the data and `mask` bits of the check. -/
theorem compute_corrupt_ne {data error : List UInt8} (hlen : data.length = error.length)
    (mask : UInt8) (hset : true ∈ bits (error ++ [mask]))
    (hkind : Odd ((bits (error ++ [mask])).count true) ∨
      Checksum.InWindow 8 (bits (error ++ [mask]))) :
    compute (corrupt data error) ≠ compute data ^^^ mask := by
  intro hmissed
  have hzero := (compute_corrupt_eq_iff hlen mask).mp hmissed
  rw [compute_eq_feed] at hzero
  rcases hkind with hodd | hburst
  · exact foldl_feed_ne_zero_of_odd hodd hzero
  · have hlong : 8 ≤ (bits (error ++ [mask])).length := by
      rw [length_bits, List.length_append, List.length_singleton]
      omega
    exact foldl_feed_ne_zero_of_burst hset hlong hburst hzero

/-- Four bits at the end of the data and four at the start of the check. -/
theorem compute_corrupt_ne_straddling :
    compute (corrupt [0x04, 0x02, 0x03, 0x01] [0, 0, 0, 0x0F]) ≠
      compute [0x04, 0x02, 0x03, 0x01] ^^^ 0xF0 := by
  have hburst : Checksum.InWindow 8 (bits ([0, 0, 0, 0x0F] ++ [0xF0])) :=
    ⟨28, by decide +kernel, by decide +kernel⟩
  have hlen : [0x04, 0x02, 0x03, (0x01 : UInt8)].length = [0, 0, 0, (0x0F : UInt8)].length := rfl
  exact compute_corrupt_ne hlen 0xF0 (by decide +kernel) (.inr hburst)

end Crc8

end Bcm
