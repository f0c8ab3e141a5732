import Bcm.Proof.ErrorPatterns
import Mathlib.Dynamics.PeriodicPts.Defs
import Mathlib.Data.List.Basic
import Mathlib.Data.Nat.Prime.Basic
import Mathlib.Tactic.NormNum.Prime

/-!
# Swapped bytes

Two bytes `a` and `b` that change places leave the error `a ^^^ b` at both positions, so the swap
is missed exactly when the register returns to `a ^^^ b` over the distance between them. Every state
of the register recurs after 127 shifts. Within a frame the distance is less than 127 bytes, so only
a state that one shift already keeps can recur, and `0xFD` is the only nonzero one.
-/

namespace Bcm

namespace Crc8

/-! ### Two bytes apart -/

theorem foldl_absorb_xor (data : List UInt8) (value error : UInt8) :
    data.foldl absorb (value ^^^ error) =
      data.foldl absorb value ^^^ shiftBit^[8 * data.length] error := by
  induction data generalizing value error with
  | nil => rfl
  | cons byte data ih =>
    have hbyte : absorb (value ^^^ error) byte = absorb value byte ^^^ shiftBit^[8] error := by
      calc shiftBit^[8] ((value ^^^ error) ^^^ byte)
          = shiftBit^[8] ((value ^^^ byte) ^^^ error) := by
            congr 1
            ac_rfl
        _ = absorb value byte ^^^ shiftBit^[8] error := shiftBit_iterate_xor 8 _ _
    have hcount : 8 * (byte :: data).length = 8 * data.length + 8 := by
      rw [List.length_cons]
      omega
    rw [List.foldl_cons, hbyte, ih, hcount, Function.iterate_add_apply]
    rfl

theorem xor_eq_iff (a b c : UInt8) : a ^^^ b = c ↔ a = c ^^^ b := by
  constructor
  · rintro rfl
    rw [UInt8.xor_assoc, UInt8.xor_self, UInt8.xor_zero]
  · rintro rfl
    rw [UInt8.xor_assoc, UInt8.xor_self, UInt8.xor_zero]

theorem absorb_injective_state (byte : UInt8) : Function.Injective fun value => absorb value byte :=
  fun _ _ heq => (UInt8.xor_left_inj byte).mp (shiftBit_iterate_injective 8 heq)

theorem compute_swap_iff (front mid back : List UInt8) (a b : UInt8) :
    compute (front ++ b :: (mid ++ a :: back)) = compute (front ++ a :: (mid ++ b :: back)) ↔
      shiftBit^[8 * (mid.length + 1)] (a ^^^ b) = a ^^^ b := by
  let start := front.foldl absorb 0
  let reached := mid.foldl absorb (absorb start a)
  have hfirst : absorb start b = absorb start a ^^^ shiftBit^[8] (a ^^^ b) := by
    calc shiftBit^[8] (start ^^^ b)
        = shiftBit^[8] ((start ^^^ a) ^^^ (a ^^^ b)) := by
          rw [UInt8.xor_assoc, ← UInt8.xor_assoc a a b, UInt8.xor_self, UInt8.zero_xor]
      _ = absorb start a ^^^ shiftBit^[8] (a ^^^ b) := shiftBit_iterate_xor 8 _ _
  have hreached : mid.foldl absorb (absorb start b) =
      reached ^^^ shiftBit^[8 * (mid.length + 1)] (a ^^^ b) := by
    rw [hfirst, foldl_absorb_xor, ← Function.iterate_add_apply]
    rfl
  have hstates : compute (front ++ b :: (mid ++ a :: back)) =
        compute (front ++ a :: (mid ++ b :: back)) ↔
      absorb (mid.foldl absorb (absorb start b)) a = absorb reached b := by
    rw [compute_eq, compute_eq, List.foldl_append, List.foldl_append, List.foldl_cons,
      List.foldl_cons, List.foldl_append, List.foldl_append, List.foldl_cons, List.foldl_cons]
    exact (Checksum.foldl_injective absorb_injective_state back).eq_iff
  rw [hstates, hreached, absorb, absorb, (shiftBit_iterate_injective 8).eq_iff, UInt8.xor_assoc,
    UInt8.xor_right_inj, xor_eq_iff, UInt8.xor_comm a b]

/-! ### States that recur -/

theorem iterate_feed {value : UInt8} (h : shiftBit^[127] value = value) (bit : Bool) :
    shiftBit^[127] (feed value bit) = feed value bit := by
  have hbit : shiftBit^[127] (if bit then 0x80 else 0) = if bit then 0x80 else 0 := by
    cases bit with
    | false => exact shiftBit_iterate_zero 127
    | true => decide +kernel
  rw [feed, ← Function.iterate_succ_apply, Function.iterate_succ_apply', shiftBit_iterate_xor, h,
    hbit]

theorem iterate_foldl_feed {value : UInt8} (h : shiftBit^[127] value = value)
    (pattern : List Bool) :
    shiftBit^[127] (pattern.foldl feed value) = pattern.foldl feed value := by
  induction pattern generalizing value with
  | nil => exact h
  | cons bit pattern ih => exact ih (iterate_feed h bit)

/-- Feeding a byte into an empty register reaches every state. -/
theorem isPeriodicPt_shiftBit (value : UInt8) : Function.IsPeriodicPt shiftBit 127 value := by
  have hfed := iterate_foldl_feed (shiftBit_iterate_zero 127) (byteBits value)
  rw [foldl_feed_byteBits, absorb, UInt8.zero_xor, ← Function.iterate_add_apply, Nat.add_comm,
    Function.iterate_add_apply] at hfed
  exact shiftBit_iterate_injective 8 hfed

theorem shiftBit_eq_self_iff : ∀ value, shiftBit value = value ↔ value = 0 ∨ value = 0xFD := by
  decide +kernel

theorem shiftBit_iterate_eq_self_iff {n : Nat} (hn : Nat.Coprime n 127) (value : UInt8) :
    shiftBit^[n] value = value ↔ value = 0 ∨ value = 0xFD := by
  rw [← shiftBit_eq_self_iff]
  constructor
  · intro h
    have hgcd := Function.IsPeriodicPt.gcd h (isPeriodicPt_shiftBit value)
    rw [hn] at hgcd
    exact hgcd
  · intro h
    exact Function.iterate_fixed h n

theorem coprime_of_lt {k : Nat} (hpos : 0 < k) (hlt : k < 127) : Nat.Coprime (8 * k) 127 := by
  apply Nat.Coprime.mul_left
  · decide
  · exact (Nat.coprime_of_lt_prime (by omega) hlt (by norm_num)).symm

/-! ### The bytes of a frame -/

/-- The bytes at the two positions change places. -/
def swapped (data : List UInt8) (i j : Fin data.length) : List UInt8 :=
  (data.set i data[j]).set j data[i]

theorem exists_between {data : List UInt8} {i j : Fin data.length} (hlt : i < j) :
    ∃ front mid back : List UInt8, front.length = i.val ∧
      front.length + (mid.length + 1) = j.val ∧
      data = front ++ data[i] :: (mid ++ data[j] :: back) := by
  have hlt' : i.val < j.val := hlt
  have hj := j.isLt
  refine ⟨data.take i, (data.drop (i + 1)).take (j - (i + 1)), data.drop (j + 1), ?_, ?_, ?_⟩
  · rw [List.length_take]
    omega
  · rw [List.length_take, List.length_take, List.length_drop]
    omega
  · have hdrop : (data.drop (i + 1)).drop (j - (i + 1)) = data[j] :: data.drop (j + 1) := by
      rw [List.drop_drop, Nat.add_sub_of_le hlt']
      exact List.drop_eq_getElem_cons hj
    rw [← hdrop, List.take_append_drop]
    calc data = data.take i ++ data.drop i := (List.take_append_drop i data).symm
      _ = data.take i ++ data[i] :: data.drop (i + 1) := by
        rw [List.drop_eq_getElem_cons i.isLt]
        rfl

theorem set_set_of_eq {data front mid back : List UInt8} {a b : UInt8}
    (h : data = front ++ a :: (mid ++ b :: back)) :
    (data.set front.length b).set (front.length + (mid.length + 1)) a =
      front ++ b :: (mid ++ a :: back) := by
  rw [h, List.set_append_right _ _ (Nat.le_refl _), Nat.sub_self, List.set_cons_zero,
    List.set_append_right _ _ (Nat.le_add_right _ _), Nat.add_sub_cancel_left, List.set_cons_succ,
    List.set_append_right _ _ (Nat.le_refl _), Nat.sub_self, List.set_cons_zero]

theorem swapped_comm (data : List UInt8) {i j : Fin data.length} (hne : i ≠ j) :
    swapped data i j = swapped data j i := by
  have hval : i.val ≠ j.val := fun heq => hne (Fin.ext heq)
  exact List.set_comm data[j] data[i] hval

theorem compute_swapped_iff_of_lt {data : List UInt8} (hlen : data.length ≤ 34)
    {i j : Fin data.length} (hlt : i < j) :
    compute (swapped data i j) = compute data ↔
      data[i] ^^^ data[j] = 0 ∨ data[i] ^^^ data[j] = 0xFD := by
  obtain ⟨front, mid, back, hi, hj, hdata⟩ := exists_between hlt
  have hswapped := set_set_of_eq hdata
  rw [hj, hi] at hswapped
  have hcoprime : Nat.Coprime (8 * (mid.length + 1)) 127 := by
    have hbound := j.isLt
    apply coprime_of_lt
    · omega
    · omega
  calc compute (swapped data i j) = compute data
      ↔ compute (front ++ data[j] :: (mid ++ data[i] :: back)) =
          compute (front ++ data[i] :: (mid ++ data[j] :: back)) := by
        rw [← hdata, ← hswapped]
        rfl
    _ ↔ shiftBit^[8 * (mid.length + 1)] (data[i] ^^^ data[j]) = data[i] ^^^ data[j] :=
        compute_swap_iff ..
    _ ↔ data[i] ^^^ data[j] = 0 ∨ data[i] ^^^ data[j] = 0xFD :=
        shiftBit_iterate_eq_self_iff hcoprime _

theorem not_compute_swapped_ne :
    ¬ ∀ data : List UInt8, data.length ≤ 34 → ∀ i j : Fin data.length, data[i] ≠ data[j] →
      compute (swapped data i j) ≠ compute data := by
  intro h
  exact h [0x01, 0x02, 0x00, 0xFD] (by decide) 2 3 (by decide) (by decide +kernel)

/-- **A swap within a frame is detected unless the two bytes differ by `0xFD`**, and that swap is
missed at every distance. -/
theorem compute_swapped_ne_iff {data : List UInt8} (hlen : data.length ≤ 34)
    (i j : Fin data.length) (hne : data[i] ≠ data[j]) :
    compute (swapped data i j) ≠ compute data ↔ data[i] ^^^ data[j] ≠ 0xFD := by
  have hij : i ≠ j := by
    rintro rfl
    exact hne rfl
  have hnonzero : data[i] ^^^ data[j] ≠ 0 := fun hzero => hne (UInt8.xor_eq_zero_iff.mp hzero)
  apply not_congr
  calc compute (swapped data i j) = compute data
      ↔ data[i] ^^^ data[j] = 0 ∨ data[i] ^^^ data[j] = 0xFD := by
        rcases Nat.lt_or_gt_of_ne (fun heq => hij (Fin.ext heq)) with hlt | hgt
        · exact compute_swapped_iff_of_lt hlen hlt
        · rw [swapped_comm data hij, UInt8.xor_comm data[i]]
          exact compute_swapped_iff_of_lt hlen hgt
    _ ↔ data[i] ^^^ data[j] = 0xFD := or_iff_right hnonzero

/-- The ends of a three-byte string. -/
theorem compute_swapped_ne_iff_ends :
    compute (swapped [0x01, 0x02, 0x03] 0 2) ≠ compute [0x01, 0x02, 0x03] := by
  have hlen : [0x01, 0x02, (0x03 : UInt8)].length ≤ 34 := by decide
  exact (compute_swapped_ne_iff hlen 0 2 (by decide)).mpr (by decide)

end Crc8

end Bcm
