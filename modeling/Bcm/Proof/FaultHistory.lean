import Bcm.Lib.FirstSeen
import Bcm.Lib.Runs
import Bcm.Proof.FaultStore
import Mathlib.Data.List.DropRight

/-!
# The trouble-code store and the calls so far

What the store holds, told from the calls alone: its codes are the first eight that were set since
it was last wiped, with how often each was set and whether it was set or cleared last.
-/

namespace Bcm.FaultMgr

open FirstSeen

inductive Op where
  | set (code : Dtc)
  | clear (code : Dtc)
  | clearAll
  deriving DecidableEq

def exec (f : FaultMgr) : Op → FaultMgr
  | .set code => f.set code
  | .clear code => f.clear code
  | .clearAll => f.clearAll

/-! ### Reading the calls -/

/-- The calls since the store was last wiped. -/
def epoch (ops : List Op) : List Op := ops.rtakeWhile fun op => decide (op ≠ .clearAll)

def codeSet : Op → Option Dtc
  | .set code => if code = Dtc.none then none else some code
  | .clear _ => none
  | .clearAll => none

/-- The codes set since the store was last wiped, in order. -/
def sets (ops : List Op) : List Dtc := (epoch ops).filterMap codeSet

def asks (code : Dtc) : Op → Option Bool
  | .set code' => if code' = code then some true else none
  | .clear code' => if code' = code then some false else none
  | .clearAll => none

/-- Whether the last set or clear of a code was a set. -/
def lastAsked (code : Dtc) (ops : List Op) : Option Bool := (ops.filterMap (asks code)).getLast?

theorem sets_clearAll (ops : List Op) : sets (ops ++ [.clearAll]) = [] := by
  rw [sets, epoch, List.rtakeWhile_concat_neg, List.filterMap_nil]
  simp

theorem sets_concat (ops : List Op) {op : Op} (hop : op ≠ .clearAll) :
    sets (ops ++ [op]) = sets ops ++ (codeSet op).toList := by
  rw [sets, epoch, List.rtakeWhile_concat_pos, List.filterMap_append]
  · rfl
  · simpa using hop

theorem count_codeSet_of_ne {code code' : Dtc} (h : code ≠ code') :
    (codeSet (.set code)).toList.count code' = 0 := by
  rw [codeSet]
  split
  · rfl
  · rw [Option.toList_some, List.count_singleton, beq_false_of_ne h, if_neg Bool.false_ne_true]

theorem lastAsked_concat (code : Dtc) (ops : List Op) (op : Op) :
    lastAsked code (ops ++ [op]) = (asks code op).or (lastAsked code ops) := by
  rw [lastAsked, List.filterMap_append]
  cases hask : asks code op with
  | none =>
      rw [List.filterMap_cons_none hask, List.filterMap_nil, List.append_nil]
      rfl
  | some asked =>
      rw [List.filterMap_cons_some hask, List.getLast?_append]
      rfl

theorem none_not_mem_sets (ops : List Op) : Dtc.none ∉ sets ops := by
  intro hmem
  obtain ⟨op, -, hop⟩ := List.mem_filterMap.mp hmem
  cases op with
  | set code =>
      by_cases hcode : code = Dtc.none
      · rw [codeSet, if_pos hcode] at hop
        exact Option.some_ne_none _ hop.symm
      · rw [codeSet, if_neg hcode] at hop
        exact hcode (Option.some.inj hop)
  | clear code => exact Option.some_ne_none _ hop.symm
  | clearAll => exact Option.some_ne_none _ hop.symm

/-! ### What the store keeps of them -/

structure Records (ops : List Op) (f : FaultMgr) : Prop where
  codes : f.codes = firstSeen maxDtc (sets ops)
  active : ∀ code, f.isActive code = true ↔ code ∈ f.codes ∧ lastAsked code ops = some true
  occurrences : ∀ code e, f.lookup code = some e →
    e.occurrences = min 65535 ((sets ops).count code)

theorem records_new {ops : List Op} (hsets : sets ops = []) : new.Records ops := by
  constructor
  · rw [hsets]
    rfl
  · intro code
    simp [isActive, new, FaultMgr.codes]
  · intro code e he
    simp [lookup, new] at he

theorem fits_iff (f : FaultMgr) (code : Dtc) :
    f.Fits code ↔ code ∈ f.codes ∨ f.codes.length < maxDtc := by
  rw [Fits, FaultMgr.codes, List.length_map]

variable {ops : List Op} {f : FaultMgr}

/-- A code that the store has room for and has not got was not set. -/
theorem Records.mem_codes_of_fits (h : f.Records ops) {code : Dtc} (hfits : f.Fits code) :
    code ∈ f.codes ↔ code ∈ sets ops := by
  constructor
  · intro hmem
    rw [h.codes] at hmem
    exact mem_of_mem_firstSeen maxDtc hmem
  · intro hset
    rcases (fits_iff f code).mp hfits with hmem | hroom
    · exact hmem
    · rw [h.codes] at hroom ⊢
      exact (mem_firstSeen_of_room hroom).mpr hset

theorem Records.codes_set (h : f.Records ops) {code : Dtc} (hcode : code ≠ Dtc.none) :
    (f.set code).codes = firstSeen maxDtc (sets ops ++ [code]) := by
  by_cases hfits : f.Fits code
  · rw [codes_set_of_fits hcode hfits]
    split
    case isTrue hmem =>
      rw [h.codes] at hmem ⊢
      exact (firstSeen_concat_of_mem hmem).symm
    case isFalse hnew =>
      have hroom := ((fits_iff f code).mp hfits).resolve_left hnew
      rw [h.codes] at hnew hroom ⊢
      exact (firstSeen_concat_of_room hnew hroom).symm
  · have hfull : maxDtc ≤ f.codes.length := by
      rw [fits_iff] at hfits
      exact Nat.le_of_not_lt (not_or.mp hfits).2
    rw [set_of_not_fits hfits]
    rw [h.codes] at hfull ⊢
    exact (firstSeen_concat_of_full hfull).symm

theorem mem_codes_set {code : Dtc} (hcode : code ≠ Dtc.none) (hfits : f.Fits code) (code' : Dtc) :
    code' ∈ (f.set code).codes ↔ code' = code ∨ code' ∈ f.codes := by
  rw [codes_set_of_fits hcode hfits]
  split
  case isTrue hmem =>
    constructor
    · exact Or.inr
    · rintro (rfl | hmem')
      · exact hmem
      · exact hmem'
  case isFalse => rw [List.mem_append, List.mem_singleton, or_comm]

/-- A code that is set and stays out of the store leaves what is said of the others. -/
theorem Records.of_absent (h : f.Records ops) {code : Dtc} (habsent : code ∉ f.codes)
    (hcodes : f.codes = firstSeen maxDtc (sets (ops ++ [.set code]))) :
    f.Records (ops ++ [.set code]) := by
  have hother : ∀ code' ∈ f.codes, code ≠ code' := by
    rintro code' hmem rfl
    exact habsent hmem
  refine ⟨hcodes, ?_, ?_⟩
  · intro code'
    rw [h.active, lastAsked_concat]
    apply and_congr_right
    intro hmem
    rw [asks, if_neg (hother code' hmem), Option.none_or]
  · intro code' e he
    have hmem : code' ∈ f.codes := by
      rw [← lookup_isSome_iff, he]
      rfl
    rw [h.occurrences code' e he, sets_concat ops (by simp), List.count_append,
      count_codeSet_of_ne (hother code' hmem), Nat.add_zero]

theorem Records.active_set (h : f.Records ops) {code : Dtc} (hcode : code ≠ Dtc.none)
    (hfits : f.Fits code) (code' : Dtc) :
    (f.set code).isActive code' = true ↔
      code' ∈ (f.set code).codes ∧ lastAsked code' (ops ++ [.set code]) = some true := by
  rw [isActive_set hcode hfits, mem_codes_set hcode hfits, lastAsked_concat, asks]
  by_cases hsame : code' = code
  · rw [if_pos hsame.symm, decide_eq_true hsame]
    simp [hsame]
  · rw [if_neg (Ne.symm hsame), decide_eq_false hsame, Bool.false_or, Option.none_or, h.active]
    simp [hsame]

/-- A first coming counts one, and each later one counts one more, up to the 16 bits. -/
theorem Records.occurrences_set (h : f.Records ops) {code : Dtc} (hfits : f.Fits code) :
    (raised code (f.lookup code)).occurrences = min 65535 ((sets ops).count code + 1) := by
  cases hlookup : f.lookup code with
  | none =>
      have hnew : code ∉ sets ops := by
        rw [← h.mem_codes_of_fits hfits, ← lookup_isSome_iff, hlookup]
        simp
      rw [List.count_eq_zero.mpr hnew]
      rfl
  | some e =>
      have hbefore := h.occurrences code e hlookup
      unfold raised
      dsimp only
      split
      · omega
      · omega

theorem Records.set (h : f.Records ops) (code : Dtc) :
    (f.set code).Records (ops ++ [.set code]) := by
  have hsets : sets (ops ++ [.set code]) = sets ops ++ (codeSet (.set code)).toList :=
    sets_concat ops (by simp)
  by_cases hnone : code = Dtc.none
  · have habsent : code ∉ f.codes := by
      rw [h.codes, hnone]
      exact fun hmem => none_not_mem_sets ops (mem_of_mem_firstSeen maxDtc hmem)
    have hcodeSet : codeSet (.set code) = none := if_pos hnone
    have hsame : f.set code = f := if_pos hnone
    rw [hcodeSet, Option.toList_none, List.append_nil] at hsets
    rw [hsame]
    apply h.of_absent habsent
    rw [hsets]
    exact h.codes
  · have hcodeSet : codeSet (.set code) = some code := if_neg hnone
    have hcodes := h.codes_set hnone
    rw [hcodeSet, Option.toList_some] at hsets
    rw [← hsets] at hcodes
    by_cases hfits : f.Fits code
    · refine ⟨hcodes, h.active_set hnone hfits, ?_⟩
      intro code' e he
      rw [lookup_set hnone hfits] at he
      rw [hsets, List.count_append, List.count_singleton]
      split at he
      case isTrue hsame =>
        rw [← Option.some.inj he, h.occurrences_set hfits, hsame, beq_self_eq_true, if_pos rfl]
      case isFalse hother =>
        rw [h.occurrences code' e he, beq_false_of_ne (Ne.symm hother), if_neg Bool.false_ne_true]
        rfl
    · have habsent : code ∉ f.codes := (not_or.mp hfits).1
      have hsame := set_of_not_fits hfits
      rw [hsame] at hcodes ⊢
      exact h.of_absent habsent hcodes

theorem Records.clear (h : f.Records ops) (code : Dtc) :
    (f.clear code).Records (ops ++ [.clear code]) := by
  have hsets : sets (ops ++ [.clear code]) = sets ops :=
    (sets_concat ops (by simp)).trans (List.append_nil _)
  constructor
  · rw [codes_clear, hsets]
    exact h.codes
  · intro code'
    rw [isActive_clear, codes_clear, lastAsked_concat, asks]
    by_cases hsame : code' = code
    · rw [if_pos hsame.symm]
      simp [hsame]
    · rw [if_neg (Ne.symm hsame), Option.none_or, decide_eq_true hsame, Bool.true_and]
      exact h.active code'
  · intro code' e he
    rw [hsets]
    rw [lookup_clear] at he
    split at he
    · obtain ⟨e', he', rfl⟩ := Option.map_eq_some_iff.mp he
      exact h.occurrences code' e' he'
    · exact h.occurrences code' e he

theorem records_run (ops : List Op) : (Runs.run exec new ops).Records ops := by
  induction ops using List.reverseRecOn with
  | nil => exact records_new rfl
  | append_singleton ops op ih =>
      rw [Runs.run_concat]
      cases op with
      | set code => exact ih.set code
      | clear code => exact ih.clear code
      | clearAll => exact records_new (sets_clearAll ops)

/-! ### Giving out the active codes -/

theorem isActive_of_mem (hnodup : f.codes.Nodup) {e : FaultEntry} (he : e ∈ f.entries) :
    f.isActive e.code = e.active := by
  have hfind : f.lookup e.code = some e := FirstMatch.find?_key hnodup he
  rw [isActive_eq, hfind]
  rfl

theorem activeCodes_eq (hnodup : f.codes.Nodup) (capacity : Nat) :
    f.activeCodes capacity = (f.codes.filter f.isActive).take capacity := by
  rw [activeCodes, FaultMgr.codes, List.filter_map]
  congr 2
  apply List.filter_congr
  intro e he
  exact (isActive_of_mem hnodup he).symm

/-- The memory with some codes written to it from the place `n` on. -/
def overwrite (out : Nat → Dtc) (n : Nat) (codes : List Dtc) : Nat → Dtc :=
  fun i => if n ≤ i then codes[i - n]?.getD (out i) else out i

theorem overwrite_nil (out : Nat → Dtc) (n : Nat) : overwrite out n [] = out := by
  funext i
  simp [overwrite]

theorem overwrite_zero (out : Nat → Dtc) (codes : List Dtc) :
    overwrite out 0 codes = fun i => codes[i]?.getD (out i) := by
  funext i
  simp [overwrite]

theorem overwrite_cons (out : Nat → Dtc) (n : Nat) (code : Dtc) (codes : List Dtc) :
    overwrite out n (code :: codes) =
      overwrite (fun i => if i = n then code else out i) (n + 1) codes := by
  funext i
  unfold overwrite
  dsimp only
  rcases Nat.lt_trichotomy i n with hbelow | heq | habove
  · rw [if_neg (by omega), if_neg (by omega), if_neg (by omega)]
  · rw [if_pos (by omega), if_neg (by omega), if_pos heq, heq, Nat.sub_self]
    rfl
  · have hindex : i - n = i - (n + 1) + 1 := by omega
    rw [if_pos (by omega), if_pos (by omega), if_neg (by omega), hindex,
      List.getElem?_cons_succ]

/-- The loop writes the active codes one behind the other until the places are used up. -/
theorem fillActive_eq (capacity : Nat) (entries : List FaultEntry) (out : Nat → Dtc) (n : Nat) :
    fillActive capacity out n entries =
      let codes := ((entries.filter (·.active)).map (·.code)).take (capacity - n)
      (overwrite out n codes, n + codes.length) := by
  dsimp only
  induction entries generalizing out n with
  | nil =>
      rw [fillActive, List.filter_nil, List.map_nil, List.take_nil, overwrite_nil]
      rfl
  | cons e rest ih =>
      rw [fillActive]
      split
      case isTrue hroom =>
        split
        case isTrue hactive =>
          have hleft : capacity - n = capacity - (n + 1) + 1 := by omega
          have hfirst : (e :: rest).filter (·.active) = e :: rest.filter (·.active) :=
            List.filter_cons_of_pos hactive
          rw [ih, hfirst, List.map_cons, hleft, List.take_succ_cons, overwrite_cons,
            List.length_cons]
          congr 1
          omega
        case isFalse hcleared => rw [ih, List.filter_cons_of_neg hcleared]
      case isFalse hfull =>
        have hnone : capacity - n = 0 := by omega
        rw [hnone, List.take_zero, overwrite_nil]
        rfl

theorem activeCodesInto_eq (hnodup : f.codes.Nodup) (out : Nat → Dtc) (capacity : Nat) :
    f.activeCodesInto (some out) capacity =
      let codes := (f.codes.filter f.isActive).take capacity
      (some fun i => codes[i]?.getD (out i), codes.length) := by
  have hfill := fillActive_eq capacity f.entries out 0
  have hcodes := activeCodes_eq hnodup capacity
  rw [activeCodes] at hcodes
  rw [Nat.sub_zero, hcodes] at hfill
  dsimp only at hfill
  rw [Nat.zero_add] at hfill
  rw [activeCodesInto, hfill]
  dsimp only
  rw [overwrite_zero]

/-- **The store is a bounded table of the codes that were set.** -/
theorem store_of_calls (ops : List Op) :
    let f := Runs.run exec new ops
    (f.codes.Nodup ∧ Dtc.none ∉ f.codes ∧ f.codes.length ≤ maxDtc) ∧
      f.codes = (sets ops).eraseDups.take maxDtc ∧
      (∀ code, f.isActive code = true ↔ code ∈ f.codes ∧ lastAsked code ops = some true) ∧
      (∀ e ∈ f.entries, e.occurrences = min 65535 ((sets ops).count e.code)) ∧
      ∀ out capacity, f.activeCodesInto (some out) capacity =
        let codes := (f.codes.filter f.isActive).take capacity
        (some fun i => codes[i]?.getD (out i), codes.length) := by
  intro f
  have hrecords : f.Records ops := records_run ops
  have hnodup : f.codes.Nodup := hrecords.codes ▸ nodup_firstSeen maxDtc (sets ops)
  refine ⟨⟨hnodup, ?_, ?_⟩, hrecords.codes, hrecords.active, ?_, ?_⟩
  · rw [hrecords.codes]
    exact fun hmem => none_not_mem_sets ops (mem_of_mem_firstSeen maxDtc hmem)
  · rw [hrecords.codes]
    exact length_firstSeen_le maxDtc (sets ops)
  · intro e he
    exact hrecords.occurrences e.code e (FirstMatch.find?_key hnodup he)
  · exact activeCodesInto_eq hnodup

end Bcm.FaultMgr
