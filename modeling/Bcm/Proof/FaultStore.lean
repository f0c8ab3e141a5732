import Bcm.Lib.FirstMatch
import Bcm.Records
import Mathlib.Data.List.Perm.Subperm

/-!
# The trouble-code store

The store is a table from codes to entries, in the order in which the codes came. Setting and
clearing a code change what is said of that code and of no other, unless the store is full.
-/

namespace Bcm.FaultMgr

/-- The entry of a code, the first there is. -/
def lookup (f : FaultMgr) (code : Dtc) : Option FaultEntry :=
  f.entries.find? fun e => decide (e.code = code)

def codes (f : FaultMgr) : List Dtc := f.entries.map (·.code)

theorem isActive_eq (f : FaultMgr) (code : Dtc) :
    f.isActive code = (f.lookup code).any (·.active) := rfl

theorem lookup_isSome_iff (f : FaultMgr) (code : Dtc) :
    (f.lookup code).isSome ↔ code ∈ f.codes := by
  simp [lookup, codes]

/-! ### The changes -/

section Modify

variable {g : FaultEntry → FaultEntry} (hg : ∀ e, (g e).code = e.code) (f : FaultMgr) (code : Dtc)

include hg

theorem codes_modifyCode : (f.modifyCode code g).codes = f.codes :=
  FirstMatch.map_modifyFirst _ g hg f.entries

theorem lookup_modifyCode (code' : Dtc) :
    (f.modifyCode code g).lookup code' =
      if code' = code then (f.lookup code').map g else f.lookup code' := by
  by_cases hsame : code' = code
  · rw [if_pos hsame, hsame]
    apply FirstMatch.find?_modifyFirst_self
    intro e
    rw [hg]
  · rw [if_neg hsame]
    apply FirstMatch.find?_modifyFirst_other
    intro e he
    have hcode : e.code = code := of_decide_eq_true he
    have hother : decide (e.code = code') = false := by
      rw [hcode]
      exact decide_eq_false (Ne.symm hsame)
    exact ⟨hother, by rw [hg]; exact hother⟩

end Modify

@[simp]
theorem codes_clear (f : FaultMgr) (code : Dtc) : (f.clear code).codes = f.codes := by
  apply codes_modifyCode
  intro e
  rfl

theorem lookup_clear (f : FaultMgr) (code code' : Dtc) :
    (f.clear code).lookup code' =
      if code' = code then (f.lookup code').map fun e => { e with active := false }
      else f.lookup code' := by
  apply lookup_modifyCode
  intro e
  rfl

/-- A cleared code is not active, and nothing else is touched. -/
theorem isActive_clear (f : FaultMgr) (code code' : Dtc) :
    (f.clear code).isActive code' = (decide (code' ≠ code) && f.isActive code') := by
  rw [isActive_eq, lookup_clear, isActive_eq]
  by_cases hsame : code' = code
  · rw [if_pos hsame, decide_eq_false (not_not.mpr hsame)]
    cases f.lookup code' with
    | none => rfl
    | some e => rfl
  · rw [if_neg hsame, decide_eq_true hsame, Bool.true_and]

theorem set_none (f : FaultMgr) : f.set Dtc.none = f := if_pos rfl

/-- A code that the store has, or has room for. -/
def Fits (f : FaultMgr) (code : Dtc) : Prop := code ∈ f.codes ∨ f.entries.length < maxDtc

theorem find_isSome_iff (f : FaultMgr) (code : Dtc) : (f.find code).isSome ↔ code ∈ f.codes := by
  simp [find, codes]

theorem codes_set_of_fits {f : FaultMgr} {code : Dtc} (hcode : code ≠ Dtc.none)
    (hfits : f.Fits code) :
    (f.set code).codes = if code ∈ f.codes then f.codes else f.codes ++ [code] := by
  have hfind := f.find_isSome_iff code
  unfold set
  rw [if_neg hcode]
  cases hindex : f.find code with
  | some i =>
      rw [hindex] at hfind
      rw [if_pos (hfind.mp rfl)]
      apply codes_modifyCode
      intro e
      rfl
  | none =>
      rw [hindex] at hfind
      have hnew : code ∉ f.codes := fun hmem => absurd (hfind.mpr hmem) (by simp)
      dsimp only
      rw [if_neg hnew, dif_pos (hfits.resolve_left hnew)]
      exact List.map_append

theorem set_of_not_fits {f : FaultMgr} {code : Dtc} (hfull : ¬f.Fits code) : f.set code = f := by
  obtain ⟨hnew, hroom⟩ := not_or.mp hfull
  have hfind : f.find code = none := by
    rw [← Option.not_isSome_iff_eq_none, find_isSome_iff]
    exact hnew
  unfold set
  rw [hfind]
  dsimp only
  rw [dif_neg hroom, ite_self]

/-- The entry of a code that is set, from the one it had. -/
def raised (code : Dtc) : Option FaultEntry → FaultEntry
  | none => ⟨code, 1, true⟩
  | some e =>
      { e with
        occurrences := if e.occurrences < 0xFFFF then e.occurrences + 1 else e.occurrences
        active := true }

theorem lookup_set {f : FaultMgr} {code : Dtc} (hcode : code ≠ Dtc.none) (hfits : f.Fits code)
    (code' : Dtc) :
    (f.set code).lookup code' =
      if code' = code then some (raised code (f.lookup code)) else f.lookup code' := by
  have hfind := f.find_isSome_iff code
  rw [← lookup_isSome_iff] at hfind
  unfold set
  rw [if_neg hcode]
  cases hindex : f.find code with
  | some i =>
      rw [hindex] at hfind
      obtain ⟨e, he⟩ := Option.isSome_iff_exists.mp (hfind.mp rfl)
      dsimp only
      rw [lookup_modifyCode]
      · by_cases hsame : code' = code
        · rw [if_pos hsame, if_pos hsame, hsame, he]
          rfl
        · rw [if_neg hsame, if_neg hsame]
      · intro e
        rfl
  | none =>
      rw [hindex] at hfind
      have hnone : f.lookup code = none := by
        rw [← Option.not_isSome_iff_eq_none, ← hfind]
        simp
      have hnew : code ∉ f.codes := by
        rw [← lookup_isSome_iff, hnone]
        simp
      dsimp only
      rw [dif_pos (hfits.resolve_left hnew), lookup, List.find?_append]
      change (f.lookup code').or _ = _
      by_cases hsame : code' = code
      · rw [if_pos hsame, hsame, hnone]
        simp [raised]
      · have hmiss : ¬code = code' := fun heq => hsame heq.symm
        rw [if_neg hsame]
        simp [hmiss]

/-- **A fault that fits is recorded**, and nothing else is touched. -/
theorem isActive_set {f : FaultMgr} {code : Dtc} (hcode : code ≠ Dtc.none) (hfits : f.Fits code)
    (code' : Dtc) : (f.set code).isActive code' = (decide (code' = code) || f.isActive code') := by
  rw [isActive_eq, lookup_set hcode hfits, isActive_eq]
  by_cases hsame : code' = code
  · rw [if_pos hsame, decide_eq_true hsame, Bool.true_or]
    cases f.lookup code with
    | none => rfl
    | some e => rfl
  · rw [if_neg hsame, decide_eq_false hsame, Bool.false_or]

/-- A fault that is kept up to date says what it is told, and nothing else is touched. -/
theorem isActive_report {f : FaultMgr} {code : Dtc} (hcode : code ≠ Dtc.none) (hfits : f.Fits code)
    (present : Bool) (code' : Dtc) :
    (if present then f.set code else f.clear code).isActive code' =
      if code' = code then present else f.isActive code' := by
  cases present with
  | true =>
      rw [if_pos rfl, isActive_set hcode hfits]
      by_cases hsame : code' = code
      · rw [if_pos hsame, decide_eq_true hsame, Bool.true_or]
      · rw [if_neg hsame, decide_eq_false hsame, Bool.false_or]
  | false =>
      rw [if_neg Bool.false_ne_true, isActive_clear]
      by_cases hsame : code' = code
      · rw [if_pos hsame, decide_eq_false (not_not.mpr hsame), Bool.false_and]
      · rw [if_neg hsame, decide_eq_true hsame, Bool.true_and]

/-! ### Named codes -/

/-- Every stored code is one of these, and stands there once. -/
structure Within (named : List Dtc) (f : FaultMgr) : Prop where
  nodup : f.codes.Nodup
  subset : f.codes ⊆ named

theorem within_new (named : List Dtc) : new.Within named := ⟨List.nodup_nil, List.nil_subset named⟩

variable {named : List Dtc} {f : FaultMgr}

/-- With fewer codes in use than the store has places, every fault fits. -/
theorem Within.fits (h : f.Within named) (hroom : named.length < maxDtc) (code : Dtc) :
    f.Fits code := by
  right
  have hlength : f.codes.length ≤ named.length :=
    (List.subperm_of_subset h.nodup h.subset).length_le
  rw [codes, List.length_map] at hlength
  exact hlength.trans_lt hroom

theorem Within.clear (h : f.Within named) (code : Dtc) : (f.clear code).Within named := by
  constructor
  · rw [codes_clear]
    exact h.nodup
  · rw [codes_clear]
    exact h.subset

theorem Within.set (h : f.Within named) (hroom : named.length < maxDtc) {code : Dtc}
    (hcode : code = Dtc.none ∨ code ∈ named) : (f.set code).Within named := by
  by_cases hnone : code = Dtc.none
  · rw [hnone, set_none]
    exact h
  · have hnamed := hcode.resolve_left hnone
    have hcodes := codes_set_of_fits hnone (h.fits hroom code)
    by_cases hmem : code ∈ f.codes
    · rw [if_pos hmem] at hcodes
      exact ⟨hcodes ▸ h.nodup, hcodes ▸ h.subset⟩
    · rw [if_neg hmem] at hcodes
      constructor
      · rw [hcodes, List.nodup_append]
        refine ⟨h.nodup, List.nodup_singleton code, ?_⟩
        rintro a ha b hb rfl
        exact hmem (List.mem_singleton.mp hb ▸ ha)
      · rw [hcodes]
        exact List.append_subset.mpr ⟨h.subset, by simpa using hnamed⟩

theorem Within.report (h : f.Within named) (hroom : named.length < maxDtc) (code : Dtc)
    (hcode : code ∈ named) (present : Bool) :
    (if present then f.set code else f.clear code).Within named := by
  cases present with
  | true => exact h.set hroom (Or.inr hcode)
  | false => exact h.clear code

end Bcm.FaultMgr
