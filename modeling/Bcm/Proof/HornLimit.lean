import Bcm.Lib.Runs
import Bcm.Lib.Stopwatch
import Bcm.Records

/-!
# The limit on a stuck horn

The tone of a request that stays asserted is cut off when its time on comes to the limit. The time
goes on being counted after that, in 32 bits, and every time the count comes round it is below the
limit again: the horn sounds once more, for as long as the first time. So the horn stays silent just
as long as no call ends in one of these windows.
-/

namespace Bcm

/-- Everything the rest of the firmware may do to a `HornMgr`. -/
inductive HornOp where
  | setContinuous (on : Bool)
  | chirp (count : Nat)
  | update (dtMs : Nat)
  | reset

def HornOp.timeMs : HornOp → Nat
  | .update dtMs => dtMs
  | _ => 0

namespace HornMgr

open Stopwatch

def exec (cfg : Config) (h : HornMgr) : HornOp → HornMgr
  | .setContinuous on => h.setContinuous on
  | .chirp count => h.chirp cfg count
  | .update dtMs => h.update cfg dtMs
  | .reset => h.reset

/-- The request stays asserted, and no chirp is queued. -/
def HoldsRequest : HornOp → Prop
  | .setContinuous on => on = true
  | .update _ => True
  | .chirp _ => False
  | .reset => False

/-- The tone of an asserted request, and the limiter's last word on it. -/
structure Toned (cfg : Config) (h : HornMgr) : Prop where
  continuous : h.continuous = true
  unqueued : h.chirpsLeft = 0
  output : h.output = decide (h.onTimeMs.toNat < cfg.hornMaxOnMs)

theorem toned_update {cfg : Config} {h : HornMgr} (hcontinuous : h.continuous = true)
    (hleft : h.chirpsLeft = 0) (dtMs : Nat) : Toned cfg (h.update cfg dtMs) := by
  rw [update_of_continuous hleft hcontinuous]
  exact ⟨hcontinuous, hleft, rfl⟩

theorem Toned.exec {cfg : Config} {h : HornMgr} (htoned : Toned cfg h) {op : HornOp}
    (hholds : HoldsRequest op) :
    Toned cfg (h.exec cfg op) ∧
      (h.exec cfg op).onTimeMs.toNat = (h.onTimeMs.toNat + op.timeMs) % 2 ^ 32 := by
  cases op with
  | setContinuous on =>
      have hon : on = true := hholds
      subst hon
      refine ⟨⟨rfl, htoned.unqueued, htoned.output⟩, ?_⟩
      exact (Nat.mod_eq_of_lt h.onTimeMs.toNat_lt).symm
  | update dtMs =>
      refine ⟨toned_update htoned.continuous htoned.unqueued dtMs, ?_⟩
      rw [HornMgr.exec, update_of_continuous htoned.unqueued htoned.continuous]
      simp [HornOp.timeMs]
  | chirp count => exact absurd hholds id
  | reset => exact absurd hholds id

/-- The time on after any number of calls. -/
theorem Toned.run {cfg : Config} {h : HornMgr} (htoned : Toned cfg h) {ops : List HornOp}
    (hops : ∀ op ∈ ops, HoldsRequest op) :
    Toned cfg (Runs.run (HornMgr.exec cfg) h ops) ∧
      (Runs.run (HornMgr.exec cfg) h ops).onTimeMs.toNat =
        (h.onTimeMs.toNat + total HornOp.timeMs ops) % 2 ^ 32 := by
  induction ops generalizing h with
  | nil => exact ⟨htoned, (Nat.mod_eq_of_lt h.onTimeMs.toNat_lt).symm⟩
  | cons op ops ih =>
      obtain ⟨hfirst, htime⟩ := htoned.exec (hops op (by simp))
      obtain ⟨hrest, htotal⟩ := ih hfirst fun op hop => hops op (List.mem_cons_of_mem _ hop)
      refine ⟨hrest, ?_⟩
      rw [Runs.run_cons, htotal, htime, total_cons, Nat.mod_add_mod, Nat.add_assoc]

/-- Every update is silent, up to the end of the calls. -/
def StaysSilent (cfg : Config) (ops : List HornOp) (h : HornMgr) : Prop :=
  ∀ front, front <+: ops → (Runs.run (exec cfg) h front).output = false

/-- From a time on, no call takes the count into the window that opens each time it comes round. -/
def NoWindow (maxOnMs onTimeMs : Nat) (ops : List HornOp) : Prop :=
  ∀ front, front <+: ops → ∀ rounds,
    ¬ ((rounds + 1) * 2 ^ 32 ≤ onTimeMs + total HornOp.timeMs front ∧
      onTimeMs + total HornOp.timeMs front < (rounds + 1) * 2 ^ 32 + maxOnMs)

/-- The count is below a bound just after it has come round. -/
theorem mod_lt_iff_window {maxOnMs onTimeMs elapsedMs : Nat} (hreached : maxOnMs ≤ onTimeMs) :
    (onTimeMs + elapsedMs) % 2 ^ 32 < maxOnMs ↔
      ∃ rounds, (rounds + 1) * 2 ^ 32 ≤ onTimeMs + elapsedMs ∧
        onTimeMs + elapsedMs < (rounds + 1) * 2 ^ 32 + maxOnMs := by
  constructor
  · intro hlt
    have hround : 2 ^ 32 ≤ onTimeMs + elapsedMs := by
      by_contra hno
      rw [Nat.mod_eq_of_lt (Nat.lt_of_not_le hno)] at hlt
      omega
    refine ⟨(onTimeMs + elapsedMs) / 2 ^ 32 - 1, ?_, ?_⟩
    · omega
    · omega
  · rintro ⟨rounds, hle, hlt⟩
    omega

/-- **When a stuck horn stays silenced.** -/
theorem staysSilent_iff {cfg : Config} {h : HornMgr} (hcontinuous : h.continuous = true)
    (hleft : h.chirpsLeft = 0) {dtMs : Nat} (hsilenced : (h.update cfg dtMs).output = false)
    {ops : List HornOp} (hops : ∀ op ∈ ops, HoldsRequest op) :
    StaysSilent cfg ops (h.update cfg dtMs) ↔
      NoWindow cfg.hornMaxOnMs (h.update cfg dtMs).onTimeMs.toNat ops := by
  have htoned : Toned cfg (h.update cfg dtMs) := toned_update hcontinuous hleft dtMs
  have hreached : cfg.hornMaxOnMs ≤ (h.update cfg dtMs).onTimeMs.toNat := by
    rw [htoned.output] at hsilenced
    exact Nat.le_of_not_lt (of_decide_eq_false hsilenced)
  refine forall_congr' fun front => imp_congr_right fun hfront => ?_
  obtain ⟨hafter, htime⟩ := htoned.run fun op hop => hops op (hfront.subset hop)
  rw [hafter.output, decide_eq_false_iff_not, htime, mod_lt_iff_window hreached, not_exists]

theorem staysSilent_iff_shipped :
    StaysSilent .shipped [.update 5] ((new.setContinuous true).update .shipped 10000) ↔
      NoWindow 10000 10000 [.update 5] :=
  staysSilent_iff rfl rfl (by decide) (by simp [HoldsRequest])

/-- The count comes round to zero, and the horn sounds again. -/
theorem not_staysSilent_shipped :
    ((new.setContinuous true).update .shipped 10000).output = false ∧
      ¬ StaysSilent .shipped [.update (2 ^ 32 - 10000)]
        ((new.setContinuous true).update .shipped 10000) := by
  refine ⟨by decide, fun hsilent => ?_⟩
  exact absurd (hsilent _ (List.prefix_refl _)) (by decide)

end HornMgr

end Bcm
