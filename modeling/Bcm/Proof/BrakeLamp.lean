import Bcm.Proof.BoardSafety
import Bcm.Proof.DebounceWindow

/-!
# From the brake switch to the brake lamp

A switch is believed once five cycles in a row have read it alike. What is believed of the brake is
what the core has for it, and the arbiter lets nothing else decide the brake lamp.
-/

namespace Bcm

namespace Debouncer

/-- A level has been read for so long, and is accepted or waits to be. -/
def Steady (v : Bool) (elapsed : Nat) (d : Debouncer) : Prop :=
  d.candidate = v ∧ (d.state = v ∨ min 65535 elapsed ≤ d.elapsed ∧ d.elapsed < d.stableMs)

theorem steady_first {d : Debouncer} (hpos : 0 < d.stableMs) (v : Bool) (dtMs : Nat) :
    (d.exec (v, dtMs)).Steady v 0 := by
  unfold exec
  by_cases hraw : v = d.candidate
  · by_cases hstate : d.candidate = d.state
    · rw [update_of_settled hraw hstate]
      exact ⟨hraw.symm, Or.inl (hstate ▸ hraw.symm)⟩
    · rw [update_of_held hraw hstate]
      split
      case isTrue => exact ⟨hraw.symm, Or.inl hraw.symm⟩
      case isFalse hshort => exact ⟨hraw.symm, Or.inr ⟨Nat.zero_le _, Nat.lt_of_not_le hshort⟩⟩
  · rw [update_of_moved hraw]
    exact ⟨rfl, Or.inr ⟨Nat.zero_le _, hpos⟩⟩

theorem Steady.exec {d : Debouncer} {v : Bool} {elapsed : Nat} (h : d.Steady v elapsed)
    (dtMs : Nat) : (d.exec (v, dtMs)).Steady v (elapsed + dtMs) := by
  obtain ⟨hcandidate, hheld⟩ := h
  unfold Debouncer.exec
  by_cases hstate : d.candidate = d.state
  · rw [update_of_settled hcandidate.symm hstate]
    exact ⟨hcandidate, Or.inl (hstate ▸ hcandidate)⟩
  · obtain ⟨hlong, -⟩ := hheld.resolve_left fun hsame => hstate (hcandidate.trans hsame.symm)
    rw [update_of_held hcandidate.symm hstate]
    split
    case isTrue => exact ⟨hcandidate, Or.inl hcandidate⟩
    case isFalse hshort =>
      refine ⟨hcandidate, Or.inr ⟨?_, Nat.lt_of_not_le hshort⟩⟩
      dsimp only
      omega

theorem steady_run {d : Debouncer} (hpos : 0 < d.stableMs) (v : Bool) (dtMs n : Nat) :
    (Runs.run exec d (List.replicate (n + 1) (v, dtMs))).Steady v (n * dtMs) := by
  induction n with
  | zero =>
      rw [Nat.zero_mul]
      exact steady_first hpos v dtMs
  | succ n ih =>
      rw [List.replicate_succ', Runs.run_concat, Nat.succ_mul]
      exact ih.exec dtMs

/-- **A level that has been read throughout the window is accepted**, whatever came before. -/
theorem state_of_steady {d : Debouncer} (hpos : 0 < d.stableMs) {v : Bool} {dtMs n : Nat}
    (hwindow : d.stableMs ≤ min 65535 (n * dtMs)) :
    (Runs.run exec d (List.replicate (n + 1) (v, dtMs))).state = v := by
  have hstable := stableMs_run d (List.replicate (n + 1) (v, dtMs))
  obtain ⟨-, haccepted | ⟨hlong, hshort⟩⟩ := steady_run hpos v dtMs n
  · exact haccepted
  · rw [hstable] at hshort
    omega

end Debouncer

namespace Firmware

variable {Q : Type} {M : MessageQueue Q LogRecord} {cfg : Config} {up : PowerUp Q}

/-- What the cycles of a run have seen at the pins. -/
def pinsSeen (actions : List Action) : List Bsp.Levels :=
  actions.filterMap fun
    | .cycle pins => some pins
    | _ => none

/-- The switches follow the pins, and the core has its inputs from them. -/
structure Follows (up : PowerUp Q) (actions : List Action) (f : Firmware Q) : Prop where
  buttons : ∀ id, f.buttons id =
    Runs.run Debouncer.exec (Debouncer.new.reset ((Bsp.switchPin id).read up.pins))
      ((pinsSeen actions).map fun pins => ((Bsp.switchPin id).read pins, kControlMs))
  brake : pinsSeen actions ≠ [] → f.app.core.inputs.brake = (f.buttons .brake).state

theorem pinsSeen_of_not_cycle (actions : List Action) {a : Action} (ha : a.isCycle = false) :
    pinsSeen (actions ++ [a]) = pinsSeen actions := by
  unfold pinsSeen
  rw [List.filterMap_append]
  cases a with
  | cycle pins => exact absurd ha (by simp [Action.isCycle])
  | _ => exact List.append_nil _

theorem pinsSeen_cycle (actions : List Action) (pins : Bsp.Levels) :
    pinsSeen (actions ++ [.cycle pins]) = pinsSeen actions ++ [pins] := by
  unfold pinsSeen
  rw [List.filterMap_append]
  rfl

theorem Follows.exec {actions : List Action} {f f' : Firmware Q} {a : Action}
    (h : Follows up actions f) (hexec : f.exec M cfg a = some f') :
    Follows up (actions ++ [a]) f' := by
  cases ha : a.isCycle with
  | true =>
      cases moves hexec with
      | cycled pins hcycle heq =>
          have hbuttons : f'.buttons = (f.readButtons pins kControlMs).buttons := by rw [heq]; rfl
          rw [hcycle]
          refine ⟨fun id => ?_, fun _ => ?_⟩
          · rw [pinsSeen_cycle, List.map_append, List.map_singleton, Runs.run_concat, ← h.buttons,
              hbuttons]
            rfl
          · obtain ⟨hinputs, -⟩ := (f.app.gatherInputs
              (f.readButtons pins kControlMs).snapshot).core.step_frame cfg kControlMs
            have hgather := (f.app.gatherInputs_core (f.readButtons pins kControlMs).snapshot).2.1
            rw [hbuttons, heq]
            exact congrArg Inputs.brake (hinputs.trans hgather)
      | idle hother | served hother | sampled hother | drained hother =>
          exact absurd (ha.symm.trans hother) (by simp)
  | false =>
      obtain ⟨faults, log, hcore⟩ := core_frame hexec ha
      have hboard := sameBoard_exec hexec ha
      refine ⟨fun id => ?_, fun hseen => ?_⟩
      · rw [pinsSeen_of_not_cycle actions ha, hboard.buttons, h.buttons]
      · rw [pinsSeen_of_not_cycle actions ha] at hseen
        rw [hcore, hboard.buttons]
        exact h.brake hseen

theorem follows_of_run {actions : List Action} {f : Firmware Q}
    (h : run M cfg up actions = some f) : Follows up actions f :=
  history_of_run ⟨fun _ => rfl, fun hseen => absurd rfl hseen⟩
    (fun _ _ _ _ _ hs hexec => hs.exec hexec) h

/-- A switch that five cycles in a row have read alike is taken to be so. -/
theorem switch_accepted {actions : List Action} {f : Firmware Q}
    (h : run M cfg up actions = some f) {earlier recent : List Bsp.Levels}
    (hseen : pinsSeen actions = earlier ++ recent) (hlong : recent.length = 5) {id : Switch}
    {level : Bool} (hrecent : ∀ pins ∈ recent, (Bsp.switchPin id).read pins = level) :
    (f.buttons id).state = level := by
  have hcalls : recent.map (fun pins => ((Bsp.switchPin id).read pins, kControlMs)) =
      List.replicate (4 + 1) (level, kControlMs) := by
    refine List.eq_replicate_iff.mpr ⟨by rw [List.length_map, hlong], fun call hcall => ?_⟩
    obtain ⟨pins, hpins, rfl⟩ := List.mem_map.mp hcall
    rw [hrecent pins hpins]
  rw [(follows_of_run h).buttons id, hseen, List.map_append, Runs.run_append, hcalls]
  have hstable : (Runs.run Debouncer.exec
      (Debouncer.new.reset ((Bsp.switchPin id).read up.pins))
      (earlier.map fun pins => ((Bsp.switchPin id).read pins, kControlMs))).stableMs = 20 :=
    Debouncer.stableMs_run _ _
  refine Debouncer.state_of_steady ?_ ?_
  · rw [hstable]
    decide
  · rw [hstable]
    decide

/-- **The brake lamp follows the brake.** Once five cycles in a row have read the brake switch at a
level, the brake lamp's pin is at that level, and stays there while they do. Nothing else has a say:
not the host, the battery, the link or the power state, nor what comes between the cycles. -/
theorem brake_lamp_follows {actions : List Action} {f : Firmware Q}
    (h : run M cfg up actions = some f) {earlier recent : List Bsp.Levels}
    (hseen : pinsSeen actions = earlier ++ recent) (hlong : recent.length = 5) {level : Bool}
    (hrecent : ∀ pins ∈ recent, (Bsp.switchPin .brake).read pins = level) :
    (Bsp.lampPin .brake).read f.levels = level := by
  obtain ⟨henvelope, -, hon, hoff, -⟩ := shows_of_run h
  have hstate := switch_accepted h hseen hlong hrecent
  have hany : pinsSeen actions ≠ [] := by
    intro hnil
    rw [hnil] at hseen
    rw [(List.append_eq_nil_iff.mp hseen.symm).2] at hlong
    exact absurd hlong (by decide)
  have hlamp := henvelope.brake
  rw [(follows_of_run h).brake hany, hstate] at hlamp
  cases level with
  | true => exact hon .brake hlamp
  | false => exact hoff .brake hlamp

/-- The brake is pressed for five cycles. -/
theorem brake_lamp_follows_pressed :
    let pressed : Bsp.Levels := fun port pin => decide (port = .a ∧ pin = 4)
    let M := MessageQueue.plain LogRecord kLogQueueLength
    ∃ f, run M .shipped .quiet (List.replicate 5 (.cycle pressed)) = some f ∧
      (Bsp.lampPin .brake).read f.levels = true := by
  intro pressed M
  have hruns : (run M .shipped .quiet (List.replicate 5 (.cycle pressed))).isSome := by
    decide +kernel
  obtain ⟨f, hf⟩ := Option.isSome_iff_exists.mp hruns
  have hseen : pinsSeen (List.replicate 5 (.cycle pressed)) =
      [] ++ List.replicate 5 pressed := rfl
  refine ⟨f, hf, brake_lamp_follows hf hseen rfl ?_⟩
  intro pins hpins
  rw [List.eq_of_mem_replicate hpins]
  rfl

end Firmware

end Bcm
