import Bcm.Types

/-!
# Lamp arbitration

The single place that decides what lights (`lamp_arbiter.h`, `lamp_arbiter.cpp`). The rules run in
the order of the function body, which is not the order its header lists: comms loss comes second
and brake last.
-/

namespace Bcm

structure ArbiterInputs where
  brakePressed : Bool
  reverseGear : Bool
  lampsPermitted : Bool
  loadShed : Bool
  commsLost : Bool
  deriving DecidableEq, Repr

namespace LampArbiter

def isEssential : LampId → Bool
  | .brake | .indLeft | .indRight | .hazard | .lowBeam | .reverse => true
  | _ => false

def blankAll (_lamps : LampState) : LampState := .dark

/-- Rule 1: sleep blanks everything but the lock lamp. -/
def blankInSleep (arb : ArbiterInputs) (lamps : LampState) : LampState :=
  if !arb.lampsPermitted then
    let lock := lamps.get .doorLock
    (blankAll lamps).set .doorLock lock
  else lamps

/-- Rule 2: with the link lost, high beam and reverse go off. -/
def dropOnCommsLost (arb : ArbiterInputs) (lamps : LampState) : LampState :=
  if arb.commsLost then (lamps.set .highBeam .off).set .reverse .off else lamps

/-- Rule 3: shedding drops every lamp that is not essential. -/
def shedLoad (arb : ArbiterInputs) (lamps : LampState) : LampState :=
  if arb.loadShed then
    LampId.all.foldl (fun l id => if !isEssential id then l.set id .off else l) lamps
  else lamps

/-- Rule 4: the reverse lamp is gated on the gear. -/
def gateReverse (arb : ArbiterInputs) (lamps : LampState) : LampState :=
  lamps.set .reverse (if arb.reverseGear then lamps.get .reverse else .off)

/-- Rule 5: the brake lamp follows the pedal. -/
def overrideBrake (arb : ArbiterInputs) (lamps : LampState) : LampState :=
  if arb.brakePressed then lamps.set .brake .on else lamps.set .brake .off

def arbitrate (lamps : LampState) (arb : ArbiterInputs) : LampState :=
  overrideBrake arb (gateReverse arb (shedLoad arb (dropOnCommsLost arb (blankInSleep arb lamps))))

theorem get_shedLoad (arb : ArbiterInputs) (lamps : LampState) (id : LampId) :
    (shedLoad arb lamps).get id =
      if arb.loadShed = true ∧ isEssential id = false then .off else lamps.get id := by
  unfold shedLoad
  cases arb.loadShed
  · simp
  · cases id <;> simp [LampId.all, isEssential]

/-- What arbitration leaves of a lamp: nothing but the lock lamp in sleep, no high beam or reverse
with the link lost, no reverse out of gear, and nothing inessential while shedding. The brake lamp
is never left to the request. -/
def leavesOpen (arb : ArbiterInputs) (id : LampId) : Bool :=
  decide (id ≠ .brake) &&
    (arb.lampsPermitted || decide (id = .doorLock)) &&
    (!arb.commsLost || decide (id ≠ .highBeam ∧ id ≠ .reverse)) &&
    (!arb.loadShed || isEssential id) &&
    (arb.reverseGear || decide (id ≠ .reverse))

/-- **What arbitration does to each lamp.** The brake lamp follows the pedal, and every other lamp
is either passed on as requested or put off. -/
theorem get_arbitrate (lamps : LampState) (arb : ArbiterInputs) (id : LampId) :
    (arbitrate lamps arb).get id =
      if id = .brake then (if arb.brakePressed then .on else .off)
      else if leavesOpen arb id then lamps.get id else .off := by
  have hbrake : ∀ l : LampState, (overrideBrake arb l).get id =
      if id = .brake then (if arb.brakePressed then .on else .off) else l.get id := by
    intro l
    unfold overrideBrake
    cases arb.brakePressed <;> simp
  have hdrop : ∀ l : LampState, (dropOnCommsLost arb l).get id =
      if arb.commsLost = true ∧ (id = .highBeam ∨ id = .reverse) then .off else l.get id := by
    intro l
    unfold dropOnCommsLost
    cases arb.commsLost <;> cases id <;> simp
  have hsleep : ∀ l : LampState, (blankInSleep arb l).get id =
      if arb.lampsPermitted = true ∨ id = .doorLock then l.get id else .off := by
    intro l
    unfold blankInSleep blankAll
    cases arb.lampsPermitted
    · by_cases hlock : id = .doorLock
      · simp [hlock]
      · simp [hlock]
    · simp
  have hgate : ∀ l : LampState, (gateReverse arb l).get id =
      if arb.reverseGear = false ∧ id = .reverse then .off else l.get id := by
    intro l
    unfold gateReverse
    cases arb.reverseGear
    · simp
    · by_cases hreverse : id = .reverse
      · simp [hreverse]
      · simp [hreverse]
  rw [arbitrate, hbrake, hgate, get_shedLoad, hdrop, hsleep]
  cases hpermitted : arb.lampsPermitted <;> cases hlost : arb.commsLost <;>
    cases hshed : arb.loadShed <;> cases hgear : arb.reverseGear <;>
    cases id <;> simp [leavesOpen, isEssential, hpermitted, hlost, hshed, hgear]

end LampArbiter

end Bcm
