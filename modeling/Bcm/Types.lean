import Mathlib.Algebra.GroupWithZero.Nat
import Mathlib.Data.Fintype.Basic
import Mathlib.Logic.Function.Basic

/-!
# Domain types

The lamps, the snapshot of their drive for one cycle, the debounced inputs and the tunables
(`bcm_types.h`, `bcm_config.h`). Levels and milliseconds are naturals. Where the source's narrower
type would wrap, the operation that wraps says so.
-/

namespace Bcm

/-- `(sum > 0xFFFF) ? 0xFFFF : sum`, the sum of a time and a step in 16 bits that saturate. -/
def saturate16 (sum : Nat) : Nat := if 0xFFFF < sum then 0xFFFF else sum

theorem saturate16_eq_min (sum : Nat) : saturate16 sum = min 0xFFFF sum := by
  unfold saturate16
  split
  · omega
  · omega

/-- Lamp identities, in the order of their wire ids. -/
inductive LampId where
  | ignition
  | drl
  | lowBeam
  | highBeam
  | indLeft
  | indRight
  | hazard
  | brake
  | reverse
  | doorLock
  deriving DecidableEq, Repr

namespace LampId

def count : Nat := 10

/-- The numeric id, which is also the lamp's bit in a bitmap or a host mask. -/
def toNat : LampId → Nat
  | ignition => 0
  | drl => 1
  | lowBeam => 2
  | highBeam => 3
  | indLeft => 4
  | indRight => 5
  | hazard => 6
  | brake => 7
  | reverse => 8
  | doorLock => 9

/-- Every lamp, in the order the source's loops over `0 .. Count` meet them. -/
def all : List LampId :=
  [ignition, drl, lowBeam, highBeam, indLeft, indRight, hazard, brake, reverse, doorLock]

/-- `static_cast<LampId>(id)` behind the check `id < LampId::Count`. -/
def ofNat? (id : Nat) : Option LampId := all[id]?

theorem mem_all (id : LampId) : id ∈ all := by
  cases id <;> decide

instance : Fintype LampId := ⟨⟨all, by decide⟩, mem_all⟩

theorem ofNat?_toNat (id : LampId) : ofNat? id.toNat = some id := by
  cases id <;> rfl

theorem ofNat?_isSome_iff (id : Nat) : (ofNat? id).isSome ↔ id < count := by
  simp [ofNat?, all, count]

end LampId

inductive LampDrive where
  | off
  | on
  | blink
  deriving DecidableEq, Repr

/-- Snapshot of every lamp for one cycle. The array of the source is a function of the lamp id,
whose ten values are its whole index range. -/
@[ext]
structure LampState where
  drive : LampId → LampDrive

namespace LampState

instance : DecidableEq LampState := fun a b =>
  decidable_of_iff (∀ id, a.drive id = b.drive id)
    ⟨fun h => LampState.ext (funext h), fun h _ => h ▸ rfl⟩

/-- `LampState()`: every lamp off. -/
def dark : LampState := ⟨fun _ => .off⟩

def get (lamps : LampState) (id : LampId) : LampDrive := lamps.drive id

def set (lamps : LampState) (id : LampId) (d : LampDrive) : LampState :=
  ⟨Function.update lamps.drive id d⟩

def bitmap (lamps : LampState) : BitVec 16 :=
  LampId.all.foldl
    (fun m id => if lamps.drive id ≠ .off then m ||| (1#16 <<< id.toNat) else m) 0#16

@[simp]
theorem get_dark (id : LampId) : dark.get id = .off := rfl

@[simp]
theorem get_set (lamps : LampState) (id id' : LampId) (d : LampDrive) :
    (lamps.set id d).get id' = if id' = id then d else lamps.get id' := by
  simp [get, set, Function.update_apply]

theorem ext_get {a b : LampState} (h : ∀ id, a.get id = b.get id) : a = b :=
  LampState.ext (funext h)

end LampState

structure Inputs where
  ignition : Bool
  indLeft : Bool
  indRight : Bool
  hazard : Bool
  brake : Bool
  doorLock : Bool
  reverseGear : Bool
  doorOpen : Bool
  batteryPermille : Nat
  ambientPermille : Nat
  deriving DecidableEq, Repr

/-- `Inputs()`: everything released, no battery reading, full daylight. -/
def Inputs.initial : Inputs where
  ignition := false
  indLeft := false
  indRight := false
  hazard := false
  brake := false
  doorLock := false
  reverseGear := false
  doorOpen := false
  batteryPermille := 0
  ambientPermille := 1000

structure Config where
  indicatorOnMs : Nat
  indicatorOffMs : Nat
  ambientDarkPermille : Nat
  ambientLightPermille : Nat
  autoLockDelayMs : Nat
  welcomeDurationMs : Nat
  chirpMs : Nat
  chirpGapMs : Nat
  hornMaxOnMs : Nat
  batteryLowPermille : Nat
  batteryOkPermille : Nat
  sleepAfterMs : Nat
  longPressMs : Nat
  deriving DecidableEq, Repr

def Config.shipped : Config where
  indicatorOnMs := 333
  indicatorOffMs := 333
  ambientDarkPermille := 300
  ambientLightPermille := 400
  autoLockDelayMs := 3000
  welcomeDurationMs := 2000
  chirpMs := 80
  chirpGapMs := 120
  hornMaxOnMs := 10000
  batteryLowPermille := 300
  batteryOkPermille := 350
  sleepAfterMs := 30000
  longPressMs := 800

end Bcm
