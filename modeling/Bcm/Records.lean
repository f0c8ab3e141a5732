import Bcm.Drivers

/-!
# Horn, fault store and event log

The managers the control cycle reports to: the horn (`horn_mgr.h`), the trouble-code store
(`fault_mgr.h`, `fault_mgr.cpp`) and the event log (`logger.h`, `logger.cpp`).
-/

namespace Bcm

structure HornMgr where
  timer : SoftTimer
  chirpsLeft : Nat
  chirpOn : Bool
  continuous : Bool
  output : Bool
  onTimeMs : UInt32
  deriving DecidableEq, Repr

namespace HornMgr

def new : HornMgr := ⟨.new, 0, false, false, false, 0⟩

def setContinuous (h : HornMgr) (on : Bool) : HornMgr :=
  { h with onTimeMs := if on then h.onTimeMs else 0, continuous := on }

def chirp (cfg : Config) (h : HornMgr) (count : Nat) : HornMgr :=
  if count = 0 then h
  else { h with chirpsLeft := count, chirpOn := true, timer := h.timer.start cfg.chirpMs }

def chirping (h : HornMgr) : Bool := decide (0 < h.chirpsLeft)

/-- Advance the timers and compute the output. Chirps take priority over the continuous tone,
whose 32-bit time on is the rate limit. -/
def update (cfg : Config) (h : HornMgr) (dtMs : Nat) : HornMgr :=
  if 0 < h.chirpsLeft then
    let (expired, timer) := h.timer.update dtMs
    let h := { h with timer := timer }
    let h :=
      if expired then
        if h.chirpOn then
          { h with
            chirpOn := false
            timer := h.timer.start cfg.chirpGapMs
            chirpsLeft := h.chirpsLeft - 1 }
        else { h with chirpOn := true, timer := h.timer.start cfg.chirpMs }
      else h
    { h with output := decide (0 < h.chirpsLeft) && h.chirpOn }
  else if h.continuous then
    let onTimeMs := h.onTimeMs + UInt32.ofNat dtMs
    { h with onTimeMs := onTimeMs, output := decide (onTimeMs.toNat < cfg.hornMaxOnMs) }
  else { h with output := false }

def reset (h : HornMgr) : HornMgr :=
  { h with
    chirpsLeft := 0
    chirpOn := false
    continuous := false
    output := false
    onTimeMs := 0
    timer := h.timer.stop }

/-! ### What one update does -/

section Update

variable {cfg : Config} {h : HornMgr} {dtMs : Nat}

theorem update_of_silent (hleft : h.chirpsLeft = 0) (hcontinuous : h.continuous = false) :
    h.update cfg dtMs = { h with output := false } := by
  simp [update, hleft, hcontinuous]

/-- The continuous tone adds to its time on, which wraps, and sounds below the limit. -/
theorem update_of_continuous (hleft : h.chirpsLeft = 0) (hcontinuous : h.continuous = true) :
    h.update cfg dtMs =
      { h with
        onTimeMs := h.onTimeMs + UInt32.ofNat dtMs
        output := decide ((h.onTimeMs + UInt32.ofNat dtMs).toNat < cfg.hornMaxOnMs) } := by
  simp [update, hleft, hcontinuous]

/-- Within a chirp, or within the gap before the next one. -/
theorem update_of_not_expires (hleft : 0 < h.chirpsLeft)
    (hexpires : h.timer.expires dtMs = false) :
    h.update cfg dtMs = { h with timer := h.timer.advance dtMs, output := h.chirpOn } := by
  unfold SoftTimer.expires at hexpires
  simp [update, hleft, hexpires, SoftTimer.advance]

theorem update_of_chirp_end (hleft : 0 < h.chirpsLeft) (hexpires : h.timer.expires dtMs = true)
    (hon : h.chirpOn = true) :
    h.update cfg dtMs =
      { h with
        timer := h.timer.start cfg.chirpGapMs
        chirpsLeft := h.chirpsLeft - 1
        chirpOn := false
        output := false } := by
  unfold SoftTimer.expires at hexpires
  simp [update, hleft, hexpires, hon, SoftTimer.start]

theorem update_of_gap_end (hleft : 0 < h.chirpsLeft) (hexpires : h.timer.expires dtMs = true)
    (hoff : h.chirpOn = false) :
    h.update cfg dtMs =
      { h with timer := h.timer.start cfg.chirpMs, chirpOn := true, output := true } := by
  unfold SoftTimer.expires at hexpires
  simp [update, hleft, hexpires, hoff, SoftTimer.start]

end Update

end HornMgr

abbrev Dtc := UInt8

namespace Dtc

def none : Dtc := 0
def batteryLow : Dtc := 1
def commsLost : Dtc := 2
def lockRefusedDoorOpen : Dtc := 3
def watchdogReset : Dtc := 4
def uartOverrun : Dtc := 5
def postFailed : Dtc := 6
def count : Dtc := 7

end Dtc

structure FaultEntry where
  code : Dtc
  occurrences : Nat
  active : Bool
  deriving DecidableEq, Repr

def maxDtc : Nat := 8

/-- The trouble-code store. Of the source's array only the first `count_` entries are ever read,
so the store is that prefix, with its bound. -/
structure FaultMgr where
  entries : List FaultEntry
  bounded : entries.length ≤ maxDtc
  deriving DecidableEq

namespace FaultMgr

def new : FaultMgr := ⟨[], by decide⟩

/-- `find(code)`, the index of the first entry with the code. -/
def find (f : FaultMgr) (code : Dtc) : Option Nat :=
  f.entries.findIdx? fun e => decide (e.code = code)

/-- Apply `g` to the first entry with the code, when there is one. -/
def modifyCode (f : FaultMgr) (code : Dtc) (g : FaultEntry → FaultEntry) : FaultMgr where
  entries := (f.find code).elim f.entries fun i => f.entries.modify i g
  bounded := by
    cases f.find code with
    | none => exact f.bounded
    | some i => simpa using f.bounded

/-- Record a fault. A repeat saturates its counter, and a full store keeps its oldest faults. -/
def set (f : FaultMgr) (code : Dtc) : FaultMgr :=
  if code = Dtc.none then f
  else
    match f.find code with
    | some _ =>
        f.modifyCode code fun e =>
          { e with
            occurrences := if e.occurrences < 0xFFFF then e.occurrences + 1 else e.occurrences
            active := true }
    | none =>
        if hfull : f.entries.length < maxDtc then
          ⟨f.entries ++ [⟨code, 1, true⟩], by simpa using Nat.succ_le_of_lt hfull⟩
        else f

/-- Mark a fault no longer present. Its history stays. -/
def clear (f : FaultMgr) (code : Dtc) : FaultMgr :=
  f.modifyCode code fun e => { e with active := false }

def clearAll (_f : FaultMgr) : FaultMgr := new

def isActive (f : FaultMgr) (code : Dtc) : Bool :=
  (f.entries.find? fun e => decide (e.code = code)).any (·.active)

/-- The first `capacity` active codes, in store order. -/
def activeCodes (f : FaultMgr) (capacity : Nat) : List Dtc :=
  ((f.entries.filter (·.active)).map (·.code)).take capacity

/-- The loop of `active_codes(out, capacity)` over the entries from some index on. `out` is the
memory behind the pointer and `n` is how many codes went there. -/
def fillActive (capacity : Nat) (out : Nat → Dtc) (n : Nat) :
    List FaultEntry → (Nat → Dtc) × Nat
  | [] => (out, n)
  | e :: rest =>
      if n < capacity then
        if e.active then
          fillActive capacity (fun i => if i = n then e.code else out i) (n + 1) rest
        else fillActive capacity out n rest
      else (out, n)

/-- `active_codes(out, capacity)`, with `none` for a null pointer. -/
def activeCodesInto (f : FaultMgr) (out : Option (Nat → Dtc)) (capacity : Nat) :
    Option (Nat → Dtc) × Nat :=
  match out with
  | none => (none, 0)
  | some out =>
      let (out, n) := fillActive capacity out 0 f.entries
      (some out, n)

theorem length_activeCodes_le (f : FaultMgr) (capacity : Nat) :
    (f.activeCodes capacity).length ≤ maxDtc := by
  have hfilter := List.length_filter_le (·.active) f.entries
  have hbounded := f.bounded
  simp only [activeCodes, List.length_take, List.length_map]
  omega

end FaultMgr

/-- Event identifiers, in the order of their wire values. -/
inductive LogEvent where
  | none
  | startup
  | postPassed
  | postFailed
  | ignitionOn
  | ignitionOff
  | lightMode
  | indicatorLeft
  | indicatorRight
  | hazardOn
  | hazardOff
  | brakeApplied
  | brakeReleased
  | doorLocked
  | doorUnlocked
  | lockRefused
  | autoLocked
  | batteryLow
  | batteryOk
  | commsLost
  | commsRestored
  | watchdogReset
  | loadShed
  deriving DecidableEq, Repr

structure LogRecord where
  timestampMs : Nat
  event : LogEvent
  arg : Nat
  deriving DecidableEq, Repr

def LogRecord.empty : LogRecord := ⟨0, .none, 0⟩

/-- The event log: a ring of 32 records that overwrites its oldest when full. -/
structure Logger where
  records : Vector LogRecord 32
  head : Fin 32
  count : Nat
  dropped : Nat
  count_le : count ≤ 32
  deriving DecidableEq

namespace Logger

def new : Logger := ⟨Vector.replicate 32 .empty, 0, 0, 0, by decide⟩

/-- Append a record. The write lands on the oldest one when the ring is full. -/
def log (l : Logger) (timestampMs : Nat) (event : LogEvent) (arg : Nat := 0) : Logger :=
  if event = .none then l
  else
    let records := l.records.set l.head ⟨timestampMs, event, arg⟩
    if hroom : l.count < 32 then
      { l with records := records, head := l.head + 1, count := l.count + 1, count_le := hroom }
    else
      { l with
        records := records
        head := l.head + 1
        dropped := if l.dropped < 0xFFFF then l.dropped + 1 else l.dropped }

def pop (l : Logger) : Option LogRecord × Logger :=
  if l.count = 0 then (none, l)
  else
    let tail := (l.head.val + 32 - l.count) % 32
    (l.records[tail]?,
      { l with count := l.count - 1, count_le := (Nat.sub_le _ _).trans l.count_le })

def clear (l : Logger) : Logger :=
  { l with head := 0, count := 0, dropped := 0, count_le := by decide }

end Logger

end Bcm
