import Mathlib.Data.List.Basic

/-!
# The wire protocol

Constants, command and status codes, and the frame (`protocol.h`).
-/

namespace Bcm

def kFrameHeader : UInt8 := 0xAA

def kFrameFooter : UInt8 := 0x55

def kMaxPayload : UInt8 := 32

/-- HDR, CMD, LEN, CKSUM and FTR. -/
def kFrameOverhead : Nat := 5

def kMaxFrameSize : Nat := kMaxPayload.toNat + kFrameOverhead

/-- Or-ed into the command id of a response. -/
def kResponseFlag : UInt8 := 0x80

inductive Cmd where
  | ping
  | getVersion
  | getStatus
  | setLamp
  | getLamp
  | doorLock
  | doorUnlock
  | getBattery
  | getDtc
  | clearDtc
  | reset
  | heartbeat
  | logEvent
  deriving DecidableEq, Repr

def Cmd.toUInt8 : Cmd → UInt8
  | ping => 0x01
  | getVersion => 0x02
  | getStatus => 0x03
  | setLamp => 0x04
  | getLamp => 0x05
  | doorLock => 0x06
  | doorUnlock => 0x07
  | getBattery => 0x08
  | getDtc => 0x09
  | clearDtc => 0x0A
  | reset => 0x0B
  | heartbeat => 0x0C
  | logEvent => 0x0D

inductive Status where
  | ok
  | unknownCmd
  | badLength
  | badParameter
  | busy
  | notPermitted
  deriving DecidableEq, Repr

def Status.toUInt8 : Status → UInt8
  | ok => 0x00
  | unknownCmd => 0x01
  | badLength => 0x02
  | badParameter => 0x03
  | busy => 0x04
  | notPermitted => 0x05

def kVersionMajor : UInt8 := 1

def kVersionMinor : UInt8 := 0

def kVersionPatch : UInt8 := 0

/-- A frame. The payload array is always 32 bytes; `len` says how many of them count. -/
structure Frame where
  cmd : UInt8
  len : UInt8
  payload : Vector UInt8 32
  deriving DecidableEq, Repr

/-- CMD, LEN and the payload bytes that count. -/
abbrev FrameContent : Type := UInt8 × UInt8 × List UInt8

namespace Frame

def new : Frame := ⟨0, 0, Vector.replicate 32 0⟩

/-- `payload[0 .. len)`. -/
def data (f : Frame) : List UInt8 := f.payload.toList.take f.len.toNat

/-- What a frame says: the bytes of the payload array past `len` are not part of it. -/
def content (f : Frame) : FrameContent := (f.cmd, f.len, f.data)

/-- `payload[i]`, or `none` past the end of the array. -/
def read (f : Frame) (i : Nat) : Option UInt8 := f.payload[i]?

/-- `payload[i] = byte`, or `none` past the end of the array. -/
def write (f : Frame) (i : Nat) (byte : UInt8) : Option Frame :=
  if h : i < 32 then some { f with payload := f.payload.set i byte } else none

theorem length_data {f : Frame} (h : f.len ≤ kMaxPayload) : f.data.length = f.len.toNat := by
  have hle : f.len.toNat ≤ 32 := UInt8.le_iff_toNat_le.mp h
  rw [data, List.length_take, Vector.length_toList]
  omega

end Frame

def makeStatusResponse (requestCmd : UInt8) (status : Status) : Frame where
  cmd := requestCmd ||| kResponseFlag
  len := 1
  payload := Frame.new.payload.set 0 status.toUInt8

end Bcm
