import Bcm.DesktopCodec

/-!
# The protocol check

The `talk` task (`bcm.ps1`): `Get-Crc8`, `New-BcmFrame` and `Read-BcmFrame`, which are the third
implementation of the interface document, and the checks it runs against the board. Its numbers are
integers that are masked where they stand for bytes, and its reader gives up at the first error.
-/

namespace Bcm.Talk

/-- The body of the inner loop of `Get-Crc8`. -/
def shift (crc : Nat) : Nat :=
  if crc &&& 0x80 ≠ 0 then ((crc <<< 1) ^^^ 0x07) &&& 0xFF else (crc <<< 1) &&& 0xFF

def getCrc8 (data : List UInt8) : UInt8 :=
  UInt8.ofNat (data.foldl
    (fun crc b => (List.range 8).foldl (fun crc _ => shift crc) (crc ^^^ b.toNat)) 0)

/-- `New-BcmFrame`, with `none` where the length is no byte. -/
def newBcmFrame (cmd : UInt8) (payload : List UInt8) : Option (List UInt8) :=
  if 255 < payload.length then none
  else
    let body := [cmd, UInt8.ofNat payload.length] ++ payload
    some ([0xAA] ++ body ++ [getCrc8 body, 0x55])

inductive ReadState where
  | hdr
  | cmd
  | len
  | payload
  | cksum
  | ftr
  deriving DecidableEq, Repr

/-- The variables of `Read-BcmFrame`. -/
structure Reader where
  state : ReadState
  cmd : UInt8
  len : UInt8
  payload : List UInt8
  body : List UInt8

def Reader.new : Reader := ⟨.hdr, 0, 0, [], []⟩

/-- The hashtable that `Read-BcmFrame` returns. -/
inductive ReadResult where
  | ok (cmd len : UInt8) (payload : List UInt8)
  | failed (why : String)
  deriving DecidableEq, Repr

/-- One pass of the loop with a byte, which may return. Without `ExpectCmd` every frame is the one
waited for. -/
def Reader.step (expectCmd : Option UInt8) (r : Reader) (b : UInt8) : ReadResult ⊕ Reader :=
  match r.state with
  | .hdr => .inr (if b = 0xAA then { r with state := .cmd, body := [] } else r)
  | .cmd => .inr { r with cmd := b, body := r.body ++ [b], state := .len }
  | .len =>
      .inr { r with
        len := b
        body := r.body ++ [b]
        payload := []
        state := if b = 0 then .cksum else .payload }
  | .payload =>
      .inr { r with
        payload := r.payload ++ [b]
        body := r.body ++ [b]
        state := if r.len.toNat ≤ (r.payload ++ [b]).length then .cksum else r.state }
  | .cksum =>
      if b ≠ getCrc8 r.body then .inl (.failed "checksum mismatch")
      else .inr { r with state := .ftr }
  | .ftr =>
      if b ≠ 0x55 then .inl (.failed "bad footer")
      else if expectCmd.all fun cmd => decide (r.cmd = cmd) then
        .inl (.ok r.cmd r.len r.payload)
      else .inr { r with state := .hdr }

/-- The bytes that come in before the deadline, and what of them is left in the port. -/
def Reader.read (expectCmd : Option UInt8) (r : Reader) : List UInt8 → ReadResult × List UInt8
  | [] => (.failed "timeout - no reply", [])
  | b :: bytes =>
      match r.step expectCmd b with
      | .inl result => (result, bytes)
      | .inr r => r.read expectCmd bytes

def readBcmFrame (expectCmd : Option UInt8) (bytes : List UInt8) : ReadResult × List UInt8 :=
  Reader.new.read expectCmd bytes

/-- A row of `$checks`. What `V` throws is its text here, and `none` where it does not throw. -/
structure Check where
  name : String
  cmd : UInt8
  payload : List UInt8
  validate : List UInt8 → Option String

/-- `{0:X2}`. -/
def hexByte (b : UInt8) : String :=
  String.ofList [(Nat.digitChar (b.toNat / 16)).toUpper, (Nat.digitChar (b.toNat % 16)).toUpper]

def expectEcho (payload : List UInt8) : Option String :=
  if payload[1]? ≠ some 0xDE ∨ payload[2]? ≠ some 0xAD then some "payload not echoed" else none

/-- An index past the end gives `$null`, which is no byte and prints as nothing. -/
def expectStatus (status : UInt8) (text : String) (payload : List UInt8) : Option String :=
  if payload[0]? ≠ some status then
    some ("expected " ++ text ++ ", got 0x" ++ (payload[0]?.map hexByte).getD "")
  else none

def checks : List Check :=
  [⟨"PING", 0x01, [0xDE, 0xAD], expectEcho⟩,
    ⟨"GET_VERSION", 0x02, [], fun _ => none⟩,
    ⟨"GET_STATUS", 0x03, [], fun _ => none⟩,
    ⟨"GET_BATTERY", 0x08, [], fun _ => none⟩,
    ⟨"bad command", 0x7E, [], expectStatus 0x01 "UNKNOWN_CMD"⟩,
    ⟨"short SETLAMP", 0x04, [0x07], expectStatus 0x02 "BAD_LENGTH"⟩]

/-- What `Invoke-Check` writes to the port. -/
def Check.frame (c : Check) : Option (List UInt8) := newBcmFrame c.cmd c.payload

/-- `Invoke-Check` on what comes in: the text of its failure, and what is left in the port. -/
def invokeCheck (c : Check) (bytes : List UInt8) : Option String × List UInt8 :=
  let expected := c.cmd ||| 0x80
  match readBcmFrame (some expected) bytes with
  | (.failed why, bytes) => (some why, bytes)
  | (.ok cmd _ payload, bytes) =>
      if cmd ≠ expected then
        (some ("expected cmd 0x" ++ hexByte expected ++ ", got 0x" ++ hexByte cmd), bytes)
      else (c.validate payload, bytes)

/-- The loop over the checks, with `$pass` and `$fail`. -/
def runChecks (pass fail : Nat) : List Check → List UInt8 → Nat × Nat
  | [], _ => (pass, fail)
  | c :: checks, bytes =>
      match invokeCheck c bytes with
      | (none, bytes) => runChecks (pass + 1) fail checks bytes
      | (some _, bytes) => runChecks pass (fail + 1) checks bytes

end Bcm.Talk
