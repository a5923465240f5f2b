import CxkFramework.Stream
import CxkFramework.Words

/-!
# WebSocket messages

`WSSendMessage` and `WSRecvMessage` over a stream. A frame is the packed two-byte
`WSFrameHead`, an extended length of two or eight bytes in network order, four mask bytes
from clients, and the payload. `cur_len` of the receiver is an `int`; indexing a string with
a negative number, or past the largest `int`, has no result. Logging is left out.
-/

namespace CxkFramework.WebSocket

open Words Blocks

/-- `WSFrameHead::OPCODE`. -/
def CONTINUE : Nat := 0
def TEXT_FRAME : Nat := 1
def BIN_FRAME : Nat := 2
def CLOSE : Nat := 8
def PING : Nat := 9
def PONG : Nat := 10

/-- The bit fields of the packed head. -/
structure WSFrameHead where
  opcode : Nat := 0
  rsv3 : Bool := false
  rsv2 : Bool := false
  rsv1 : Bool := false
  fin : Bool := false
  payload : Nat := 0
  mask : Bool := false
  deriving DecidableEq, Repr

structure WSFrameMessage where
  opcode : Nat
  data : List UInt8
  deriving DecidableEq, Repr

/-- The two bytes of a head, from the lowest bit field up; `opcode` has four bits and
`payload` seven. -/
def WSFrameHead.bytes (h : WSFrameHead) : List UInt8 :=
  [UInt8.ofNat (h.opcode % 16 + 16 * h.rsv3.toNat + 32 * h.rsv2.toNat + 64 * h.rsv1.toNat +
      128 * h.fin.toNat),
    UInt8.ofNat (h.payload % 128 + 128 * h.mask.toNat)]

def WSFrameHead.ofBytes : List UInt8 → WSFrameHead
  | [a, b] =>
    { opcode := a.toNat % 16
      rsv3 := a.toNat / 16 % 2 = 1
      rsv2 := a.toNat / 32 % 2 = 1
      rsv1 := a.toNat / 64 % 2 = 1
      fin := a.toNat / 128 = 1
      payload := b.toNat % 128
      mask := b.toNat / 128 = 1 }
  | _ => {}

/-- A word in network order: `byteswapOnLittleEndian`, then the memory of the host. -/
def beBytes (n v : Nat) : List UInt8 := leBytes n (byteswap n v)

def beValue (bytes : List UInt8) : Nat := byteswap bytes.length (leValue bytes)

/-- `data[i] ^= mask[i % 4]` for all of the data. -/
def applyMask (mask data : List UInt8) : List UInt8 :=
  data.mapIdx (fun i b => b ^^^ mask[i % 4]?.getD 0)

/-- One `writeFixSize` of a chain that ends the call with `onFail` when it is not positive. -/
def attempt {α : Type} (s : Stream) (rounds : Nat) (buffer : List UInt8) (onFail : Stream → α)
    (next : Stream → Option α) : Option α := do
  let (rt, s) ← s.writeFixSize rounds buffer
  if rt ≤ 0 then some (onFail s) else next s

/-- The `payload` field for a data size. -/
def payloadField (size : Nat) : Nat := if size < 126 then size else if size < 65536 then 126 else 127

/-- The extended length that is written for a data size, if one is. -/
def extendedLength (size : Nat) : Option (List UInt8) :=
  if payloadField size = 126 then some (beBytes 2 size)
  else if payloadField size = 127 then some (beBytes 8 size)
  else none

/-- `break` in `WSSendMessage`. -/
def sendFailed (msg : WSFrameMessage) (s : Stream) : Int × WSFrameMessage × Stream :=
  (-1, msg, s.close)

/-- The part of `WSSendMessage` after the lengths; masking is done in place. -/
def sendBody (rounds : Nat) (msg : WSFrameMessage) (client : Bool) (rand : UInt32) (s : Stream) :
    Option (Int × WSFrameMessage × Stream) :=
  let size := msg.data.length
  if client then
    let mask := leBytes 4 rand.toNat
    let masked := { msg with data := applyMask mask msg.data }
    attempt s rounds mask (sendFailed masked) fun s =>
      attempt s rounds masked.data (sendFailed masked) fun s => some (toInt (size + 2), masked, s)
  else attempt s rounds msg.data (sendFailed msg) fun s => some (toInt (size + 2), msg, s)

/-- Returns the result, the message afterwards and the stream. -/
def WSSendMessage (rounds : Nat) (s : Stream) (msg : WSFrameMessage) (client fin : Bool)
    (rand : UInt32) : Option (Int × WSFrameMessage × Stream) :=
  let size := msg.data.length
  let head : WSFrameHead :=
    { fin := fin, opcode := msg.opcode, mask := client, payload := payloadField size }
  attempt s rounds head.bytes (sendFailed msg) fun s =>
    match extendedLength size with
    | some len => attempt s rounds len (sendFailed msg) (sendBody rounds msg client rand)
    | none => sendBody rounds msg client rand s

def WSPong (rounds : Nat) (s : Stream) : Option (Int × Stream) := do
  let head : WSFrameHead := { fin := true, opcode := PONG }
  let (v, s) ← s.writeFixSize rounds head.bytes
  some (v, if v ≤ 0 then s.close else s)

/-- The length a data frame announces, read from the stream if it is an extended one;
`none` when that read fails. -/
def readLength (s : Stream) (head : WSFrameHead) : Option Nat × Stream :=
  if head.payload = 126 then
    let (rt, bytes, s) := s.readFixSize 2
    (if rt ≤ 0 then none else some (beValue bytes), s)
  else if head.payload = 127 then
    let (rt, bytes, s) := s.readFixSize 8
    (if rt ≤ 0 then none else some (beValue bytes), s)
  else (some head.payload, s)

/-- Four mask bytes, or zeros when the frame has none; `none` when that read fails. -/
def readMask (s : Stream) (head : WSFrameHead) : Option (List UInt8) × Stream :=
  if head.mask then
    let (rt, bytes, s) := s.readFixSize 4
    (if rt ≤ 0 then none else some bytes, s)
  else (some [0, 0, 0, 0], s)

/-- `std::string::resize`. -/
def resize (data : List UInt8) (n : Nat) : List UInt8 :=
  data.take n ++ List.replicate (n - data.length) 0

/-- What the receiver keeps between frames. -/
structure Partial where
  opcode : Nat := 0
  data : List UInt8 := []
  curLen : Int := 0

/-- How a data frame leaves the receive loop. -/
inductive FrameResult where
  /-- `break`: the stream is closed and null returned -/
  | failed (s : Stream)
  | more (p : Partial) (s : Stream)
  | done (msg : WSFrameMessage) (s : Stream)
  /-- a string is indexed out of its range -/
  | wild

/-- The payload of a data frame, once its length is accepted and its mask is read. -/
def recvPayload (p : Partial) (head : WSFrameHead) (length : Nat) (mask : List UInt8) (s : Stream) :
    FrameResult :=
  if p.curLen < 0 then .wild
  else
    let (rt, bytes, s) := s.readFixSize length
    if rt ≤ 0 then .failed s
    else if head.mask ∧ p.curLen + toInt length > 2 ^ 31 then .wild
    else
      let bytes := if head.mask then applyMask mask bytes else bytes
      let data := overwrite (resize p.data ((p.curLen + length) % 2 ^ 64).toNat)
        p.curLen.toNat bytes
      let opcode := if p.opcode = 0 ∧ head.opcode ≠ CONTINUE then head.opcode else p.opcode
      if head.fin then .done ⟨opcode, data⟩ s
      else .more ⟨opcode, data, toInt (p.curLen + length)⟩ s

/-- The branch of the receive loop for `CONTINUE`, `TEXT_FRAME` and `BIN_FRAME`. -/
def recvData (maxSize : UInt32) (client : Bool) (p : Partial) (head : WSFrameHead) (s : Stream) :
    FrameResult :=
  if !client && !head.mask then .failed s
  else
    match readLength s head with
    | (none, s) => .failed s
    | (some length, s) =>
      -- `cur_len + length` is computed in `uint64_t`
      if (p.curLen + length) % 2 ^ 64 ≥ maxSize.toNat then .failed s
      else
        match readMask s head with
        | (none, s) => .failed s
        | (some mask, s) => recvPayload p head length mask s

/-- The receive loop. The outer `none` means that it did not end within the rounds, or not
at all; the inner one is the null pointer. -/
def recvLoop (maxSize : UInt32) (client : Bool) :
    Nat → Partial → Stream → Option (Option WSFrameMessage × Stream)
  | 0, _, _ => none
  | rounds + 1, p, s =>
    let (rt, bytes, s) := s.readFixSize 2
    if rt ≤ 0 then some (none, s.close)
    else
      let head := WSFrameHead.ofBytes bytes
      if head.opcode = PING then
        match WSPong (rounds + 1) s with
        | none => none
        | some (v, s) => if v ≤ 0 then some (none, s.close) else recvLoop maxSize client rounds p s
      else if head.opcode = PONG then recvLoop maxSize client rounds p s
      else if head.opcode = CONTINUE ∨ head.opcode = TEXT_FRAME ∨ head.opcode = BIN_FRAME then
        match recvData maxSize client p head s with
        | .failed s => some (none, s.close)
        | .more p s => recvLoop maxSize client rounds p s
        | .done msg s => some (some msg, s)
        | .wild => none
      else recvLoop maxSize client rounds p s

def WSRecvMessage (maxSize : UInt32) (rounds : Nat) (s : Stream) (client : Bool) :
    Option (Option WSFrameMessage × Stream) := recvLoop maxSize client rounds {} s

end CxkFramework.WebSocket
