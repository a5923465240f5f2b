import CxkFramework.ByteArrayRoundTrip
import CxkFramework.ByteArrayStream
import CxkFramework.RockMessage

/-!
# The Rock wire format

How `RockMessageDecoder` puts messages on a stream and takes them off again: a header of
eight bytes, then the encoded message, compressed from a configured length on. A caught
exception is a null message; a null pointer that is followed ends the program and is not
caught.
-/

namespace CxkFramework

open Words Blocks Runs

/-- `catch(...)`: an exception becomes the given value. -/
def caught {α : Type} (onThrow : α) : Except Fault α → Except Fault α
  | .error (.outOfRange _) => .ok onThrow
  | r => r

/-- `rock.protocol.max_length` and `rock.protocol.gzip_min_length`. -/
structure RockConfig where
  maxLength : UInt32 := 1024 * 1024 * 64
  gzipMinLength : UInt32 := 1024 * 4

/-- The default of the constructor of `ByteArray`. -/
def defaultBaseSize : Nat := 4096

/-- `new ByteArray`. -/
def newByteArray (garbage : Nat → UInt8) : ByteArray := .ofBaseSize garbage defaultBaseSize

/-! ## Messages -/

namespace RockBody

def serializeToByteArray (body : List UInt8) (ba : ByteArray) : Except Fault ByteArray :=
  ba.writeStringVint body

def parseFromByteArray (ba : ByteArray) : Except Fault (List UInt8 × ByteArray) :=
  ba.readStringVint

end RockBody

namespace Request

def serializeToByteArray (type : UInt8) (sn cmd : UInt32) (ba : ByteArray) :
    Except Fault ByteArray := do
  let ba ← ba.writeFuint8 type
  let ba ← ba.writeUint32 sn
  ba.writeUint32 cmd

def parseFromByteArray (ba : ByteArray) : Except Fault ((UInt32 × UInt32) × ByteArray) := do
  let (sn, ba) ← ba.readUint32
  let (cmd, ba) ← ba.readUint32
  .ok ((sn, cmd), ba)

end Request

namespace Response

def serializeToByteArray (type : UInt8) (sn cmd result : UInt32) (resultStr : List UInt8)
    (ba : ByteArray) : Except Fault ByteArray := do
  let ba ← ba.writeFuint8 type
  let ba ← ba.writeUint32 sn
  let ba ← ba.writeUint32 cmd
  let ba ← ba.writeUint32 result
  ba.writeStringVint resultStr

def parseFromByteArray (ba : ByteArray) :
    Except Fault ((UInt32 × UInt32 × UInt32 × List UInt8) × ByteArray) := do
  let (sn, ba) ← ba.readUint32
  let (cmd, ba) ← ba.readUint32
  let (result, ba) ← ba.readUint32
  let (resultStr, ba) ← ba.readStringVint
  .ok ((sn, cmd, result, resultStr), ba)

end Response

namespace Notify

def serializeToByteArray (type : UInt8) (notify : UInt32) (ba : ByteArray) :
    Except Fault ByteArray := do
  let ba ← ba.writeFuint8 type
  ba.writeUint32 notify

def parseFromByteArray (ba : ByteArray) : Except Fault (UInt32 × ByteArray) := ba.readUint32

end Notify

namespace RockMessage

/-- `Message::REQUEST`, `Message::RESPONSE` and `Message::NOTIFY`. -/
def getType : RockMessage → UInt8
  | .request _ => 1
  | .response _ => 2
  | .notify _ => 3

/-- The three overrides, without their `catch`. -/
def serializeFields (msg : RockMessage) (ba : ByteArray) : Except Fault ByteArray :=
  match msg with
  | .request m => do
    let ba ← Request.serializeToByteArray msg.getType m.sn m.cmd ba
    RockBody.serializeToByteArray m.body ba
  | .response m => do
    let ba ← Response.serializeToByteArray msg.getType m.sn m.cmd m.result m.resultStr ba
    RockBody.serializeToByteArray m.body ba
  | .notify m => do
    let ba ← Notify.serializeToByteArray msg.getType m.notify ba
    RockBody.serializeToByteArray m.body ba

/-- `none` is the null pointer for a caught exception. -/
def toByteArray (garbage : Nat → UInt8) (msg : RockMessage) : Except Fault (Option ByteArray) :=
  caught none (do
    let ba ← msg.serializeFields (newByteArray garbage)
    .ok (some ba))

/-- The three overrides of `parseFromByteArray`, for a message of the given type;
`none` when they return `false` and for an unknown type. -/
def parseFields (type : UInt8) (ba : ByteArray) : Except Fault (Option RockMessage) :=
  if type = 1 then
    caught none (do
      let ((sn, cmd), ba) ← Request.parseFromByteArray ba
      let (body, _) ← RockBody.parseFromByteArray ba
      .ok (some (.request ⟨sn, cmd, body⟩)))
  else if type = 2 then
    caught none (do
      let ((sn, cmd, result, resultStr), ba) ← Response.parseFromByteArray ba
      let (body, _) ← RockBody.parseFromByteArray ba
      .ok (some (.response ⟨sn, cmd, result, resultStr, body⟩)))
  else if type = 3 then
    caught none (do
      let (number, ba) ← Notify.parseFromByteArray ba
      let (body, _) ← RockBody.parseFromByteArray ba
      .ok (some (.notify ⟨number, body⟩)))
  else .ok none

/-- The typed reads of `parseFrom`. -/
def parseMessage (ba : ByteArray) : Except Fault (Option RockMessage) := do
  let (type, ba) ← ba.readFuint8
  parseFields type ba

end RockMessage

/-! ## Compression -/

/-- `ZlibStream` for gzip: what `write` of the given buffers and `flush` leave in `m_buffs`,
or `none` when one of them does not return `Z_OK`. -/
structure Zlib where
  encode : List (List UInt8) → Option (List (List UInt8))
  decode : List (List UInt8) → Option (List (List UInt8))

namespace Zlib

/-- The `buff_size` of `CreateGzip`. -/
def buffSize : Nat := 4096

/-- All buffers are full, the last one apart. -/
def Packed (n : Nat) : List (List UInt8) → Prop
  | [] => True
  | [last] => last.length ≤ n
  | buff :: next :: rest => buff.length = n ∧ Packed n (next :: rest)

/-- Decompression inverts compression, whichever buffers the bytes come in. Compressed data
is never empty: a gzip member has a header and a trailer. -/
structure Inverse (z : Zlib) : Prop where
  encode_ok : ∀ blocks, ∃ buffs, z.encode blocks = some buffs ∧ Packed buffSize buffs ∧
    buffs.flatten ≠ []
  decode_ok : ∀ blocks buffs blocks', z.encode blocks = some buffs →
    blocks'.flatten = buffs.flatten →
    ∃ out, z.decode blocks' = some out ∧ Packed buffSize out ∧ out.flatten = blocks.flatten

/-- `ZlibStream::getByteArray`. -/
def getByteArray (garbage : Nat → UInt8) (buffs : List (List UInt8)) : Except Fault ByteArray := do
  let ba ← (newByteArray garbage).writeChunks buffs
  ba.setPosition 0

/-- `write(ba, -1)`, `flush()` and `getByteArray()`; `none` for an error. -/
def convert (f : List (List UInt8) → Option (List (List UInt8))) (garbage : Nat → UInt8)
    (ba : ByteArray) : Except Fault (Option ByteArray) := do
  let (iovs, _) ← ba.getReadBuffers (2 ^ 64 - 1)
  match f (ByteArray.gather ba.nodes iovs) with
  | none => .ok none
  | some buffs =>
    let ba ← getByteArray garbage buffs
    .ok (some ba)

end Zlib

/-! ## Header -/

/-- `length` is an `int32_t` with the given bits. -/
structure RockMsgHeader where
  magic : List UInt8 := [0xab, 0xcd]
  version : UInt8 := 1
  flag : UInt8 := 0
  length : UInt32 := 0
  deriving DecidableEq, Repr

namespace RockMsgHeader

/-- `sizeof(header)`. -/
def size : Nat := 8

/-- The header in memory. -/
def bytes (h : RockMsgHeader) : List UInt8 :=
  h.magic ++ [h.version, h.flag] ++ leBytes 4 h.length.toNat

/-- A header whose memory is the given bytes. -/
def ofBytes (bytes : List UInt8) : RockMsgHeader where
  magic := bytes.take 2
  version := bytes[2]?.getD 0
  flag := bytes[3]?.getD 0
  length := UInt32.ofNat (leValue (bytes.drop 4))

end RockMsgHeader

/-- `byteswapOnLittleEndian`. -/
def byteswapOnLittleEndian (length : UInt32) : UInt32 := UInt32.ofNat (byteswap 4 length.toNat)

/-- Conversion of an `int32_t` to `size_t`. -/
def toSize (length : UInt32) : Nat :=
  if length.toNat < 2 ^ 31 then length.toNat else length.toNat + (2 ^ 64 - 2 ^ 32)

namespace RockMessageDecoder

/-- The first part of `serializeTo`: the flag and the array to be sent, or `none` for the
return of `-1`. -/
def prepare (z : Zlib) (config : RockConfig) (garbage garbage' : Nat → UInt8) (msg : RockMessage) :
    Except Fault (Option (UInt8 × ByteArray)) := do
  match ← msg.toByteArray garbage with
  | none => .error .nullNode
  | some ba =>
    let ba ← ba.setPosition 0
    if UInt32.ofNat ba.size ≥ config.gzipMinLength then
      match ← Zlib.convert z.encode garbage' ba with
      | none => .ok none
      | some ba => .ok (some (1, ba))
    else .ok (some (0, ba))

/-- Returns the result and the stream. -/
def serializeTo (z : Zlib) (config : RockConfig) (garbage garbage' : Nat → UInt8) (rounds : Nat)
    (s : Stream) (msg : RockMessage) : Except Fault Int × Stream :=
  match prepare z config garbage garbage' msg with
  | .error e => (.error e, s)
  | .ok none => (.ok (-1), s)
  | .ok (some (flag, ba)) =>
    let header : RockMsgHeader :=
      { flag := flag, length := byteswapOnLittleEndian (UInt32.ofNat ba.size) }
    match s.writeFixSize rounds header.bytes with
    | none => (.error .wild, s)
    | some (rt, s) =>
      if rt ≤ 0 then (.ok (-1), s)
      else
        match s.writeFixSizeByteArray ba ba.getReadSize with
        | (.error e, s) => (.error e, s)
        | (.ok (rt, ba), s) =>
          if rt ≤ 0 then (.ok (-1), s) else (.ok (toInt (RockMsgHeader.size + ba.size)), s)

/-- The last part of `parseFrom`, once all bytes are there. -/
def parsePayload (z : Zlib) (garbage' : Nat → UInt8) (flag : UInt8) (ba : ByteArray) :
    Except Fault (Option RockMessage) := do
  let ba ← ba.setPosition 0
  let plain ← if flag &&& 1 ≠ 0 then Zlib.convert z.decode garbage' ba else .ok (some ba)
  match plain with
  | none => .ok none
  | some ba => RockMessage.parseMessage ba

/-- `parseFrom` once it has a valid header with the given flag and length. -/
def parseBody (z : Zlib) (config : RockConfig) (garbage garbage' : Nat → UInt8) (flag : UInt8)
    (length : UInt32) (s : Stream) : Except Fault (Option RockMessage) × Stream :=
  if length ≥ config.maxLength then (.ok none, s)
  else
    match s.readFixSizeByteArray (newByteArray garbage) (toSize length) with
    | (.error e, s) => (caught none (.error e), s)
    | (.ok (rt, ba), s) =>
      if rt ≤ 0 then (.ok none, s) else (caught none (parsePayload z garbage' flag ba), s)

/-- Returns the message, `none` for a null pointer, and the stream. -/
def parseFrom (z : Zlib) (config : RockConfig) (garbage garbage' : Nat → UInt8) (s : Stream) :
    Except Fault (Option RockMessage) × Stream :=
  let (rt, bytes, s) := s.readFixSize RockMsgHeader.size
  if rt ≤ 0 then (.ok none, s)
  else
    let header := RockMsgHeader.ofBytes bytes
    if header.magic ≠ [0xab, 0xcd] then (.ok none, s)
    else if header.version ≠ 1 then (.ok none, s)
    else
      parseBody z config garbage garbage' header.flag (byteswapOnLittleEndian header.length) s

/-- `serializeTo` for one message after the other. `memory` gives what the two arrays of
each call happen to hold. -/
def serializeAll (z : Zlib) (config : RockConfig) (memory : Nat → Nat → UInt8) (rounds : Nat) :
    Nat → Stream → List RockMessage → Except Fault (List Int) × Stream
  | _, s, [] => (.ok [], s)
  | k, s, msg :: msgs =>
    match serializeTo z config (memory (2 * k)) (memory (2 * k + 1)) rounds s msg with
    | (.error e, s) => (.error e, s)
    | (.ok rt, s) =>
      match serializeAll z config memory rounds (k + 1) s msgs with
      | (.error e, s) => (.error e, s)
      | (.ok rts, s) => (.ok (rt :: rts), s)

/-- `parseFrom` the given number of times. -/
def parseAll (z : Zlib) (config : RockConfig) (memory : Nat → Nat → UInt8) :
    Nat → Nat → Stream → Except Fault (List (Option RockMessage)) × Stream
  | _, 0, s => (.ok [], s)
  | k, n + 1, s =>
    match parseFrom z config (memory (2 * k)) (memory (2 * k + 1)) s with
    | (.error e, s) => (.error e, s)
    | (.ok msg, s) =>
      match parseAll z config memory (k + 1) n s with
      | (.error e, s) => (.error e, s)
      | (.ok msgs, s) => (.ok (msg :: msgs), s)

end RockMessageDecoder

end CxkFramework
