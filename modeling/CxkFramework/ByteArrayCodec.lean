import CxkFramework.ByteArrayChunks

/-!
# The typed operations of the byte array

Fixed-width integers in the byte order of the array, varints with zigzag for the signed
ones, and strings behind a fixed-width length (`writeStringVint` too, which writes its
length with `writeFuint64_t`). Every operation is one of three families; the members are
the families applied to their own width. Signed negation and doubling wrap around.
-/

namespace CxkFramework.ByteArray

open Words Blocks Runs

/-! ## Fixed width -/

/-- `write(&value, sizeof(value))` after the byte swap. -/
def writeFixed (ba : ByteArray) (n value : Nat) : Except Fault ByteArray :=
  ba.write (leBytes n (if ba.endian ≠ byteOrder then byteswap n value else value))

/-- The macro `XX`. -/
def readFixed (ba : ByteArray) (n : Nat) : Except Fault (Nat × ByteArray) := do
  let (bytes, ba') ← ba.read n
  let v := leValue bytes
  .ok (if ba.endian = byteOrder then v else byteswap n v, ba')

def writeFint8 (ba : ByteArray) (value : Int8) : Except Fault ByteArray :=
  ba.write (leBytes 1 value.toUInt8.toNat)

def writeFuint8 (ba : ByteArray) (value : UInt8) : Except Fault ByteArray :=
  ba.write (leBytes 1 value.toNat)

def writeFint16 (ba : ByteArray) (value : Int16) := ba.writeFixed 2 value.toUInt16.toNat
def writeFuint16 (ba : ByteArray) (value : UInt16) := ba.writeFixed 2 value.toNat
def writeFint32 (ba : ByteArray) (value : Int32) := ba.writeFixed 4 value.toUInt32.toNat
def writeFuint32 (ba : ByteArray) (value : UInt32) := ba.writeFixed 4 value.toNat
def writeFint64 (ba : ByteArray) (value : Int64) := ba.writeFixed 8 value.toUInt64.toNat
def writeFuint64 (ba : ByteArray) (value : UInt64) := ba.writeFixed 8 value.toNat

def readFint8 (ba : ByteArray) : Except Fault (Int8 × ByteArray) := do
  let (bytes, ba) ← ba.read 1
  .ok ((UInt8.ofNat (leValue bytes)).toInt8, ba)

def readFuint8 (ba : ByteArray) : Except Fault (UInt8 × ByteArray) := do
  let (bytes, ba) ← ba.read 1
  .ok (UInt8.ofNat (leValue bytes), ba)

def readFint16 (ba : ByteArray) : Except Fault (Int16 × ByteArray) := do
  let (v, ba) ← ba.readFixed 2
  .ok ((UInt16.ofNat v).toInt16, ba)

def readFuint16 (ba : ByteArray) : Except Fault (UInt16 × ByteArray) := do
  let (v, ba) ← ba.readFixed 2
  .ok (UInt16.ofNat v, ba)

def readFint32 (ba : ByteArray) : Except Fault (Int32 × ByteArray) := do
  let (v, ba) ← ba.readFixed 4
  .ok ((UInt32.ofNat v).toInt32, ba)

def readFuint32 (ba : ByteArray) : Except Fault (UInt32 × ByteArray) := do
  let (v, ba) ← ba.readFixed 4
  .ok (UInt32.ofNat v, ba)

def readFint64 (ba : ByteArray) : Except Fault (Int64 × ByteArray) := do
  let (v, ba) ← ba.readFixed 8
  .ok ((UInt64.ofNat v).toInt64, ba)

def readFuint64 (ba : ByteArray) : Except Fault (UInt64 × ByteArray) := do
  let (v, ba) ← ba.readFixed 8
  .ok (UInt64.ofNat v, ba)

/-! ## Floats

A float is its bits, which `memcpy` moves to and from an integer. -/

def writeFloat (ba : ByteArray) (bits : UInt32) := ba.writeFuint32 bits
def writeDouble (ba : ByteArray) (bits : UInt64) := ba.writeFuint64 bits
def readFloat (ba : ByteArray) : Except Fault (UInt32 × ByteArray) := ba.readFuint32
def readDouble (ba : ByteArray) : Except Fault (UInt64 × ByteArray) := ba.readFuint64

/-! ## Varints -/

def encodeZigzag32 (v : Int32) : UInt32 := if v < 0 then (-v).toUInt32 * 2 - 1 else (v * 2).toUInt32
def encodeZigzag64 (v : Int64) : UInt64 := if v < 0 then (-v).toUInt64 * 2 - 1 else (v * 2).toUInt64
def decodeZigzag32 (v : UInt32) : Int32 := ((v >>> 1) ^^^ -(v &&& 1)).toInt32
def decodeZigzag64 (v : UInt64) : Int64 := ((v >>> 1) ^^^ -(v &&& 1)).toInt64

/-- `tmp` has room for five groups. -/
def writeUint32 (ba : ByteArray) (value : UInt32) : Except Fault ByteArray :=
  ba.write (groups 5 value.toNat)

/-- `tmp` has room for ten groups. -/
def writeUint64 (ba : ByteArray) (value : UInt64) : Except Fault ByteArray :=
  ba.write (groups 10 value.toNat)

def writeInt32 (ba : ByteArray) (value : Int32) := ba.writeUint32 (encodeZigzag32 value)
def writeInt64 (ba : ByteArray) (value : Int64) := ba.writeUint64 (encodeZigzag64 value)

/-- The loop of `readUint32` and `readUint64`: `rounds` groups at most, seven bits apart. -/
def readGroups (ba : ByteArray) (w rounds : Nat) : Except Fault (Nat × ByteArray) :=
  ungroup readFuint8 w rounds 0 0 ba

def readUint32 (ba : ByteArray) : Except Fault (UInt32 × ByteArray) := do
  let (v, ba) ← ba.readGroups 32 5
  .ok (UInt32.ofNat v, ba)

def readUint64 (ba : ByteArray) : Except Fault (UInt64 × ByteArray) := do
  let (v, ba) ← ba.readGroups 64 10
  .ok (UInt64.ofNat v, ba)

def readInt32 (ba : ByteArray) : Except Fault (Int32 × ByteArray) := do
  let (v, ba) ← ba.readUint32
  .ok (decodeZigzag32 v, ba)

def readInt64 (ba : ByteArray) : Except Fault (Int64 × ByteArray) := do
  let (v, ba) ← ba.readUint64
  .ok (decodeZigzag64 v, ba)

/-! ## Strings -/

def writeStringF16 (ba : ByteArray) (str : List UInt8) : Except Fault ByteArray := do
  let ba ← ba.writeFuint16 (UInt16.ofNat str.length)
  ba.write str

def writeStringF32 (ba : ByteArray) (str : List UInt8) : Except Fault ByteArray := do
  let ba ← ba.writeFuint32 (UInt32.ofNat str.length)
  ba.write str

def writeStringF64 (ba : ByteArray) (str : List UInt8) : Except Fault ByteArray := do
  let ba ← ba.writeFuint64 (UInt64.ofNat str.length)
  ba.write str

def writeStringVint (ba : ByteArray) (str : List UInt8) : Except Fault ByteArray := do
  let ba ← ba.writeFuint64 (UInt64.ofNat str.length)
  ba.write str

/-- The length is written here too. -/
def writeStringWithoutLength (ba : ByteArray) (str : List UInt8) : Except Fault ByteArray := do
  let ba ← ba.writeFuint64 (UInt64.ofNat str.length)
  ba.write str

def readStringF16 (ba : ByteArray) : Except Fault (List UInt8 × ByteArray) := do
  let (len, ba) ← ba.readFuint16
  ba.read len.toNat

def readStringF32 (ba : ByteArray) : Except Fault (List UInt8 × ByteArray) := do
  let (len, ba) ← ba.readFuint32
  ba.read len.toNat

def readStringF64 (ba : ByteArray) : Except Fault (List UInt8 × ByteArray) := do
  let (len, ba) ← ba.readFuint64
  ba.read len.toNat

def readStringVint (ba : ByteArray) : Except Fault (List UInt8 × ByteArray) := do
  let (len, ba) ← ba.readFuint64
  ba.read len.toNat

/-! ## Sequences of typed operations -/

/-- What one typed write is given, named after the operation. -/
inductive Value where
  | fint8 (v : Int8) | fuint8 (v : UInt8)
  | fint16 (v : Int16) | fuint16 (v : UInt16)
  | fint32 (v : Int32) | fuint32 (v : UInt32)
  | fint64 (v : Int64) | fuint64 (v : UInt64)
  | int32 (v : Int32) | uint32 (v : UInt32)
  | int64 (v : Int64) | uint64 (v : UInt64)
  | stringF32 (s : List UInt8) | stringF64 (s : List UInt8) | stringVint (s : List UInt8)
  deriving DecidableEq

/-- The typed reads. -/
inductive Kind where
  | fint8 | fuint8 | fint16 | fuint16 | fint32 | fuint32 | fint64 | fuint64
  | int32 | uint32 | int64 | uint64
  | stringF32 | stringF64 | stringVint
  deriving DecidableEq, Repr

/-- The read that matches a write. -/
def Value.kind : Value → Kind
  | .fint8 _ => .fint8 | .fuint8 _ => .fuint8
  | .fint16 _ => .fint16 | .fuint16 _ => .fuint16
  | .fint32 _ => .fint32 | .fuint32 _ => .fuint32
  | .fint64 _ => .fint64 | .fuint64 _ => .fuint64
  | .int32 _ => .int32 | .uint32 _ => .uint32
  | .int64 _ => .int64 | .uint64 _ => .uint64
  | .stringF32 _ => .stringF32 | .stringF64 _ => .stringF64 | .stringVint _ => .stringVint

def writeValue (ba : ByteArray) : Value → Except Fault ByteArray
  | .fint8 v => ba.writeFint8 v
  | .fuint8 v => ba.writeFuint8 v
  | .fint16 v => ba.writeFint16 v
  | .fuint16 v => ba.writeFuint16 v
  | .fint32 v => ba.writeFint32 v
  | .fuint32 v => ba.writeFuint32 v
  | .fint64 v => ba.writeFint64 v
  | .fuint64 v => ba.writeFuint64 v
  | .int32 v => ba.writeInt32 v
  | .uint32 v => ba.writeUint32 v
  | .int64 v => ba.writeInt64 v
  | .uint64 v => ba.writeUint64 v
  | .stringF32 s => ba.writeStringF32 s
  | .stringF64 s => ba.writeStringF64 s
  | .stringVint s => ba.writeStringVint s

/-- The result of a read, tagged with its kind. -/
def tag {α : Type} (f : α → Value) (r : Except Fault (α × ByteArray)) :
    Except Fault (Value × ByteArray) := do
  let (v, ba) ← r
  .ok (f v, ba)

def readValue (ba : ByteArray) : Kind → Except Fault (Value × ByteArray)
  | .fint8 => tag .fint8 ba.readFint8
  | .fuint8 => tag .fuint8 ba.readFuint8
  | .fint16 => tag .fint16 ba.readFint16
  | .fuint16 => tag .fuint16 ba.readFuint16
  | .fint32 => tag .fint32 ba.readFint32
  | .fuint32 => tag .fuint32 ba.readFuint32
  | .fint64 => tag .fint64 ba.readFint64
  | .fuint64 => tag .fuint64 ba.readFuint64
  | .int32 => tag .int32 ba.readInt32
  | .uint32 => tag .uint32 ba.readUint32
  | .int64 => tag .int64 ba.readInt64
  | .uint64 => tag .uint64 ba.readUint64
  | .stringF32 => tag .stringF32 ba.readStringF32
  | .stringF64 => tag .stringF64 ba.readStringF64
  | .stringVint => tag .stringVint ba.readStringVint

def writeAll (ba : ByteArray) : List Value → Except Fault ByteArray
  | [] => .ok ba
  | v :: vs => do
    let ba ← ba.writeValue v
    ba.writeAll vs

def readAll (ba : ByteArray) : List Kind → Except Fault (List Value × ByteArray)
  | [] => .ok ([], ba)
  | k :: ks => do
    let (v, ba) ← ba.readValue k
    let (vs, ba) ← ba.readAll ks
    .ok (v :: vs, ba)

end CxkFramework.ByteArray
