import CxkFramework.Runs
import CxkFramework.Words
import CxkFramework.Blocks

/-!
# The node-chained byte array

`cxk::ByteArray` keeps its bytes in a singly linked list of blocks of `m_baseSize`
bytes. The model keeps the blocks reachable from `m_root` in a list and `m_cur` as an
index into it, `none` for a null pointer. Nodes are only ever appended at the tail, or
cut off behind the root by `clear`, so an index names the same node for as long as a
pointer to it is used. Sizes and positions are natural numbers: they are bounded by the
memory the nodes occupy and never come near the range of `size_t`.

Following a null node pointer ends the program; throwing `std::out_of_range` does not
change the array. Both are results of the model.
-/

namespace CxkFramework

open Words Blocks

/-- `CXK_LITTLE_ENDIAN` and `CXK_BIG_ENDIAN`. -/
inductive Endian where
  | little | big
  deriving DecidableEq, Repr

/-- `CXK_BYTE_ORDER` on the x86-64 hosts the build files are for. -/
def byteOrder : Endian := .little

/-- How a call can fail to return. -/
inductive Fault where
  | outOfRange (what : String)
  | nullNode
  /-- a raw buffer is left, or a loop over one does not end -/
  | wild
  deriving DecidableEq, Repr

/-- The block of a node; its length is the node's `size`. -/
abbrev Node := List UInt8

/-- `garbage` is what freshly allocated blocks happen to hold, by position in the chain. -/
structure ByteArray where
  baseSize : Nat
  position : Nat
  capacity : Nat
  size : Nat
  endian : Endian
  nodes : List Node
  cur : Option Nat
  garbage : Nat → UInt8

/-- A buffer handed to `sendmsg` or `recvmsg`: node, offset in it, length. -/
structure Iovec where
  node : Nat
  offset : Nat
  len : Nat
  deriving DecidableEq, Repr

namespace ByteArray

/-- `new Node(s)`: the block that starts at the given position of the chain. -/
def newNode (garbage : Nat → UInt8) (start s : Nat) : Node := (List.range' start s).map garbage

/-- The constructor. -/
def ofBaseSize (garbage : Nat → UInt8) (baseSize : Nat) : ByteArray where
  baseSize := baseSize
  position := 0
  capacity := baseSize
  size := 0
  endian := .big
  nodes := [newNode garbage 0 baseSize]
  cur := some 0
  garbage := garbage

def isLittleEndian (ba : ByteArray) : Bool := ba.endian == .little

def setIsLittleEndian (ba : ByteArray) (val : Bool) : ByteArray :=
  if val then { ba with endian := .little } else { ba with endian := .big }

def getReadSize (ba : ByteArray) : Nat := ba.size - ba.position

def getCapacity (ba : ByteArray) : Nat := ba.capacity - ba.position

/-- Pointer to the node with the given index. -/
def nodePtr (ba : ByteArray) (i : Nat) : Option Nat := if i < ba.nodes.length then some i else none

/-- Dereference `m_cur`: its index and its block. -/
def deref (ba : ByteArray) : Except Fault (Nat × Node) :=
  match ba.cur with
  | none => .error .nullNode
  | some i =>
    match ba.nodes[i]? with
    | none => .error .nullNode
    | some node => .ok (i, node)

/-- `m_size` is left as it was. -/
def clear (ba : ByteArray) : ByteArray :=
  { ba with position := 0, capacity := ba.baseSize, nodes := ba.nodes.take 1, cur := some 0 }

/-- The nodes `addCapacity` appends behind the last one. -/
def appended (ba : ByteArray) (count : Nat) : List Node :=
  (List.range count).map (fun i =>
    newNode ba.garbage (ba.baseSize * (ba.nodes.length + i)) ba.baseSize)

def addCapacity (ba : ByteArray) (size : Nat) : ByteArray :=
  if size = 0 then ba
  else
    let oldCap := ba.getCapacity
    if oldCap ≥ size then ba
    else
      let size := size - oldCap
      let count := size / ba.baseSize + (if size % ba.baseSize > oldCap then 1 else 0)
      { ba with
        nodes := ba.nodes ++ ba.appended count
        capacity := ba.capacity + count * ba.baseSize
        -- `first` is still null when no node was added
        cur := if oldCap = 0 then (if count = 0 then none else some ba.nodes.length) else ba.cur }

/-- The loop of `write`, over the nodes from `m_cur` on. Returns these nodes with the data
stored and how often `m_cur` moved to the next node. -/
def writeLoop : List Node → Nat → Nat → List UInt8 → Except Fault (List Node × Nat)
  | nodes, _, _, [] => .ok (nodes, 0)
  | [], _, _, _ :: _ => .error .nullNode
  | node :: rest, npos, ncap, d :: ds =>
    let data := d :: ds
    if ncap ≥ data.length then
      .ok (overwrite node npos data :: rest, if node.length = npos + data.length then 1 else 0)
    else
      match rest with
      -- `ncap = m_cur->size` already follows the pointer that was just moved
      | [] => .error .nullNode
      | next :: _ => do
        let (rest', hops) ← writeLoop rest 0 next.length (data.drop ncap)
        .ok (overwrite node npos (data.take ncap) :: rest', hops + 1)

/-- `write` once `addCapacity` is done. -/
def store (ba : ByteArray) (buf : List UInt8) : Except Fault ByteArray := do
  let npos := ba.position % ba.baseSize
  let (i, node) ← ba.deref
  let (nodes, hops) ← writeLoop (ba.nodes.drop i) npos (node.length - npos) buf
  let position := ba.position + buf.length
  .ok { ba with
    nodes := ba.nodes.take i ++ nodes
    cur := ba.nodePtr (i + hops)
    position := position
    size := if position > ba.size then position else ba.size }

def write (ba : ByteArray) (buf : List UInt8) : Except Fault ByteArray :=
  if buf.length = 0 then .ok ba else (ba.addCapacity buf.length).store buf

/-- The loop of `read`. Unlike `write`, it keeps the first node's `ncap` for all nodes. -/
def readLoop : List Node → Nat → Nat → Nat → Except Fault (List UInt8 × Nat)
  | _, _, _, 0 => .ok ([], 0)
  | [], _, _, _ + 1 => .error .nullNode
  | node :: rest, npos, ncap, k + 1 =>
    let size := k + 1
    if ncap ≥ size then
      .ok (slice node npos size, if node.length = npos + size then 1 else 0)
    else do
      let (bytes, hops) ← readLoop rest 0 ncap (size - ncap)
      .ok (slice node npos ncap ++ bytes, hops + 1)

def read (ba : ByteArray) (size : Nat) : Except Fault (List UInt8 × ByteArray) :=
  if size > ba.getReadSize then .error (.outOfRange "not enough len")
  else do
    let npos := ba.position % ba.baseSize
    let (i, node) ← ba.deref
    let (bytes, hops) ← readLoop (ba.nodes.drop i) npos (node.length - npos) size
    .ok (bytes, { ba with cur := ba.nodePtr (i + hops), position := ba.position + size })

/-- The overload of `read` with a start position: it starts from `m_cur` all the same and
changes nothing. -/
def readAt (ba : ByteArray) (size position : Nat) : Except Fault (List UInt8) :=
  if size > ba.getReadSize then .error (.outOfRange "not enough len")
  else do
    let npos := position % ba.baseSize
    let (i, node) ← ba.deref
    let (bytes, _) ← readLoop (ba.nodes.drop i) npos (node.length - npos) size
    .ok bytes

def toString (ba : ByteArray) : Except Fault (List UInt8) :=
  if ba.getReadSize = 0 then .ok [] else ba.readAt ba.getReadSize ba.position

/-- The walk of `setPosition` from the root: how many nodes it passes. -/
def seekLoop : List Node → Nat → Except Fault Nat
  | [], _ => .error .nullNode
  | node :: rest, v =>
    if v > node.length then do
      let hops ← seekLoop rest (v - node.length)
      .ok (hops + 1)
    else .ok (if v = node.length then 1 else 0)

def setPosition (ba : ByteArray) (v : Nat) : Except Fault ByteArray :=
  if v > ba.capacity then .error (.outOfRange "set_position out of range")
  else do
    let hops ← seekLoop ba.nodes v
    .ok { ba with
      position := v
      size := if v > ba.size then v else ba.size
      cur := ba.nodePtr hops }

/-- The loop that `getReadBuffers` and `getWriteBuffers` share, from node `idx` on. -/
def buffersLoop : List Node → Nat → Nat → Nat → Nat → Except Fault (List Iovec)
  | _, _, _, _, 0 => .ok []
  | [], _, _, _, _ + 1 => .error .nullNode
  | _ :: rest, idx, npos, ncap, k + 1 =>
    let len := k + 1
    if ncap ≥ len then .ok [⟨idx, npos, len⟩]
    else
      match rest with
      | [] => .error .nullNode
      | next :: _ => do
        let iovs ← buffersLoop rest (idx + 1) 0 next.length (len - ncap)
        .ok (⟨idx, npos, ncap⟩ :: iovs)

def getReadBuffers (ba : ByteArray) (len : Nat) : Except Fault (List Iovec × Nat) :=
  let len := if len > ba.getReadSize then ba.getReadSize else len
  if len = 0 then .ok ([], 0)
  else do
    let npos := ba.position % ba.baseSize
    let (i, node) ← ba.deref
    let iovs ← buffersLoop (ba.nodes.drop i) i npos (node.length - npos) len
    .ok (iovs, len)

/-- The overload with a start position; it still takes `ncap` from `m_cur`. -/
def getReadBuffersAt (ba : ByteArray) (len position : Nat) : Except Fault (List Iovec × Nat) :=
  let len := if len > ba.getReadSize then ba.getReadSize else len
  if len = 0 then .ok ([], 0)
  else
    let npos := position % ba.baseSize
    let count := position / ba.baseSize
    if count > ba.nodes.length then .error .nullNode
    else do
      let (_, node) ← ba.deref
      let iovs ← buffersLoop (ba.nodes.drop count) count npos (node.length - npos) len
      .ok (iovs, len)

def getWriteBuffers (ba : ByteArray) (len : Nat) :
    Except Fault ((List Iovec × Nat) × ByteArray) :=
  if len = 0 then .ok (([], 0), ba)
  else do
    let ba := ba.addCapacity len
    let npos := ba.position % ba.baseSize
    let (i, node) ← ba.deref
    let iovs ← buffersLoop (ba.nodes.drop i) i npos (node.length - npos) len
    .ok ((iovs, len), ba)

end ByteArray

end CxkFramework
