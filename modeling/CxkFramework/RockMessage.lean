import CxkFramework.ByteArray

/-!
# Messages of the Rock protocol

The three kinds of messages. Strings are lists of bytes.
-/

namespace CxkFramework

structure RockRequest where
  sn : UInt32 := 0
  cmd : UInt32 := 0
  body : List UInt8 := []
  deriving DecidableEq, Repr

structure RockResponse where
  sn : UInt32 := 0
  cmd : UInt32 := 0
  result : UInt32 := 404
  resultStr : List UInt8 := [117, 110, 104, 97, 110, 100, 108, 101]
  body : List UInt8 := []
  deriving DecidableEq, Repr

structure RockNotify where
  notify : UInt32 := 0
  body : List UInt8 := []
  deriving DecidableEq, Repr

inductive RockMessage where
  | request (msg : RockRequest)
  | response (msg : RockResponse)
  | notify (msg : RockNotify)
  deriving DecidableEq, Repr

end CxkFramework
