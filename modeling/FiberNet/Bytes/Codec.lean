import FiberNet.Bytes.ByteArray
import FiberNet.Foundation.ByteOrder

/-! # Typed values in a ByteArray

What the typed operations pass to `write` and what they make of the bytes that `read` gives
them. `host` is the byte order of the machine, `endian` the one that `setLittleEndian` has
selected.
-/

namespace FiberNet

/-- The byte strings that an operation passes to `write`, in order. -/
abbrev Writes := Except Failure (List (List UInt8))

/-- What an operation makes of the bytes to read, and those it leaves. -/
abbrev Reader := StateT (List UInt8) (Except Failure)

/-- `read`. -/
def Reader.read (size : Nat) : Reader (List UInt8) := fun data =>
  if size > data.length then .error .outOfRange
  else .ok (data.take size, data.drop size)

/-! ## Integers of a fixed width -/

/-- The bytes of a variable. -/
def memory {w : Nat} (host : Endian) (count : Nat) (v : BitVec w) : List UInt8 :=
  host.arrange (toBytes count v.toNat)

/-- The variable with the given bytes. -/
def ofMemory (host : Endian) (w : Nat) (bytes : List UInt8) : BitVec w :=
  .ofNat w (ofBytes (host.arrange bytes))

def byteSwap {w : Nat} (count : Nat) (v : BitVec w) : BitVec w :=
  .ofNat w (ofBytes (toBytes count v.toNat).reverse)

/-- A write of `count` bytes, swapped if the byte order asks for it. -/
def writeFixed {w : Nat} (host endian : Endian) (count : Nat) (val : BitVec w) : Writes :=
  let val := if endian ≠ host then byteSwap count val else val
  .ok [memory host count val]

def readFixed (host endian : Endian) (count w : Nat) : Reader (BitVec w) := do
  let bytes ← Reader.read count
  let v := ofMemory host w bytes
  if endian = host then return v
  else return byteSwap count v

def writeInt8 (host : Endian) (val : Int8) : Writes := .ok [memory host 1 val.toBitVec]
def writeInt16 (host endian : Endian) (val : Int16) : Writes :=
  writeFixed host endian 2 val.toBitVec
def writeInt32 (host endian : Endian) (val : Int32) : Writes :=
  writeFixed host endian 4 val.toBitVec
def writeInt64 (host endian : Endian) (val : Int64) : Writes :=
  writeFixed host endian 8 val.toBitVec
def writeUint8 (host : Endian) (val : UInt8) : Writes := .ok [memory host 1 val.toBitVec]
def writeUint16 (host endian : Endian) (val : UInt16) : Writes :=
  writeFixed host endian 2 val.toBitVec
def writeUint32 (host endian : Endian) (val : UInt32) : Writes :=
  writeFixed host endian 4 val.toBitVec
def writeUint64 (host endian : Endian) (val : UInt64) : Writes :=
  writeFixed host endian 8 val.toBitVec

def readInt8 (host : Endian) : Reader Int8 := do
  return .ofBitVec (ofMemory host 8 (← Reader.read 1))
def readInt16 (host endian : Endian) : Reader Int16 := do
  return .ofBitVec (← readFixed host endian 2 16)
def readInt32 (host endian : Endian) : Reader Int32 := do
  return .ofBitVec (← readFixed host endian 4 32)
def readInt64 (host endian : Endian) : Reader Int64 := do
  return .ofBitVec (← readFixed host endian 8 64)
def readUint8 (host : Endian) : Reader UInt8 := do
  return .ofBitVec (ofMemory host 8 (← Reader.read 1))
def readUint16 (host endian : Endian) : Reader UInt16 := do
  return .ofBitVec (← readFixed host endian 2 16)
def readUint32 (host endian : Endian) : Reader UInt32 := do
  return .ofBitVec (← readFixed host endian 4 32)
def readUint64 (host endian : Endian) : Reader UInt64 := do
  return .ofBitVec (← readFixed host endian 8 64)

/-! ## Integers of seven bits a byte -/

/-- Small numbers of either sign become small numbers. -/
def Encode {w : Nat} (v : BitVec w) : BitVec w :=
  if v.slt 0 then -v * 2 - 1
  else v * 2

def Decode {w : Nat} (v : BitVec w) : BitVec w :=
  (v >>> 1) ^^^ -(v &&& 1)

/-- The loop that fills the scratch buffer, of which `room` bytes are left. -/
def groups {w : Nat} : (room : Nat) → BitVec w → Except Failure (List UInt8)
  | 0, _ => .error .overflow
  | room + 1, v =>
      if v ≥ 0x80 then do
        let rest ← groups room (v >>> 7)
        return .ofBitVec (((v &&& 0x7f) ||| 0x80).setWidth 8) :: rest
      else return [.ofBitVec (v.setWidth 8)]

def writeVint32 (val : Int32) : Writes := do
  return [← groups 5 (Encode val.toBitVec)]

def writeVint64 (val : Int64) : Writes := do
  return [← groups 10 (Encode val.toBitVec)]

def writeVuint32 (val : UInt32) : Writes := do
  return [← groups 5 val.toBitVec]

/-- The scratch buffer is as large as the one of `writeVuint32`. -/
def writeVuint64 (val : UInt64) : Writes := do
  return [← groups 5 val.toBitVec]

/-- The loop that reads a byte at a time up to the bit number `stop`. A byte that is not the
last has to fit below the bit number `limit`. -/
def readGroups {w : Nat} (stop limit : Nat) : (turns i : Nat) → (v : BitVec w) →
    Reader (BitVec w)
  | 0, _, v => return v
  | turns + 1, i, v =>
      if i < stop then do
        let tmp := ofBytes (← Reader.read 1)
        if tmp ≥ 0x80 then
          if i + 7 > limit then throw .logicError
          readGroups stop limit turns (i + 7) (v ||| BitVec.ofNat w (tmp &&& 0x7f) <<< i)
        else return v ||| BitVec.ofNat w tmp <<< i
      else return v

def readVint32 : Reader Int32 := do
  return .ofBitVec (Decode (← readGroups 32 32 32 0 0))

def readVint64 : Reader Int64 := do
  return .ofBitVec (Decode (← readGroups 64 64 64 0 0))

def readVuint32 : Reader UInt32 := do
  return .ofBitVec (← readGroups 64 32 64 0 0)

def readVuint64 : Reader UInt64 := do
  return .ofBitVec (← readGroups 64 64 64 0 0)

/-! ## Strings -/

def writeStringU16 (host endian : Endian) (val : List UInt8) : Writes := do
  if val.length > 65535 then throw .outOfRange
  let length ← writeUint16 host endian (.ofNat val.length)
  return length ++ [val]

def writeStringU32 (host endian : Endian) (val : List UInt8) : Writes := do
  let length ← writeUint32 host endian (.ofNat val.length)
  return length ++ [val]

def writeStringU64 (host endian : Endian) (val : List UInt8) : Writes := do
  let length ← writeUint64 host endian (.ofNat val.length)
  return length ++ [val]

def writeStringV64 (val : List UInt8) : Writes := do
  let length ← writeVuint64 (.ofNat val.length)
  return length ++ [val]

def readStringU16 (host endian : Endian) : Reader (List UInt8) := do
  let length ← readUint16 host endian
  Reader.read length.toNat

def readStringU32 (host endian : Endian) : Reader (List UInt8) := do
  let length ← readUint32 host endian
  Reader.read length.toNat

def readStringU64 (host endian : Endian) : Reader (List UInt8) := do
  let length ← readUint64 host endian
  Reader.read length.toNat

def readStringV64 : Reader (List UInt8) := do
  let length ← readVuint64
  Reader.read length.toNat

/-! ## Values -/

inductive Kind
  | int8 | int16 | int32 | int64
  | uint8 | uint16 | uint32 | uint64
  | vint32 | vint64 | vuint32
  | stringU16 | stringU64
  deriving DecidableEq, Repr

inductive Value
  | int8 (val : Int8)
  | int16 (val : Int16)
  | int32 (val : Int32)
  | int64 (val : Int64)
  | uint8 (val : UInt8)
  | uint16 (val : UInt16)
  | uint32 (val : UInt32)
  | uint64 (val : UInt64)
  | vint32 (val : Int32)
  | vint64 (val : Int64)
  | vuint32 (val : UInt32)
  | stringU16 (val : List UInt8)
  | stringU64 (val : List UInt8)
  deriving DecidableEq, Repr

def Value.kind : Value → Kind
  | int8 _ => .int8
  | int16 _ => .int16
  | int32 _ => .int32
  | int64 _ => .int64
  | uint8 _ => .uint8
  | uint16 _ => .uint16
  | uint32 _ => .uint32
  | uint64 _ => .uint64
  | vint32 _ => .vint32
  | vint64 _ => .vint64
  | vuint32 _ => .vuint32
  | stringU16 _ => .stringU16
  | stringU64 _ => .stringU64

def Value.write (host endian : Endian) : Value → Writes
  | int8 val => writeInt8 host val
  | int16 val => writeInt16 host endian val
  | int32 val => writeInt32 host endian val
  | int64 val => writeInt64 host endian val
  | uint8 val => writeUint8 host val
  | uint16 val => writeUint16 host endian val
  | uint32 val => writeUint32 host endian val
  | uint64 val => writeUint64 host endian val
  | vint32 val => writeVint32 val
  | vint64 val => writeVint64 val
  | vuint32 val => writeVuint32 val
  | stringU16 val => writeStringU16 host endian val
  | stringU64 val => writeStringU64 host endian val

def Kind.read (host endian : Endian) : Kind → Reader Value
  | int8 => .int8 <$> readInt8 host
  | int16 => .int16 <$> readInt16 host endian
  | int32 => .int32 <$> readInt32 host endian
  | int64 => .int64 <$> readInt64 host endian
  | uint8 => .uint8 <$> readUint8 host
  | uint16 => .uint16 <$> readUint16 host endian
  | uint32 => .uint32 <$> readUint32 host endian
  | uint64 => .uint64 <$> readUint64 host endian
  | vint32 => .vint32 <$> readVint32
  | vint64 => .vint64 <$> readVint64
  | vuint32 => .vuint32 <$> readVuint32
  | stringU16 => .stringU16 <$> readStringU16 host endian
  | stringU64 => .stringU64 <$> readStringU64 host endian

/-- The values one after the other, each in a byte order of its own. -/
def writeValues (host : Endian) : List (Endian × Value) → Writes
  | [] => .ok []
  | (endian, value) :: values => do
      let first ← value.write host endian
      let rest ← writeValues host values
      return first ++ rest

def readValues (host : Endian) : List (Endian × Kind) → Reader (List Value)
  | [] => return []
  | (endian, kind) :: kinds => do
      let first ← kind.read host endian
      let rest ← readValues host kinds
      return first :: rest

end FiberNet
